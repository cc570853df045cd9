import RaftJournal.Proofs.Segment.Framing

/-! # What a segment file holds

A segment file is written as a header and one frame after the other (**`segmentBytes`**), and zero
bytes may follow. **`SegmentReader.call`** asks a reader for its next record; a reader that has come to
its end, or to an error, stays where it is.

* **`LogSegment.reader_of_header`** and **`LogSegment.header_of_reader`**: a file that is not empty is
  opened exactly if it starts with the header.
* **`SegmentReader.gives_of_unread`**: before frames and zeros, a reader gives the records of the
  frames.
* **`SegmentReader.Stands`** is what ties a reader to its file: the bytes before it are the header and
  the frames of the records that it has handed out. Every call keeps it.
* **`LogSegment.decodes_exactly`** puts the two directions together. -/

namespace RaftJournal

/-- The bytes of a segment with the given records. -/
def segmentBytes (records : List LogRecord) : Bytes :=
  LogRecord.segmentHeader ++ records.flatMap LogRecord.frame

theorem segmentBytes_append (records more : List LogRecord) :
    segmentBytes (records ++ more) = segmentBytes records ++ more.flatMap LogRecord.frame := by
  rw [segmentBytes, segmentBytes, List.flatMap_append, List.append_assoc]

theorem length_segmentBytes (records : List LogRecord) :
    (segmentBytes records).length = 8 + (records.flatMap LogRecord.frame).length := by
  rw [segmentBytes, List.length_append]
  rfl

namespace LogSegment

variable {tree : FileTree} {segment : LogSegment} {content : Content}

/-- A record that a segment may hold. -/
def Admits (segment : LogSegment) (record : LogRecord) : Prop :=
  record.Framable ∧ segment.contains record.index

instance (segment : LogSegment) (record : LogRecord) : Decidable (segment.Admits record) :=
  inferInstanceAs (Decidable (_ ∧ _))

/-! ## opening -/

/-- The reader behind the header of a file. -/
def behindHeader (segment : LogSegment) (content : Content) : SegmentReader :=
  ⟨segment, LogRecord.segmentHeaderSize, content.drop LogRecord.segmentHeaderSize, false⟩

/-- Behind the header of a file stands what comes after it. -/
theorem unread_behindHeader (segment : LogSegment) {rest : Bytes}
    (h : content.toList = LogRecord.segmentHeader ++ rest) :
    (segment.behindHeader content).unread.toList = rest := by
  show (content.drop _).toList = _
  rw [Content.toList_drop, h]
  exact List.drop_left' rfl

/-- A file that starts with the header is opened. -/
theorem reader_of_header {rest : Bytes} (file : tree.read segment.path = .ok content)
    (h : content.toList = LogRecord.segmentHeader ++ rest) :
    segment.reader tree = .ok (segment.behindHeader content) := by
  have size : content.length = 8 + rest.length := by
    rw [← Content.length_toList, h, List.length_append]
    rfl
  have header : content.take LogRecord.segmentHeaderSize = LogRecord.segmentHeader := by
    rw [Content.take_eq, h]
    exact List.take_left' rfl
  rw [reader, file]
  simp only
  rw [if_neg (by omega), if_neg (by rw [LogRecord.segmentHeaderSize_eq]; omega), if_pos header]
  rfl

/-- A file that is opened and not empty starts with the header. -/
theorem header_of_reader {r : SegmentReader} (file : tree.read segment.path = .ok content)
    (full : content.length ≠ 0) (h : segment.reader tree = .ok r) :
    r = segment.behindHeader content ∧
      content.toList = LogRecord.segmentHeader ++ r.unread.toList := by
  rw [reader, file] at h
  simp only at h
  rw [if_neg full] at h
  split at h
  · cases h
  · split at h
    · rename_i header
      cases h
      refine ⟨rfl, ?_⟩
      rw [← header, Content.take_eq]
      exact (Content.toList_drop _ _ ▸ List.take_append_drop _ _).symm
    · cases h

end LogSegment

namespace SegmentReader

variable {r : SegmentReader} {content : Content} {records : List LogRecord}

/-- Asks a reader for its next record. -/
def call (r : SegmentReader) : Except JournalError (Option LogRecord) × SegmentReader :=
  match r.next with
  | .ok none => (.ok none, r)
  | .ok (some (record, r')) => (.ok (some record), r')
  | .error e => (.error e, r)

/-! ## from records to answers -/

/-- Before the frames of records that its segment admits, and then zeros, a reader gives the
records. -/
theorem gives_of_unread {zeros : Nat}
    (unread : r.unread.toList = records.flatMap LogRecord.frame ++ List.replicate zeros 0)
    (admits : ∀ record ∈ records, r.segment.Admits record) : Gives call records none r := by
  refine Gives.of_simulation
    (fun r items fault => fault = none ∧ (∀ record ∈ items, r.segment.Admits record) ∧
      r.unread.toList = items.flatMap LogRecord.frame ++ List.replicate zeros 0)
    ?_ ?_ ?_ ⟨rfl, admits, unread⟩
  · rintro r record items fault ⟨rfl, admits, unread⟩
    rw [List.flatMap_cons, List.append_assoc] at unread
    obtain ⟨framable, inside⟩ := admits record List.mem_cons_self
    rw [call, next_of_frame unread framable inside]
    refine ⟨rfl, rfl, fun other mem => admits other (List.mem_cons_of_mem _ mem), ?_⟩
    show (r.unread.drop record.frame.length).toList = _
    rw [Content.toList_drop, unread, List.drop_left' rfl]
  · rintro r e ⟨h, -⟩
    exact absurd h (by simp)
  · rintro r ⟨-, admits, unread⟩
    have ended : r.next = .ok none := by
      refine next_of_zeros fun b mem => ?_
      rw [unread] at mem
      exact List.eq_of_mem_replicate mem
    rw [call, ended]
    exact ⟨rfl, rfl, admits, unread⟩

/-! ## from answers to bytes -/

/-- The reader has handed out the records and stands behind their frames. -/
def Stands (segment : LogSegment) (content : Content) (records : List LogRecord)
    (r : SegmentReader) : Prop :=
  r.segment = segment ∧ (∀ record ∈ records, segment.Admits record) ∧
    r.offset = (segmentBytes records).length ∧
    content.toList = segmentBytes records ++ r.unread.toList

variable {segment : LogSegment}

/-- A call that hands out a record leaves the reader behind its frame, and any other call leaves it
where it is. -/
theorem stands_call (h : Stands segment content records r) :
    Stands segment content (records ++ delivered [r.call.1]) r.call.2 := by
  have stays : Stands segment content (records ++ []) r := by
    rw [List.append_nil]
    exact h
  rw [call]
  cases hn : r.next with
  | error e => exact stays
  | ok found =>
    cases found with
    | none => exact stays
    | some found =>
      obtain ⟨record, r'⟩ := found
      obtain ⟨rfl, unread, framable, inside⟩ := frame_of_next hn
      obtain ⟨own, admits, offset, bytes⟩ := h
      show Stands segment content (records ++ [record]) (r.advance record.frame.length)
      refine ⟨own, fun other mem => ?_, ?_, ?_⟩
      · rcases List.mem_append.mp mem with mem | mem
        · exact admits other mem
        · rw [List.mem_singleton.mp mem, ← own]
          exact ⟨framable, inside⟩
      · show r.offset + record.frame.length = _
        rw [offset, segmentBytes_append, List.length_append, List.flatMap_singleton]
      · rw [bytes, unread, segmentBytes_append, List.flatMap_singleton, List.append_assoc]

/-- However often it is called, a reader stands behind the frames of what it has handed out. -/
theorem stands_stateAfter (h : Stands segment content records r) (count : Nat) :
    Stands segment content (records ++ delivered (answers call count r))
      (stateAfter call count r) := by
  induction count generalizing records r with
  | zero =>
    rw [answers, stateAfter, delivered_nil, List.append_nil]
    exact h
  | succ count ih =>
    rw [answers, stateAfter, delivered_cons, ← List.append_assoc]
    exact ih (stands_call h)

end SegmentReader

/-! ## both directions -/

/-- **A segment file is decoded exactly.** If its bytes are those of records that the segment admits,
with any number of zeros behind them, it is opened and its reader gives the records. Conversely, at
any point of reading a file that is not empty, the bytes before the reader are those of the records
that it has handed out, each of which the segment admits. -/
theorem LogSegment.decodes_exactly (segment : LogSegment) (tree : FileTree) (content : Content)
    (file : tree.read segment.path = .ok content) :
    (∀ (records : List LogRecord) (zeros : Nat),
      content.toList = segmentBytes records ++ List.replicate zeros 0 →
      (∀ record ∈ records, record.Framable ∧ segment.contains record.index) →
      ∃ r, segment.reader tree = .ok r ∧ Gives SegmentReader.call records none r) ∧
    (∀ (r : SegmentReader) (count : Nat), content.length ≠ 0 → segment.reader tree = .ok r →
      (stateAfter SegmentReader.call count r).offset ≤ content.length ∧
      content.toList.take (stateAfter SegmentReader.call count r).offset =
        segmentBytes (delivered (answers SegmentReader.call count r)) ∧
      ∀ record ∈ delivered (answers SegmentReader.call count r),
        record.Framable ∧ segment.contains record.index) := by
  constructor
  · intro records zeros bytes admits
    rw [segmentBytes, List.append_assoc] at bytes
    have unread : (segment.behindHeader content).unread.toList =
        records.flatMap LogRecord.frame ++ List.replicate zeros 0 := by
      show (content.drop _).toList = _
      rw [Content.toList_drop, bytes]
      exact List.drop_left' rfl
    exact ⟨_, reader_of_header file bytes, SegmentReader.gives_of_unread unread admits⟩
  · intro r count full opened
    obtain ⟨rfl, header⟩ := header_of_reader file full opened
    have start : SegmentReader.Stands segment content [] (segment.behindHeader content) := by
      refine ⟨rfl, fun record mem => absurd mem List.not_mem_nil, rfl, ?_⟩
      rw [segmentBytes, List.flatMap_nil, List.append_nil]
      exact header
    obtain ⟨-, admits, offset, bytes⟩ := SegmentReader.stands_stateAfter start count
    rw [List.nil_append] at admits offset bytes
    refine ⟨?_, ?_, admits⟩
    · rw [offset, ← Content.length_toList, bytes, List.length_append]
      omega
    · rw [offset, bytes, List.take_left' rfl]

namespace LogSegment

/-- A closed segment of two records. -/
def ofTwo : LogSegment := ⟨4, some 5, "log_4-5"⟩

/-- Its records, of which the second has no payload. -/
def twoRecords : List LogRecord := [⟨4, 1, .configuration, [0xAA]⟩, ⟨5, 2, .metadata, []⟩]

/-- Its file, with three zeros behind the records. -/
def twoContent : Content := ⟨segmentBytes twoRecords, 3⟩

/-- The segment of two records is decoded, and after five calls the reader stands behind them. -/
theorem decodes_exactly_of_two :
    FileTree.read ⟨[(["log_4-5"], .file 0 twoContent)], 1⟩ ofTwo.path = .ok twoContent ∧
    twoContent.toList = segmentBytes twoRecords ++ List.replicate 3 0 ∧
    (∀ record ∈ twoRecords, record.Framable ∧ ofTwo.contains record.index) ∧
    twoContent.length ≠ 0 ∧
    ∃ r, ofTwo.reader ⟨[(["log_4-5"], .file 0 twoContent)], 1⟩ = .ok r ∧
      Gives SegmentReader.call twoRecords none r ∧
      twoContent.toList.take (stateAfter SegmentReader.call 5 r).offset =
        segmentBytes twoRecords := by
  have file : FileTree.read ⟨[(["log_4-5"], .file 0 twoContent)], 1⟩ ofTwo.path =
      .ok twoContent := by rfl
  have bytes : twoContent.toList = segmentBytes twoRecords ++ List.replicate 3 0 := rfl
  have admits : ∀ record ∈ twoRecords, record.Framable ∧ ofTwo.contains record.index := by decide
  have full : twoContent.length ≠ 0 := by
    rw [← Content.length_toList, bytes, List.length_append, length_segmentBytes]
    omega
  obtain ⟨decoded, canonical⟩ := decodes_exactly ofTwo _ twoContent file
  obtain ⟨r, opened, gives⟩ := decoded twoRecords 3 bytes admits
  refine ⟨file, bytes, admits, full, r, opened, gives, ?_⟩
  rw [(canonical r 5 full opened).2.1, gives 5]
  rfl

end LogSegment

end RaftJournal
