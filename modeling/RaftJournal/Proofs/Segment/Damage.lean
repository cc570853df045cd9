import RaftJournal.Proofs.Bytes.Bursts
import RaftJournal.Proofs.Segment.Reading

/-! # Damaged segments

A change of a segment is **`Bytes.ChangedWithin`** some places when the bytes are different, but only
there. If the places are up to four in a row, all of them in the body of one record or all of them in
its checksum, the two no longer fit each other (**`crc32_ne_of_changedWithin`**). A reader hands out
the records before that one, and then refuses it however often it is asked:
**`LogSegment.corruption_detected`**. -/

namespace RaftJournal

/-! ## changes -/

/-- The bytes have been changed, but only within so many of them from a place on. -/
structure Bytes.ChangedWithin (place width : Nat) (old new : Bytes) : Prop where
  length : new.length = old.length
  elsewhere : ∀ i, i < place ∨ place + width ≤ i → new[i]? = old[i]?
  changed : new ≠ old

namespace Bytes.ChangedWithin

variable {place width n : Nat} {old new front middle back : Bytes}

theorem take_eq (h : ChangedWithin place width old new) (before : n ≤ place) :
    new.take n = old.take n := by
  refine List.ext_getElem? fun i => ?_
  rw [List.getElem?_take, List.getElem?_take]
  by_cases inside : i < n
  · rw [if_pos inside, if_pos inside, h.elsewhere i (.inl (Nat.lt_of_lt_of_le inside before))]
  · rw [if_neg inside, if_neg inside]

theorem drop_eq (h : ChangedWithin place width old new) (behind : place + width ≤ n) :
    new.drop n = old.drop n := by
  refine List.ext_getElem? fun i => ?_
  rw [List.getElem?_drop, List.getElem?_drop, h.elsewhere _ (.inr (by omega))]

/-- A change within the middle of some bytes is a change of that middle. -/
theorem exists_middle (h : ChangedWithin place width (front ++ (middle ++ back)) new)
    (after : front.length ≤ place) (before : place + width ≤ front.length + middle.length) :
    ∃ middle', new = front ++ (middle' ++ back) ∧
      ChangedWithin (place - front.length) width middle middle' := by
  have first : new.take front.length = front := by
    rw [h.take_eq after, List.take_left' rfl]
  have last : (new.drop front.length).drop middle.length = back := by
    rw [List.drop_drop, h.drop_eq before, ← List.drop_drop, List.drop_left' rfl,
      List.drop_left' rfl]
  have split : new = front ++ ((new.drop front.length).take middle.length ++ back) :=
    calc new
        = new.take front.length ++ ((new.drop front.length).take middle.length ++
            (new.drop front.length).drop middle.length) := by
          rw [List.take_append_drop, List.take_append_drop]
      _ = front ++ ((new.drop front.length).take middle.length ++ back) := by rw [first, last]
  generalize (new.drop front.length).take middle.length = middle' at split
  have same : middle'.length = middle.length := by
    have total := h.length
    rw [split] at total
    simp only [List.length_append] at total
    omega
  refine ⟨middle', split, same, fun i outside => ?_, fun unchanged => h.changed ?_⟩
  · have behind (l : Bytes) : (front ++ l)[front.length + i]? = l[i]? := by
      rw [List.getElem?_append_right (Nat.le_add_right _ _), Nat.add_sub_cancel_left]
    have other := h.elsewhere (front.length + i) (by omega)
    rw [split, behind, behind] at other
    by_cases inside : i < middle.length
    · rwa [List.getElem?_append_left (by omega), List.getElem?_append_left inside] at other
    · rw [List.getElem?_eq_none (by omega), List.getElem?_eq_none (by omega)]
  · rw [split, unchanged]

end Bytes.ChangedWithin

/-- Up to four bytes in a row do not change without the checksum. -/
theorem crc32_ne_of_changedWithin {place width : Nat} {old new : Bytes} (few : width ≤ 4)
    (h : Bytes.ChangedWithin place width old new) : crc32 new ≠ crc32 old := by
  have cut (bytes : Bytes) : bytes =
      bytes.take place ++ ((bytes.drop place).take width ++ bytes.drop (place + width)) := by
    rw [← List.drop_drop, List.take_append_drop, List.take_append_drop]
  have size (bytes : Bytes) :
      ((bytes.drop place).take width).length = min width (bytes.length - place) := by
    rw [List.length_take, List.length_drop]
  have changed : (new.drop place).take width ≠ (old.drop place).take width := by
    intro same
    apply h.changed
    rw [cut new, cut old, h.take_eq (Nat.le_refl _), h.drop_eq (Nat.le_refl _), same]
  rw [cut new, cut old, h.take_eq (Nat.le_refl _), h.drop_eq (Nat.le_refl _)]
  refine crc32_ne_of_burst ?_ ?_ changed
  · rw [size]
    omega
  · rw [size, size, h.length]

/-! ## reading up to the damage -/

namespace SegmentReader

variable {r : SegmentReader} {records : List LogRecord}

/-- Going forward twice is going forward by as much at once. -/
theorem advance_advance (r : SegmentReader) (first more : Nat) :
    (r.advance first).advance more = r.advance (first + more) := by
  have unread : (r.unread.drop first).drop more = r.unread.drop (first + more) := by
    simp only [Content.drop, List.drop_drop, List.length_drop, Content.mk.injEq, true_and]
    omega
  rw [advance, advance, advance, unread, Nat.add_assoc]

/-- Before the frames of records that its segment admits, a reader hands out the records and goes past
their frames. -/
theorem answers_of_frames {rest : Bytes}
    (unread : r.unread.toList = records.flatMap LogRecord.frame ++ rest)
    (admits : ∀ record ∈ records, r.segment.Admits record) (count : Nat) :
    answers call (records.length + count) r =
      records.map (fun record => .ok (some record)) ++
        answers call count (r.advance (records.flatMap LogRecord.frame).length) := by
  induction records generalizing r with
  | nil =>
    have stays : r.advance 0 = r := by simp [advance, Content.drop]
    rw [List.length_nil, Nat.zero_add, List.flatMap_nil, List.length_nil, stays]
    rfl
  | cons record records ih =>
    rw [List.flatMap_cons, List.append_assoc] at unread
    obtain ⟨framable, inside⟩ := admits record List.mem_cons_self
    have behind : (r.advance record.frame.length).unread.toList =
        records.flatMap LogRecord.frame ++ rest := by
      show (r.unread.drop record.frame.length).toList = _
      rw [Content.toList_drop, unread, List.drop_left' rfl]
    have more := ih behind fun other mem => admits other (List.mem_cons_of_mem _ mem)
    have first : r.call = (.ok (some record), r.advance record.frame.length) := by
      rw [call, next_of_frame unread framable inside]
    rw [List.length_cons, Nat.add_right_comm, answers, first, more, advance_advance,
      List.flatMap_cons, List.length_append]
    rfl

theorem exists_answers_eq {rest : Bytes}
    (unread : r.unread.toList = records.flatMap LogRecord.frame ++ rest)
    (admits : ∀ record ∈ records, r.segment.Admits record) :
    ∃ r', r'.segment = r.segment ∧ r'.unread.toList = rest ∧
      ∀ count, answers call (records.length + count) r =
        records.map (fun record => .ok (some record)) ++ answers call count r' := by
  refine ⟨r.advance (records.flatMap LogRecord.frame).length, rfl, ?_,
    answers_of_frames unread admits⟩
  show (r.unread.drop _).toList = _
  rw [Content.toList_drop, unread, List.drop_left' rfl]

/-- A reader that a call leaves where it is answers the same again and again. -/
theorem answers_of_stays {answer : Except JournalError (Option LogRecord)}
    (stays : r.call = (answer, r)) (count : Nat) :
    answers call count r = List.replicate count answer := by
  induction count with
  | zero => rfl
  | succ count ih => rw [answers, stays, ih, List.replicate_succ]

/-- A reader that has been refused a record is refused it again. -/
theorem answers_of_error {e : JournalError} (h : r.next = .error e) (count : Nat) :
    answers call count r = List.replicate count (.error e) :=
  answers_of_stays (by rw [call, h]) count

/-- A body that does not fit its checksum is refused. -/
theorem next_of_mismatch {body stored rest : Bytes}
    (unread : r.unread.toList = Bytes.ofNat 4 (body.length + 4) ++ (body ++ (stored ++ rest)))
    (large : 17 ≤ body.length) (fits : body.length + 4 < UInt32.size) (four : stored.length = 4)
    (wrong : Bytes.toWord32 stored ≠ crc32 body) :
    r.next = .error (.corruptRecord r.segment.path (Bytes.toWord64 (body.take 8))
      (Bytes.toWord32 stored) (crc32 body)) := by
  rw [next_of_parts unread large fits four, parseFrame, if_neg wrong]
  rfl

end SegmentReader

/-! ## damaged records -/

/-- Where the body of the record behind the given ones starts in their segment. -/
def bodyStart (before : List LogRecord) : Nat := (segmentBytes before).length + 4

/-- The frame of a record among those before and behind it. -/
theorem segmentBytes_frame (before after : List LogRecord) (record : LogRecord) (zeros : Bytes) :
    segmentBytes (before ++ record :: after) ++ zeros =
      (segmentBytes before ++ Bytes.ofNat 4 (record.body.length + 4)) ++
        (record.body ++ (Bytes.ofWord32 (crc32 record.body) ++
          (after.flatMap LogRecord.frame ++ zeros))) := by
  have length : record.body.length + 4 = record.length := by
    rw [LogRecord.length_eq, LogRecord.length_body]
  rw [segmentBytes_append, List.flatMap_cons, LogRecord.frame, length]
  simp only [List.append_assoc]

/-- If up to four bytes in a row have been changed in the body of a record or in its checksum, the two
do not fit each other any more. -/
theorem exists_mismatch {before after : List LogRecord} {record : LogRecord} {zeros damaged : Bytes}
    {place width : Nat} (few : width ≤ 4)
    (changed : Bytes.ChangedWithin place width
      (segmentBytes (before ++ record :: after) ++ zeros) damaged)
    (inside : (bodyStart before ≤ place ∧ place + width ≤ bodyStart before + record.body.length) ∨
      (bodyStart before + record.body.length ≤ place ∧
        place + width ≤ bodyStart before + record.body.length + LogRecord.checksumSize)) :
    ∃ body stored : Bytes, body.length = record.body.length ∧ stored.length = 4 ∧
      Bytes.toWord32 stored ≠ crc32 body ∧
      damaged = (segmentBytes before ++ Bytes.ofNat 4 (body.length + 4)) ++
        (body ++ (stored ++ (after.flatMap LogRecord.frame ++ zeros))) := by
  have start : (segmentBytes before ++ Bytes.ofNat 4 (record.body.length + 4)).length =
      bodyStart before := by
    rw [List.length_append, Bytes.length_ofNat, bodyStart]
  have four : (Bytes.ofWord32 (crc32 record.body)).length = 4 := Bytes.length_ofNat 4 _
  rw [segmentBytes_frame] at changed
  rcases inside with ⟨from_, to_⟩ | ⟨from_, to_⟩
  · -- the checksum is the old one, and the body has another
    obtain ⟨body, eq, within⟩ := changed.exists_middle (start ▸ from_) (start ▸ to_)
    refine ⟨body, _, within.length, four, ?_, within.length ▸ eq⟩
    rw [Bytes.toWord32_ofWord32]
    exact (crc32_ne_of_changedWithin few within).symm
  · -- the body is the old one, and has another checksum than the bytes behind it say
    rw [← List.append_assoc _ record.body] at changed
    obtain ⟨stored, eq, within⟩ := changed.exists_middle
      (by rw [List.length_append, start]; exact from_)
      (by rw [List.length_append, start, four]; exact to_)
    have size : stored.length = 4 := within.length.trans four
    refine ⟨record.body, stored, rfl, size, fun same => ?_, by rw [eq, List.append_assoc]⟩
    apply within.changed
    rw [← same, Bytes.ofWord32_toWord32 size]

/-- **Damage is detected.** Take a segment file of records that the segment admits, with any number
of zeros behind them, and change up to four bytes in a row that are all in the body of one record, or
all in its checksum. The file is opened, the records before that one are handed out as they were, and
from then on every call answers that the record is corrupt. -/
theorem LogSegment.corruption_detected (segment : LogSegment) (tree : FileTree) (content : Content)
    (before after : List LogRecord) (record : LogRecord) (zeros place width : Nat)
    (file : tree.read segment.path = .ok content)
    (admits : ∀ r ∈ before ++ record :: after, r.Framable ∧ segment.contains r.index)
    (few : width ≤ 4)
    (changed : Bytes.ChangedWithin place width
      (segmentBytes (before ++ record :: after) ++ List.replicate zeros 0) content.toList)
    (inside : (bodyStart before ≤ place ∧ place + width ≤ bodyStart before + record.body.length) ∨
      (bodyStart before + record.body.length ≤ place ∧
        place + width ≤ bodyStart before + record.body.length + LogRecord.checksumSize)) :
    ∃ r index stored computed, segment.reader tree = .ok r ∧ stored ≠ computed ∧
      ∀ count, answers SegmentReader.call (before.length + count) r =
        before.map (fun r => .ok (some r)) ++
          List.replicate count (.error (.corruptRecord segment.path index stored computed)) := by
  obtain ⟨body, stored, size, four, wrong, damaged⟩ := exists_mismatch few changed inside
  have framable : record.Framable := (admits record (by simp)).1
  rw [LogRecord.Framable, LogRecord.length_eq] at framable
  rw [LogRecord.length_body] at size
  have header : content.toList = LogRecord.segmentHeader ++
      (before.flatMap LogRecord.frame ++ (Bytes.ofNat 4 (body.length + 4) ++
        (body ++ (stored ++ (after.flatMap LogRecord.frame ++ List.replicate zeros 0))))) := by
    rw [damaged, segmentBytes, List.append_assoc, List.append_assoc]
  have unread : (segment.behindHeader content).unread.toList = _ :=
    segment.unread_behindHeader header
  -- the reader comes to the damaged frame and finds its length as it was
  obtain ⟨r', same, left, more⟩ := SegmentReader.exists_answers_eq unread
    fun r mem => admits r (List.mem_append_left _ mem)
  have refused := SegmentReader.next_of_mismatch left (by omega) (by omega) four wrong
  rw [same] at refused
  refine ⟨segment.behindHeader content, Bytes.toWord64 (body.take 8), Bytes.toWord32 stored,
    crc32 body, reader_of_header file header, wrong, fun count => ?_⟩
  rw [more, SegmentReader.answers_of_error refused]
  rfl

namespace LogSegment

/-- The file of two records, in which the kind of the second has been changed. -/
def damagedContent : Content :=
  .ofList ((segmentBytes twoRecords ++ List.replicate 3 0).set 54 1)

/-- Of two records the first is handed out, and the second, whose kind has been changed, is refused
again and again. -/
theorem corruption_detected_of_two :
    FileTree.read ⟨[(["log_4-5"], .file 0 damagedContent)], 1⟩ ofTwo.path = .ok damagedContent ∧
    (∀ r ∈ twoRecords, r.Framable ∧ ofTwo.contains r.index) ∧
    Bytes.ChangedWithin 54 1 (segmentBytes twoRecords ++ List.replicate 3 0) damagedContent.toList ∧
    bodyStart (twoRecords.take 1) ≤ 54 ∧ 54 + 1 ≤ bodyStart (twoRecords.take 1) + 17 ∧
    ∃ r index stored computed,
      ofTwo.reader ⟨[(["log_4-5"], .file 0 damagedContent)], 1⟩ = .ok r ∧
      answers SegmentReader.call 3 r =
        [.ok (some ⟨4, 1, .configuration, [0xAA]⟩),
          .error (.corruptRecord "log_4-5" index stored computed),
          .error (.corruptRecord "log_4-5" index stored computed)] := by
  have file : FileTree.read ⟨[(["log_4-5"], .file 0 damagedContent)], 1⟩ ofTwo.path =
      .ok damagedContent := by rfl
  have admits : ∀ r ∈ twoRecords, r.Framable ∧ ofTwo.contains r.index := by decide
  have changed : Bytes.ChangedWithin 54 1 (segmentBytes twoRecords ++ List.replicate 3 0)
      damagedContent.toList := by
    rw [damagedContent, Content.toList_ofList]
    exact ⟨List.length_set, fun i outside => List.getElem?_set_ne (by omega), by decide +kernel⟩
  have from_ : bodyStart (twoRecords.take 1) ≤ 54 := by decide +kernel
  have to_ : 54 + 1 ≤ bodyStart (twoRecords.take 1) + 17 := by decide +kernel
  obtain ⟨r, index, stored, computed, opened, -, answered⟩ :=
    corruption_detected ofTwo _ damagedContent [⟨4, 1, .configuration, [0xAA]⟩] []
      ⟨5, 2, .metadata, []⟩ 3 54 1 file admits (by decide) changed (.inl ⟨from_, to_⟩)
  exact ⟨file, admits, changed, from_, to_, r, index, stored, computed, opened, answered 2⟩

end LogSegment

end RaftJournal
