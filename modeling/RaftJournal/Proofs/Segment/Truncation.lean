import RaftJournal.Proofs.Segment.Damage

/-! # Segments that have been cut

A segment file may have been cut inside the frame of a record. The records before that one are handed
out, and what is left of its frame is refused. If less than four bytes are left and they are zero, though,
they cannot be told from the zeros behind the records of an open segment, and the reader comes to its end
as if nothing were missing: that is so exactly if 256 to the number of bytes left divides the length of
the record.

* **`SegmentReader.next_of_cut`**: the answer of a reader before what is left of a frame.
* **`LogSegment.cut_answered`**: so it is for every segment file and every place inside a frame. -/

namespace RaftJournal

namespace Bytes

/-- The first bytes of a number are the number in fewer bytes. -/
theorem take_ofNat {width count : Nat} (h : count ≤ width) (value : Nat) :
    (ofNat width value).take count = ofNat count value := by
  induction count generalizing width value with
  | zero => rw [List.take_zero, ofNat]
  | succ count ih =>
    cases width with
    | zero => exact absurd h (Nat.not_succ_le_zero count)
    | succ width => rw [ofNat, ofNat, List.take_succ_cons, ih (Nat.le_of_succ_le_succ h)]

/-- The bytes of a number are zero if it is a multiple of what so many bytes cannot hold any more. -/
theorem forall_mem_ofNat_iff (width value : Nat) :
    (∀ b ∈ ofNat width value, b = 0) ↔ 256 ^ width ∣ value := by
  induction width generalizing value with
  | zero => simp [ofNat]
  | succ width ih =>
    have low : UInt8.ofNat value = 0 ↔ 256 ∣ value := by
      rw [← UInt8.toNat_inj, UInt8.toNat_ofNat', Nat.dvd_iff_mod_eq_zero]
      rfl
    rw [ofNat, List.forall_mem_cons, ih, low, Nat.pow_succ']
    constructor
    · rintro ⟨divides, rest⟩
      exact (Nat.dvd_div_iff_mul_dvd divides).mp rest
    · intro all
      have divides : 256 ∣ value := Nat.dvd_trans (Nat.dvd_mul_right 256 _) all
      exact ⟨divides, (Nat.dvd_div_iff_mul_dvd divides).mpr all⟩

end Bytes

/-! ## what is left of a frame -/

/-- What a reader says about a frame of which so many bytes are left. -/
def cutMessage (left : Nat) : String :=
  if left < 4 then "truncated record_length" else "truncated record (extends beyond segment data)"

namespace SegmentReader

variable {r : SegmentReader} {record : LogRecord} {left : Nat}

/-- Of a frame that is cut within its length, some first bytes of the length are left. -/
theorem take_frame (short : left ≤ 4) : record.frame.take left = Bytes.ofNat left record.length := by
  rw [LogRecord.frame, List.take_append_of_le_length (by rw [Bytes.length_ofNat]; exact short),
    Bytes.take_ofNat short]

/-- Before what is left of a frame a reader ends if it is less than a length and zero, and otherwise finds
the record cut. -/
theorem next_of_cut (unread : r.unread.toList = record.frame.take left)
    (framable : record.Framable) (missing : left < record.frame.length) :
    r.next = if 256 ^ left ∣ record.length then .ok none
      else .error (.invalidRecordHeader r.segment.path r.offset (cutMessage left)) := by
  have size : r.unread.length = left := by
    rw [← Content.length_toList, unread, List.length_take]
    omega
  rw [next, cutMessage]
  simp only
  by_cases short : left < 4
  · -- there is no whole length, and the zeros decide
    have zero : r.unread.isZero ↔ 256 ^ left ∣ record.length := by
      rw [Content.isZero_iff, unread, take_frame (Nat.le_of_lt short), Bytes.forall_mem_ofNat_iff]
    rw [size, if_pos short, if_pos short]
    by_cases divides : 256 ^ left ∣ record.length
    · rw [if_pos divides, if_pos (zero.mpr divides)]
    · rw [if_neg divides, if_neg (zero.not.mpr divides)]
  · -- the length is there, it is that of the record and reaches beyond what is left
    have announced : Bytes.toNat (r.unread.take 4) = record.length := by
      rw [Content.take_eq, unread, List.take_take, Nat.min_eq_left (by omega),
        take_frame (Nat.le_refl 4), Bytes.toNat_ofNat]
      exact Nat.mod_eq_of_lt framable
    have positive : 0 < record.length := by
      rw [LogRecord.length_eq]
      omega
    have large : record.length < 256 ^ left :=
      calc record.length
          < 256 ^ 4 := framable
        _ ≤ 256 ^ left := Nat.pow_le_pow_right (by decide) (by omega)
    have reaches : left < 4 + record.length := by
      rw [LogRecord.length_frame, LogRecord.overhead_eq] at missing
      rw [LogRecord.length_eq]
      omega
    rw [size, if_neg short, announced, if_neg (by omega),
      if_neg (by rw [LogRecord.length_eq, LogRecord.minimalLength_eq]; omega), if_pos reaches,
      if_neg (Nat.not_dvd_of_pos_of_lt positive large), if_neg short]

end SegmentReader

/-! ## cut files -/

namespace LogSegment

/-- **A cut record is refused, unless it cannot be seen.** Take a segment file of records that the segment
admits and cut it inside the frame of one of them. The file is opened and the records before that one are
handed out as they were. From then on every call answers that the record at that place is truncated; only
if the bytes that are left of its frame are less than a length and zero, which is when 256 to their number
divides the length of the record, every call answers that there is no further record. -/
theorem cut_answered (segment : LogSegment) (tree : FileTree) (content : Content)
    (before after : List LogRecord) (record : LogRecord) (left : Nat)
    (file : tree.read segment.path = .ok content)
    (admits : ∀ r ∈ before ++ record :: after, r.Framable ∧ segment.contains r.index)
    (missing : left < record.frame.length)
    (cut : content.toList =
      (segmentBytes (before ++ record :: after)).take ((segmentBytes before).length + left)) :
    ∃ r, segment.reader tree = .ok r ∧
      ∀ count, answers SegmentReader.call (before.length + count) r =
        before.map (fun r => .ok (some r)) ++ List.replicate count
          (if 256 ^ left ∣ record.length then .ok none
            else .error (.invalidRecordHeader segment.path (segmentBytes before).length
              (cutMessage left))) := by
  have header : content.toList = LogRecord.segmentHeader ++
      (before.flatMap LogRecord.frame ++ record.frame.take left) := by
    rw [cut, segmentBytes_append, List.flatMap_cons, List.take_length_add_append,
      List.take_append_of_le_length (Nat.le_of_lt missing), segmentBytes, List.append_assoc]
  have unread : (segment.behindHeader content).unread.toList = _ :=
    segment.unread_behindHeader header
  refine ⟨segment.behindHeader content, reader_of_header file header, fun count => ?_⟩
  rw [SegmentReader.answers_of_frames unread fun r mem => admits r (List.mem_append_left _ mem)]
  -- the reader has come to the frame that was cut, and stays there
  generalize stands : (segment.behindHeader content).advance
    (before.flatMap LogRecord.frame).length = r
  have offset : r.offset = (segmentBytes before).length := by
    rw [length_segmentBytes, ← stands]
    rfl
  have own : r.segment = segment := by
    rw [← stands]
    rfl
  have here : r.unread.toList = record.frame.take left := by
    rw [← stands]
    show (Content.drop _ _).toList = _
    rw [Content.toList_drop, unread, List.drop_left' rfl]
  have answer := SegmentReader.next_of_cut here (admits record (by simp)).1 missing
  rw [own, offset] at answer
  congr 1
  apply SegmentReader.answers_of_stays
  by_cases zero : 256 ^ left ∣ record.length
  · rw [if_pos zero] at answer ⊢
    rw [SegmentReader.call, answer]
  · rw [if_neg zero] at answer ⊢
    rw [SegmentReader.call, answer]

/-- The file of two records, cut after ten bytes of the frame of the second. -/
def cutContent : Content := .ofList ((segmentBytes twoRecords).take 44)

/-- Of two records the first is handed out, and the second, of which ten bytes are left, is refused again
and again. -/
theorem cut_answered_of_two :
    FileTree.read ⟨[(["log_4-5"], .file 0 cutContent)], 1⟩ ofTwo.path = .ok cutContent ∧
    (∀ r ∈ twoRecords, r.Framable ∧ ofTwo.contains r.index) ∧
    10 < (LogRecord.frame ⟨5, 2, .metadata, []⟩).length ∧
    cutContent.toList =
      (segmentBytes twoRecords).take ((segmentBytes (twoRecords.take 1)).length + 10) ∧
    ∃ r, ofTwo.reader ⟨[(["log_4-5"], .file 0 cutContent)], 1⟩ = .ok r ∧
      answers SegmentReader.call 3 r =
        [.ok (some ⟨4, 1, .configuration, [0xAA]⟩),
          .error (.invalidRecordHeader "log_4-5" 34
            "truncated record (extends beyond segment data)"),
          .error (.invalidRecordHeader "log_4-5" 34
            "truncated record (extends beyond segment data)")] := by
  have file : FileTree.read ⟨[(["log_4-5"], .file 0 cutContent)], 1⟩ ofTwo.path =
      .ok cutContent := by rfl
  have admits : ∀ r ∈ twoRecords, r.Framable ∧ ofTwo.contains r.index := by decide
  have place : (segmentBytes (twoRecords.take 1)).length = 34 := by
    rw [length_segmentBytes]
    rfl
  have missing : 10 < (LogRecord.frame ⟨5, 2, .metadata, []⟩).length := by
    rw [LogRecord.length_frame, LogRecord.overhead_eq]
    decide
  have cut : cutContent.toList =
      (segmentBytes twoRecords).take ((segmentBytes (twoRecords.take 1)).length + 10) := by
    rw [cutContent, Content.toList_ofList, place]
  obtain ⟨r, opened, answered⟩ := cut_answered ofTwo _ cutContent
    [⟨4, 1, .configuration, [0xAA]⟩] [] ⟨5, 2, .metadata, []⟩ 10 file admits missing cut
  refine ⟨file, admits, missing, cut, r, opened, ?_⟩
  have calls := answered 2
  have start : (segmentBytes [⟨4, 1, .configuration, [0xAA]⟩]).length = 34 := place
  rw [if_neg (by decide), start] at calls
  exact calls

/-- A closed segment of one record. -/
def ofOne : LogSegment := ⟨0, some 0, "log_0-0"⟩

/-- Its record, whose length is 256, so that the first byte of its frame is zero. -/
def longRecord : LogRecord := ⟨0, 1, .metadata, List.replicate 235 0⟩

/-- The file of a closed segment of one record, cut after the first byte of its frame, is read to its end
as if it had no record: that byte is zero. -/
theorem cut_unreported_of_one :
    let file : Content := .ofList (LogRecord.segmentHeader ++ [0])
    (longRecord.Framable ∧ ofOne.contains longRecord.index) ∧
    file.toList = (segmentBytes [longRecord]).take ((segmentBytes []).length + 1) ∧
    1 < longRecord.frame.length ∧
    ∃ r, ofOne.reader ⟨[(["log_0-0"], .file 0 file)], 1⟩ = .ok r ∧
      answers SegmentReader.call 2 r = [.ok none, .ok none] := by
  intro file
  have length : longRecord.length = 256 := by
    rw [LogRecord.length_eq, longRecord, List.length_replicate]
  have bytes : file.toList = (segmentBytes [longRecord]).take ((segmentBytes []).length + 1) := by
    have first : longRecord.frame.take 1 = [0] := by
      rw [SegmentReader.take_frame (by decide), length]
      rfl
    have frame : 1 ≤ longRecord.frame.length := by
      rw [LogRecord.length_frame, LogRecord.overhead_eq]
      omega
    rw [Content.toList_ofList, segmentBytes, segmentBytes, List.flatMap_nil, List.append_nil,
      List.flatMap_singleton, List.take_length_add_append, first]
  refine ⟨⟨?_, by decide⟩, bytes, ?_, _, rfl, by decide +kernel⟩
  · rw [LogRecord.Framable, length]
    decide
  · rw [LogRecord.length_frame, LogRecord.overhead_eq]
    omega

end LogSegment

end RaftJournal
