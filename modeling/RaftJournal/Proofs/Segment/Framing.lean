import RaftJournal.Proofs.Answers
import RaftJournal.Segment.Reader

/-! # Frames and what is read from them

A segment reader takes frames off the front of the bytes that it has not read. The two halves of that
are inverse to each other:

* **`SegmentReader.next_of_frame`**: before the frame of a record that belongs to the segment, the
  reader hands out the record and goes past the frame; one that does not belong it refuses
  (**`SegmentReader.next_of_outside`**);
* **`SegmentReader.frame_of_next`**: a reader that hands out a record stood before the frame of that
  record, so there is no second way to write one. -/

namespace RaftJournal

namespace LogRecord

theorem length_eq (record : LogRecord) : record.length = record.payload.length + 21 := rfl

end LogRecord

namespace SegmentReader

variable {r r' : SegmentReader} {record : LogRecord}

/-! ## bodies -/

/-- The body of a record is read back, or refused if its index does not belong to the segment. -/
theorem parseBody_body_eq (r : SegmentReader) (record : LogRecord) :
    r.parseBody record.body =
      if r.segment.contains record.index then .ok record
      else .error (.indexOutOfRange r.segment.path record.index r.segment.start r.segment.last) := by
  have index : record.body.take 8 = Bytes.ofWord64 record.index := by
    rw [LogRecord.body, List.take_left' (by simp [Bytes.ofWord64])]
  have rest : record.body.drop 8 =
      Bytes.ofWord64 record.term ++ (record.kind.byte :: record.payload) := by
    rw [LogRecord.body, List.drop_left' (by simp [Bytes.ofWord64])]
  have term : (record.body.drop 8).take 8 = Bytes.ofWord64 record.term := by
    rw [rest, List.take_left' (by simp [Bytes.ofWord64])]
  have tail : record.body.drop 16 = record.kind.byte :: record.payload := by
    rw [← List.drop_drop (i := 8) (j := 8), rest, List.drop_left' (by simp [Bytes.ofWord64])]
  rw [parseBody]
  simp only [tail, index, term, RecordKind.ofByte?_byte, Bytes.toWord64_ofWord64]

/-- The body of a record is read back, if its index belongs to the segment. -/
theorem parseBody_body (h : r.segment.contains record.index) :
    r.parseBody record.body = .ok record := by
  rw [parseBody_body_eq, if_pos h]

/-- Only the body of a record is read as that record, and only where its index belongs. -/
theorem body_of_parseBody {body : Bytes} (size : 17 ≤ body.length)
    (h : r.parseBody body = .ok record) :
    body = record.body ∧ r.segment.contains record.index := by
  rw [parseBody] at h
  split at h
  · cases h
  · rename_i kind payload tail
    split at h
    · cases h
    · rename_i found byte
      split at h
      · rename_i inside
        cases h
        refine ⟨?_, inside⟩
        have split : body = body.take 8 ++ ((body.drop 8).take 8 ++ body.drop 16) := by
          rw [show body.drop 16 = (body.drop 8).drop 8 by rw [List.drop_drop],
            List.take_append_drop, List.take_append_drop]
        rw [LogRecord.body, Bytes.ofWord64_toWord64 (by simp; omega),
          Bytes.ofWord64_toWord64 (by simp; omega), ← RecordKind.ofByte?_eq_some_iff.mp byte, ← tail]
        exact split
      · cases h

/-- A body is read only with its checksum. -/
theorem parseFrame_eq_ok_iff {body : Bytes} {stored : UInt32} :
    r.parseFrame body stored = .ok record ↔ stored = crc32 body ∧ r.parseBody body = .ok record := by
  rw [parseFrame]
  by_cases h : stored = crc32 body
  · rw [if_pos h]
    exact ⟨fun parsed => ⟨h, parsed⟩, fun parsed => parsed.2⟩
  · rw [if_neg h]
    exact iff_of_false (by rintro ⟨⟩) fun parsed => h parsed.1

/-! ## frames -/

/-- Before a length, a body of that length and four more bytes, a reader takes these for the checksum
of the body and goes past all of them, if they are. -/
theorem next_of_parts {body stored rest : Bytes}
    (h : r.unread.toList = Bytes.ofNat 4 (body.length + 4) ++ (body ++ (stored ++ rest)))
    (large : 17 ≤ body.length) (fits : body.length + 4 < UInt32.size) (four : stored.length = 4) :
    r.next = (r.parseFrame body (Bytes.toWord32 stored)).map fun record =>
      some (record, r.advance (body.length + 8)) := by
  -- what the reader cuts off in turn: the length, the body and the checksum
  have total : r.unread.length = body.length + 8 + rest.length := by
    rw [← Content.length_toList, h]
    simp only [List.length_append, Bytes.length_ofNat]
    omega
  have announced : Bytes.toNat (r.unread.take 4) = body.length + 4 := by
    rw [Content.take_eq, h, List.take_left' (by simp), Bytes.toNat_ofNat]
    exact Nat.mod_eq_of_lt fits
  have after : r.unread.toList.drop 4 = body ++ (stored ++ rest) := by
    rw [h, List.drop_left' (by simp)]
  have front : (r.unread.drop 4).take body.length = body := by
    rw [Content.take_eq, Content.toList_drop, after, List.take_left' rfl]
  have behind : (r.unread.drop (4 + body.length)).take 4 = stored := by
    rw [Content.take_eq, Content.toList_drop, ← List.drop_drop, after, List.drop_left' rfl,
      List.take_left' four]
  rw [next]
  simp only
  rw [if_neg (by omega), announced, if_neg (by omega),
    if_neg (by rw [LogRecord.minimalLength_eq]; omega), if_neg (by omega),
    LogRecord.checksumSize_eq, Nat.add_sub_cancel, front, behind,
    show 4 + (body.length + 4) = body.length + 8 by omega]

/-- Before the frame of a record, a reader takes what it has of it for the record. -/
theorem next_of_frame_eq {rest : Bytes} (h : r.unread.toList = record.frame ++ rest)
    (framable : record.Framable) :
    r.next = (r.parseBody record.body).map fun record' =>
      some (record', r.advance record.frame.length) := by
  have length : record.length = record.body.length + 4 := by
    rw [LogRecord.length_eq, LogRecord.length_body]
  have size : record.frame.length = record.body.length + 8 := by
    rw [LogRecord.length_frame, LogRecord.length_body, LogRecord.overhead_eq]
  rw [LogRecord.frame, length, List.append_assoc, List.append_assoc] at h
  rw [next_of_parts h (by rw [LogRecord.length_body]; omega) (length ▸ framable)
    (by simp [Bytes.ofWord32]), Bytes.toWord32_ofWord32, parseFrame, if_pos rfl, size]

/-- Before the frame of a record that belongs to the segment, a reader hands out the record and goes
past the frame. -/
theorem next_of_frame {rest : Bytes} (h : r.unread.toList = record.frame ++ rest)
    (framable : record.Framable) (inside : r.segment.contains record.index) :
    r.next = .ok (some (record, r.advance record.frame.length)) := by
  rw [next_of_frame_eq h framable, parseBody_body inside]
  rfl

/-- Before the frame of a record that does not belong to the segment, a reader says so. -/
theorem next_of_outside {rest : Bytes} (h : r.unread.toList = record.frame ++ rest)
    (framable : record.Framable) (outside : ¬ r.segment.contains record.index) :
    r.next = .error
      (.indexOutOfRange r.segment.path record.index r.segment.start r.segment.last) := by
  rw [next_of_frame_eq h framable, parseBody_body_eq, if_neg outside]
  rfl

/-- The checks that a record has passed when it is handed out. -/
theorem checks_of_next (h : r.next = .ok (some (record, r'))) :
    ∃ length, length = Bytes.toNat (r.unread.take 4) ∧ 21 ≤ length ∧
      4 + length ≤ r.unread.length ∧ r' = r.advance (4 + length) ∧
      r.parseFrame ((r.unread.drop 4).take (length - 4))
        (Bytes.toWord32 ((r.unread.drop (4 + (length - 4))).take 4)) = .ok record := by
  rw [next] at h
  simp only at h
  split at h
  · split at h <;> cases h
  · split at h
    · cases h
    · split at h
      · cases h
      · split at h
        · cases h
        · rename_i _ _ large inside
          rw [LogRecord.minimalLength_eq] at large
          rw [LogRecord.checksumSize_eq] at h
          cases parsed : r.parseFrame
              ((r.unread.drop 4).take (Bytes.toNat (r.unread.take 4) - 4))
              (Bytes.toWord32
                ((r.unread.drop (4 + (Bytes.toNat (r.unread.take 4) - 4))).take 4)) with
          | error e =>
            rw [parsed] at h
            cases h
          | ok found =>
            rw [parsed] at h
            cases h
            exact ⟨_, rfl, by omega, by omega, rfl, parsed⟩

/-- The four parts into which a run of bytes is cut for a frame of the given length. -/
theorem eq_cut (bytes : Bytes) {length : Nat} (h : 4 ≤ length) :
    bytes = bytes.take 4 ++ ((bytes.drop 4).take (length - 4) ++
      ((bytes.drop (4 + (length - 4))).take 4 ++ bytes.drop (4 + length))) := by
  have size : 4 + (length - 4) + 4 = 4 + length := by omega
  have checksum := List.take_append_drop 4 (bytes.drop (4 + (length - 4)))
  rw [List.drop_drop, size] at checksum
  rw [checksum, ← List.drop_drop, List.take_append_drop, List.take_append_drop]

/-- A reader that hands out a record stood before the frame of that record and has gone past it. -/
theorem frame_of_next (h : r.next = .ok (some (record, r'))) :
    r' = r.advance record.frame.length ∧ r.unread.toList = record.frame ++ r'.unread.toList ∧
      record.Framable ∧ r.segment.contains record.index := by
  obtain ⟨length, announced, large, inside, rfl, parsed⟩ := checks_of_next h
  obtain ⟨stored, parsed⟩ := parseFrame_eq_ok_iff.mp parsed
  rw [← Content.length_toList] at inside
  rw [Content.take_eq, Content.toList_drop] at stored parsed
  rw [Content.take_eq, Content.toList_drop] at stored
  rw [Content.take_eq] at announced
  generalize unread : r.unread.toList = bytes at announced inside stored parsed
  have bodySize : ((bytes.drop 4).take (length - 4)).length = length - 4 := by
    rw [List.length_take, List.length_drop]
    omega
  have crcSize : ((bytes.drop (4 + (length - 4))).take 4).length = 4 := by
    rw [List.length_take, List.length_drop]
    omega
  obtain ⟨body, belongs⟩ := body_of_parseBody (by omega) parsed
  rw [body] at stored bodySize
  -- the body is that of the record, so the length announced is the one that is written for it
  have full : record.length = length := by
    rw [LogRecord.length_body] at bodySize
    rw [LogRecord.length_eq]
    omega
  have frameSize : record.frame.length = 4 + length := by
    rw [LogRecord.length_frame, LogRecord.overhead_eq, ← full, LogRecord.length_eq]
    omega
  -- a length in four bytes has one way to be written, and so has a checksum
  have front : bytes.take 4 = Bytes.ofNat 4 record.length := by
    have := Bytes.ofNat_toNat (bytes.take 4)
    rw [List.length_take, Nat.min_eq_left (by omega), ← announced, ← full] at this
    exact this.symm
  have checksum : (bytes.drop (4 + (length - 4))).take 4 = Bytes.ofWord32 (crc32 record.body) := by
    rw [← stored, Bytes.ofWord32_toWord32 crcSize]
  refine ⟨by rw [frameSize], ?_, ?_, belongs⟩
  · calc bytes
        = bytes.take 4 ++ ((bytes.drop 4).take (length - 4) ++
            ((bytes.drop (4 + (length - 4))).take 4 ++ bytes.drop (4 + length))) :=
          eq_cut bytes (by omega)
      _ = record.frame ++ bytes.drop (4 + length) := by
          rw [front, body, checksum, LogRecord.frame, List.append_assoc, List.append_assoc]
      _ = record.frame ++ (r.advance (4 + length)).unread.toList := by
          rw [advance, Content.toList_drop, unread]
  · have bound := Bytes.toNat_lt (bytes.take 4)
    rw [List.length_take, Nat.min_eq_left (by omega), ← announced, ← full] at bound
    exact bound

/-- Before zero bytes, however many, a reader hands out nothing. -/
theorem next_of_zeros (h : ∀ b ∈ r.unread.toList, b = 0) : r.next = .ok none := by
  have zero (bytes : Bytes) (h : ∀ b ∈ bytes, b = 0) : Bytes.toNat bytes = 0 := by
    induction bytes with
    | nil => rfl
    | cons b rest ih =>
      rw [Bytes.toNat, h b List.mem_cons_self, ih fun b hb => h b (List.mem_cons_of_mem _ hb)]
      rfl
  have announced : Bytes.toNat (r.unread.take 4) = 0 := by
    rw [Content.take_eq]
    exact zero _ fun b hb => h b (List.mem_of_mem_take hb)
  rw [next]
  simp only
  -- a length of zero ends the segment, and so does a tail too short for a length if it is zero
  by_cases short : r.unread.length < 4
  · rw [if_pos short, if_pos ((Content.isZero_iff _).mpr h)]
  · rw [if_neg short, announced, if_pos rfl]

end SegmentReader

end RaftJournal
