import RaftJournal.Segment.Directory
import RaftJournal.Segment.Record

/-! # Reading a segment

A **`SegmentReader`** hands out the records of one segment file. It ends at a length of zero, which
is how the unwritten part of an open segment begins, or with the file. A record is checked in this
order: its length, its extent, its checksum, its kind, and whether its index belongs to the segment.

A reader that ends or fails stays where it is, so the next call gives the same answer; each record
takes it forward (**`SegmentReader.unread_lt_of_next`**). -/

namespace RaftJournal

/-- A segment being read. -/
structure SegmentReader where
  /-- The segment. -/
  segment : LogSegment
  /-- The number of bytes read. -/
  offset : Nat
  /-- The bytes not yet read. -/
  unread : Content
  /-- Whether the records have been handed out up to an error. -/
  failed : Bool
  deriving DecidableEq, Repr

namespace LogSegment

/-- Opens a segment: its file is empty, which only an open segment's may be, or starts with the
header of segments. -/
def reader (tree : FileTree) (s : LogSegment) : Except JournalError SegmentReader :=
  match tree.read s.path with
  | .error fault => .error (.ofFault s.path fault)
  | .ok content =>
    if content.length = 0 then
      if s.isOpen then .ok ⟨s, 0, content, false⟩
      else .error (.invalidSegmentHeader s.path "closed segment is empty")
    else if content.length < LogRecord.segmentHeaderSize then
      .error (.invalidSegmentHeader s.path s!"file too short ({content.length} bytes)")
    else if content.take LogRecord.segmentHeaderSize = LogRecord.segmentHeader then
      .ok ⟨s, LogRecord.segmentHeaderSize, content.drop LogRecord.segmentHeaderSize, false⟩
    else .error (.invalidSegmentHeader s.path "bad magic")

end LogSegment

namespace SegmentReader

/-- The record whose body is given. -/
def parseBody (r : SegmentReader) (body : Bytes) : Except JournalError LogRecord :=
  let index := Bytes.toWord64 (body.take 8)
  match body.drop 16 with
  | [] => .error (.invalidRecordHeader r.segment.path r.offset "record body too short")
  | kind :: payload =>
    match RecordKind.ofByte? kind with
    | none => .error (.unknownRecordKind r.segment.path r.offset kind)
    | some kind =>
      if r.segment.contains index then
        .ok ⟨index, Bytes.toWord64 ((body.drop 8).take 8), kind, payload⟩
      else .error (.indexOutOfRange r.segment.path index r.segment.start r.segment.last)

/-- The record whose body and checksum are given. -/
def parseFrame (r : SegmentReader) (body : Bytes) (stored : UInt32) :
    Except JournalError LogRecord :=
  if stored = crc32 body then r.parseBody body
  else .error
    (.corruptRecord r.segment.path (Bytes.toWord64 (body.take 8)) stored (crc32 body))

/-- The reader after so many more bytes. -/
def advance (r : SegmentReader) (count : Nat) : SegmentReader :=
  { r with offset := r.offset + count, unread := r.unread.drop count }

/-- The next record, with the reader after it. -/
def next (r : SegmentReader) : Except JournalError (Option (LogRecord × SegmentReader)) :=
  let fault := JournalError.invalidRecordHeader r.segment.path r.offset
  if r.unread.length < 4 then
    if r.unread.isZero then .ok none else .error (fault "truncated record_length")
  else
    let length := Bytes.toNat (r.unread.take 4)
    if length = 0 then .ok none
    else if length < LogRecord.minimalLength then
      .error (fault s!"record_length {length} smaller than header")
    else if r.unread.length < 4 + length then
      .error (fault "truncated record (extends beyond segment data)")
    else
      let bodyLength := length - LogRecord.checksumSize
      let body := (r.unread.drop 4).take bodyLength
      let stored := Bytes.toWord32 ((r.unread.drop (4 + bodyLength)).take LogRecord.checksumSize)
      (r.parseFrame body stored).map fun record => some (record, r.advance (4 + length))

/-- A record takes the reader forward by more than its length, and never past the end. -/
theorem unread_lt_of_next {r r' : SegmentReader} {record : LogRecord}
    (h : r.next = .ok (some (record, r'))) : r'.unread.length < r.unread.length := by
  unfold next at h
  simp only at h
  split at h
  · split at h <;> simp at h
  · split at h
    · simp at h
    · split at h
      · simp at h
      · split at h
        · simp at h
        · rename_i short zero small beyond
          generalize r.parseFrame _ _ = parsed at h
          cases parsed with
          | error e => simp [Except.map] at h
          | ok found =>
            simp only [Except.map, Except.ok.injEq, Option.some.injEq, Prod.mk.injEq] at h
            obtain ⟨_, rfl⟩ := h
            simp only [advance, Content.length_drop]
            omega

/-! ## the records one by one -/

/-- The next record or the first error, after which there is nothing more. -/
def nextItem (r : SegmentReader) : Option (Except JournalError LogRecord) × SegmentReader :=
  if r.failed then (none, r)
  else
    match r.next with
    | .ok none => (none, r)
    | .ok (some (record, r)) => (some (.ok record), r)
    | .error e => (some (.error e), { r with failed := true })

/-- All further records and the error that ends them, if one does. -/
def items (r : SegmentReader) : List (Except JournalError LogRecord) × SegmentReader :=
  if r.failed then ([], r)
  else
    match _h : r.next with
    | .ok none => ([], r)
    | .ok (some (record, r')) =>
      let (more, r) := r'.items
      (.ok record :: more, r)
    | .error e => ([.error e], { r with failed := true })
termination_by r.unread.length
decreasing_by exact unread_lt_of_next _h

end SegmentReader

end RaftJournal
