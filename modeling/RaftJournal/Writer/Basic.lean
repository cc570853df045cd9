import RaftJournal.Entry.Codec
import RaftJournal.Segment.Record
import RaftJournal.Writer.Config

/-! # Writing a journal

A **`Writer`** appends records to the segments of a group. Its open segment is a file of the full
segment size, zero after the records; when a record does not fit, the segment is closed, that is cut
to its records and renamed for their range, and the record starts the next one. An open segment
therefore always has a record.

Entries are stamped with sequence numbers and buffered until they make a batch. A batch leaves the
buffer before it is appended, so what becomes of a batch that cannot be appended is not decided by a
later call.

A writer works on the files of its session: its operations are **`WriterM`** actions on a **`Desk`**,
the writer with the files, and an operation that fails leaves both as they are at that point. -/

namespace RaftJournal

/-- A counter after so many more events. -/
def tickBy (n : UInt64) (count : Nat) : UInt64 :=
  if n.toNat + count < UInt64.size then UInt64.ofNat (n.toNat + count) else 0xFFFFFFFFFFFFFFFF

/-- The segment that a writer appends to. -/
structure OpenSegment where
  /-- Where the file was made. -/
  path : String
  /-- The file. -/
  handle : FileTree.Handle
  /-- The number of bytes of the file. -/
  capacity : Nat
  /-- The header and the records. -/
  written : Bytes
  /-- The index of the first record. -/
  start : UInt64
  /-- The index of the last record. -/
  last : UInt64
  deriving DecidableEq, Repr

namespace OpenSegment

/-- The number of bytes that records can still take. -/
def remaining (s : OpenSegment) : Nat := s.capacity - s.written.length

/-- The bytes of the file. -/
def content (s : OpenSegment) : Content := ⟨s.written, s.remaining⟩

/-- The segment with one more record. -/
def append (s : OpenSegment) (record : LogRecord) : OpenSegment :=
  { s with written := s.written ++ record.frame, last := record.index }

end OpenSegment

/-- A writer of a journal. -/
structure Writer where
  /-- The directory of the group. -/
  dir : String
  config : WriterConfig
  codec : Codec
  /-- The open segment. -/
  current : Option OpenSegment
  /-- The index of the next record. -/
  nextIndex : UInt64
  /-- The sequence number of the next entry. -/
  nextSequenceNumber : UInt64
  /-- The entries stamped and not yet appended. -/
  pending : List Entry
  summary : WriterSummary
  deriving DecidableEq

/-- A writer with the files that it works on. -/
structure Desk where
  writer : Writer
  tree : FileTree
  deriving DecidableEq

/-- An operation of a writer. -/
abbrev WriterM := EStateM JournalError Desk

namespace Writer

/-- Starts a journal in a group that has no segments yet, making its directory if need be. -/
def create (tree : FileTree) (root : String) (config : WriterConfig) (codec : Codec) :
    Except JournalError Writer × FileTree :=
  let dir := groupDirectory root config.group
  match tree.makeDirectories dir with
  | (.error fault, tree) => (.error (.ofFault dir fault), tree)
  | (.ok (), tree) =>
    if segmentsIn tree dir = [] then
      (.ok ⟨dir, config, codec, none, config.startIndex, config.startSequenceNumber, [],
        ⟨0, 0, 0, none⟩⟩, tree)
    else (.error (.segmentsAlreadyExist dir), tree)

/-- The record that the writer appends next with the given kind and payload. -/
def record (w : Writer) (kind : RecordKind) (payload : Bytes) : LogRecord :=
  ⟨w.nextIndex, w.config.term, kind, payload⟩

/-- The number of bytes that records can take in an empty segment. -/
def emptyRoom (w : Writer) : Nat := w.config.segmentSize.toNat - LogRecord.segmentHeaderSize

/-- Does something to the files, as part of the work on a path. -/
def onFiles (path : String) (act : FileTree → Except FileFault FileTree) : WriterM Unit := do
  match act (← get).tree with
  | .ok tree => modify fun desk => { desk with tree }
  | .error fault => throw (.ofFault path fault)

/-- Replaces the open segment. -/
def setCurrent (segment : Option OpenSegment) : WriterM Unit :=
  modify fun desk => { desk with writer := { desk.writer with current := segment } }

/-! ## segments -/

/-- Closes the open segment, if there is one. -/
def roll : WriterM Unit := do
  match (← get).writer.current with
  | none => pure ()
  | some segment =>
    -- there is no open segment from here on, even if the system refuses what follows
    setCurrent none
    onFiles segment.path (·.resize segment.path segment.written.length)
    let target := Path.join (← get).writer.dir (SegmentName.closedName segment.start segment.last)
    onFiles segment.path (·.rename segment.path target)
    modify fun desk =>
      let summary := { desk.writer.summary with segments := tick desk.writer.summary.segments }
      { desk with writer := { desk.writer with summary } }

/-- Makes the open segment for its first record. -/
def openSegment (first : LogRecord) : WriterM OpenSegment := do
  let w := (← get).writer
  let path := Path.join w.dir (SegmentName.openName first.index)
  match (← get).tree.create path with
  | .error fault => throw (.ofFault path fault)
  | .ok (handle, tree) =>
    modify fun desk => { desk with tree }
    -- the file is there by now, and stays empty if its length is refused
    if let .error fault := FileTree.checkLength w.config.segmentSize.toNat then
      throw (.ofFault path fault)
    pure ⟨path, handle, w.config.segmentSize.toNat, LogRecord.segmentHeader ++ first.frame,
      first.index, first.index⟩

/-- Closes the open segment if a record of the given size does not fit. -/
def rollIfFull (size : Nat) : WriterM Unit := do
  match (← get).writer.current with
  | none => pure ()
  | some segment => if segment.remaining < size then roll else pure ()

/-- Puts a record into the open segment, or into a new one if there is none. -/
def place (record : LogRecord) : WriterM Unit := do
  let segment ← match (← get).writer.current with
    | some segment => pure (segment.append record)
    | none => openSegment record
  modify fun desk =>
    { writer := { desk.writer with current := some segment }
      tree := desk.tree.store segment.handle segment.content }

/-- Counts a record that has been placed. -/
def count (record : LogRecord) : WriterM Unit :=
  modify fun desk =>
    let w := desk.writer
    let summary := { w.summary with
      records := tick w.summary.records, lastIndex := some record.index }
    { desk with writer := { w with nextIndex := tick w.nextIndex, summary } }

/-! ## records and entries -/

/-- Appends a record and gives its index. -/
def appendRecord (kind : RecordKind) (payload : Bytes) : WriterM UInt64 := do
  let w := (← get).writer
  let record := w.record kind payload
  -- what is refused for its size is refused before any file is touched
  if ¬ record.Framable then throw (.serialization "record size overflow")
  if w.emptyRoom < record.frame.length then
    throw (.entryTooLarge record.frame.length w.config.segmentSize)
  rollIfFull record.frame.length
  place record
  count record
  pure record.index

/-- Appends the record of a batch and gives its index. -/
def appendEncoded (batch : Batch) : WriterM UInt64 := do
  let index ← appendRecord .stateMachineData ((← get).writer.codec.encode batch)
  modify fun desk =>
    let summary := { desk.writer.summary with
      entries := tickBy desk.writer.summary.entries batch.entries.length }
    { desk with writer := { desk.writer with summary } }
  pure index

/-- Appends the buffered entries as a batch, if there are any. -/
def flush : WriterM Unit := do
  match (← get).writer.pending with
  | [] => pure ()
  | pending =>
    -- the entries are out of the buffer even if the append fails
    modify fun desk => { desk with writer := { desk.writer with pending := [] } }
    let _ ← appendEncoded ⟨pending⟩

/-- Appends a batch as it is, after the buffered entries, and gives its index. -/
def appendBatch (batch : Batch) : WriterM UInt64 := do
  flush
  appendEncoded batch

/-- Stamps an entry and buffers it. -/
def buffer (entry : Entry) : WriterM Unit :=
  modify fun desk =>
    let w := desk.writer
    { desk with
      writer := { w with
        pending := w.pending ++ [entry.stamp w.nextSequenceNumber]
        nextSequenceNumber := tick w.nextSequenceNumber } }

/-- Writes an entry: it is stamped and buffered, and a full buffer is flushed. -/
def writeEntry (entry : Entry) : WriterM Unit := do
  buffer entry
  let w := (← get).writer
  if w.config.batchLimit ≤ w.pending.length then flush

/-- Appends what is buffered, closes the open segment and reports what has been written. -/
def finish : WriterM WriterSummary := do
  flush
  roll
  pure (← get).writer.summary

end Writer

/-! ## draining a disruptor -/

namespace Disruptor

variable {σ : Type} [EntrySource σ]

/-- Writes every entry of a disruptor and flushes the writer; `written` entries are before. -/
def drainInto (d : Disruptor σ) (desk : Desk) (written : UInt64) :
    Except JournalError DisruptionSummary × Disruptor σ × Desk :=
  match _h : EntrySource.next desk.tree d with
  | (.error e, d') => (.error e, d', desk)
  | (.ok none, d') =>
    match Writer.flush.run desk with
    | .error e after => (.error e, d', after)
    | .ok _ after => (.ok ⟨written, d'.stats⟩, d', after)
  | (.ok (some entry), d') =>
    match (Writer.writeEntry entry).run desk with
    | .error e after => (.error e, d', after)
    | .ok _ after => drainInto d' after (written + 1)
termination_by EntrySource.rank d
decreasing_by
  have := EntrySource.rank_next_some desk.tree d entry
  rw [_h] at this
  exact this rfl

/-- Writes every entry of a disruptor and flushes the writer. -/
def disruptInto (d : Disruptor σ) (desk : Desk) :
    Except JournalError DisruptionSummary × Disruptor σ × Desk :=
  d.drainInto desk 0

end Disruptor

end RaftJournal
