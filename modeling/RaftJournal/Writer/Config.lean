import RaftJournal.Json.Record
import RaftJournal.Stream.Disruptor

/-! # What a writer is told, and what it reports

A **`WriterConfig`** says where the records and the entries of a new journal start, how large its
segments and its batches may be, and which term its records have. **`WriterSummary`** is what a writer
has written, **`DisruptionSummary`** what a disruptor drained into a writer has. -/

namespace RaftJournal

/-- How a journal is written. -/
structure WriterConfig where
  /-- The group whose segments are written. -/
  group : Uuid
  /-- The number of bytes of a full segment. -/
  segmentSize : UInt64
  /-- The number of entries of a full batch; 0 counts as 1. -/
  maxBatchEntries : UInt64
  /-- The term of every record. -/
  term : UInt64
  /-- The index of the first record. -/
  startIndex : UInt64
  /-- The sequence number of the first entry. -/
  startSequenceNumber : UInt64
  deriving DecidableEq, Repr

namespace WriterConfig

/-- The usual number of bytes of a full segment, 8 MiB. -/
def defaultSegmentSize : UInt64 := 8 * 1024 * 1024

/-- The usual number of entries of a full batch. -/
def defaultMaxBatchEntries : UInt64 := 64

/-- The usual configuration. -/
def default : WriterConfig :=
  ⟨.defaultGroup, defaultSegmentSize, defaultMaxBatchEntries, 1, 0, 0⟩

/-- The number of buffered entries that makes a batch. -/
def batchLimit (c : WriterConfig) : Nat := max c.maxBatchEntries.toNat 1

/-- The record of a configuration. -/
def json : Json.Format WriterConfig :=
  (Json.Format.record "WriterConfig"
    (.cons (.required "group_id" .uuid) <|
     .cons (.required "segment_size" .size) <|
     .cons (.required "max_batch_entries" .size) <|
     .cons (.required "term" .word64) <|
     .cons (.required "start_index" .word64) <|
     .cons (.required "start_sequence_number" .word64) <|
     .nil)).imap
    (fun (group, segmentSize, maxBatchEntries, term, startIndex, startSequenceNumber, _) =>
      ⟨group, segmentSize, maxBatchEntries, term, startIndex, startSequenceNumber⟩)
    fun c =>
      (c.group, c.segmentSize, c.maxBatchEntries, c.term, c.startIndex, c.startSequenceNumber, ())

end WriterConfig

/-- What a writer has written. -/
structure WriterSummary where
  records : UInt64
  /-- The entries of all batches. -/
  entries : UInt64
  /-- The segments closed. -/
  segments : UInt64
  /-- The index of the last record, if there is one. -/
  lastIndex : Option UInt64
  deriving DecidableEq, Repr

/-- The record of a summary. -/
def WriterSummary.json : Json.Format WriterSummary :=
  (Json.Format.record "WriterSummary"
    (.cons (.required "records" .word64) <|
     .cons (.required "entries" .word64) <|
     .cons (.required "segments" .word64) <|
     .cons (.nameable "last_index" (.option .word64) none) <|
     .nil)).imap
    (fun (records, entries, segments, lastIndex, _) => ⟨records, entries, segments, lastIndex⟩)
    fun s => (s.records, s.entries, s.segments, s.lastIndex, ())

/-- What a disruptor drained into a writer has done. -/
structure DisruptionSummary where
  /-- The entries handed to the writer. -/
  entriesWritten : UInt64
  /-- The counters of the disruptor. -/
  stats : DisruptorStats
  deriving DecidableEq, Repr

/-- The record of a summary. -/
def DisruptionSummary.json : Json.Format DisruptionSummary :=
  (Json.Format.record "DisruptionSummary"
    (.cons (.required "entries_written" .word64) <|
     .cons (.required "stats" DisruptorStats.json) <|
     .nil)).imap
    (fun (entriesWritten, stats, _) => ⟨entriesWritten, stats⟩)
    fun s => (s.entriesWritten, s.stats, ())

end RaftJournal
