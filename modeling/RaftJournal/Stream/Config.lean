import RaftJournal.Json.Record
import RaftJournal.Segment.Directory

/-! # What a stream reads, and what it counts

A **`StreamConfig`** names a group and a range of indices, from its start up to and without its end.
**`StreamStats`** are the counters of a stream of entries. Counters stop at the largest word
(**`tick`**). -/

namespace RaftJournal

/-- A counter after one more event. -/
def tick (n : UInt64) : UInt64 := if n = 0xFFFFFFFFFFFFFFFF then n else n + 1

theorem toNat_tick (n : UInt64) : (tick n).toNat = min (n.toNat + 1) (UInt64.size - 1) := by
  have := n.toNat_lt
  have size : UInt64.size = 18446744073709551616 := rfl
  unfold tick
  split
  · subst n
    rfl
  · rename_i h
    have hn : n.toNat ≠ UInt64.size - 1 := fun e => h (UInt64.toNat_inj.mp e)
    rw [UInt64.toNat_add, Nat.mod_eq_of_lt (by simp; omega)]
    simp
    omega

/-- Which records a stream reads. -/
structure StreamConfig where
  /-- The group whose segments are read. -/
  group : Uuid
  /-- The first index that is read. -/
  start : UInt64
  /-- The first index past the range, if it ends. -/
  stop : Option UInt64
  deriving DecidableEq, Repr

namespace StreamConfig

/-- All records of the usual group. -/
def default : StreamConfig := ⟨.defaultGroup, 0, none⟩

/-- Whether an index is past the range. -/
def isPast (c : StreamConfig) (index : UInt64) : Bool := c.stop.any (· ≤ index)

/-- Whether an index is in the range. -/
def includes (c : StreamConfig) (index : UInt64) : Bool := c.start ≤ index && !c.isPast index

/-- Whether a segment can hold an index of the range. -/
def meets (c : StreamConfig) (s : LogSegment) : Bool :=
  s.last.all (c.start ≤ ·) && c.stop.all (s.start < ·)

/-- The record of a configuration. -/
def json : Json.Format StreamConfig :=
  (Json.Format.record "StreamConfig"
    (.cons (.required "group_id" .uuid) <|
     .cons (.required "start_index" .word64) <|
     .cons (.nameable "end_index" (.option .word64) none) <|
     .nil)).imap
    (fun (group, start, stop, _) => ⟨group, start, stop⟩)
    fun c => (c.group, c.start, c.stop, ())

end StreamConfig

/-- The counters of a stream of entries. -/
structure StreamStats where
  segmentsOpened : UInt64
  recordsRead : UInt64
  /-- Records read that hold no batch. -/
  recordsSkipped : UInt64
  batchesDecoded : UInt64
  entriesEmitted : UInt64
  deriving DecidableEq, Repr

/-- The record of the counters. -/
def StreamStats.json : Json.Format StreamStats :=
  (Json.Format.record "StreamStats"
    (.cons (.required "segments_opened" .word64) <|
     .cons (.required "records_read" .word64) <|
     .cons (.required "records_skipped" .word64) <|
     .cons (.required "batches_decoded" .word64) <|
     .cons (.required "entries_emitted" .word64) <|
     .nil)).imap
    (fun (opened, read, skipped, decoded, emitted, _) =>
      ⟨opened, read, skipped, decoded, emitted⟩)
    fun s =>
      (s.segmentsOpened, s.recordsRead, s.recordsSkipped, s.batchesDecoded, s.entriesEmitted, ())

end RaftJournal
