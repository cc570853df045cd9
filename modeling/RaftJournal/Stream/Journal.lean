import RaftJournal.Entry.Codec
import RaftJournal.Stream.Record
import RaftJournal.Stream.Source

/-! # The entries of a journal

A **`JournalEntries`** source hands out the entries of the batches in the state-machine records of a
record stream, batch by batch and in order; other records are skipped. The record stream's error, or
the first payload that is no batch, is given once, and after it or after the end there is nothing
more. -/

namespace RaftJournal

/-- The entries of the batches of a record stream. -/
structure JournalEntries where
  /-- The records. -/
  records : RecordStream
  /-- How the batches are stored. -/
  codec : Codec
  /-- The entries of the current batch that have not been handed out. -/
  batch : List Entry
  /-- The number of records that hold no batch. -/
  recordsSkipped : UInt64
  /-- The number of batches. -/
  batchesDecoded : UInt64
  /-- The number of entries handed out. -/
  entriesEmitted : UInt64
  /-- Whether the source has ended or failed. -/
  done : Bool
  deriving DecidableEq

namespace JournalEntries

/-- The entries of a record stream. -/
def ofRecords (records : RecordStream) (codec : Codec) : JournalEntries :=
  ⟨records, codec, [], 0, 0, 0, false⟩

/-- The entries of a group in a range of record indices. -/
def ofRoot (tree : FileTree) (root : String) (config : StreamConfig) (codec : Codec) :
    Except JournalError JournalEntries :=
  (RecordStream.ofRoot tree root config).map fun records => ofRecords records codec

/-- The counters of the source, those of its records among them. -/
def stats (s : JournalEntries) : StreamStats :=
  ⟨s.records.segmentsOpened, s.records.recordsRead, s.recordsSkipped, s.batchesDecoded,
    s.entriesEmitted⟩

/-- The source after its end or an error. -/
def finish (s : JournalEntries) : JournalEntries := { s with batch := [], done := true }

/-- The next entry, nothing at the end, or the first error. -/
def next (tree : FileTree) (s : JournalEntries) : Pulled × JournalEntries :=
  if s.done then (.ok none, s)
  else
    match s.batch with
    | entry :: rest =>
      (.ok (some entry), { s with batch := rest, entriesEmitted := tick s.entriesEmitted })
    | [] =>
      match _h : s.records.next tree with
      | (.error e, records) => (.error e, { s with records }.finish)
      | (.ok none, records) => (.ok none, { s with records }.finish)
      | (.ok (some record), records) =>
        if record.kind = .stateMachineData then
          match s.codec.decode record.payload with
          | .error fault =>
            (.error (.deserialization record.index fault.message), { s with records }.finish)
          | .ok batch =>
            next tree
              { s with
                records, batch := batch.entries, batchesDecoded := tick s.batchesDecoded }
        else next tree { s with records, recordsSkipped := tick s.recordsSkipped }
termination_by s.records.rank
decreasing_by
  all_goals
    have := (RecordStream.rank_next tree s.records).2 record
    rw [_h] at this
    exact this rfl

/-- What the source still has. -/
def rank (s : JournalEntries) : Rank := s.records.rank.withEntries s.batch.length

theorem rank_next (tree : FileTree) (s : JournalEntries) :
    (s.next tree).2.rank.AtMost s.rank ∧
      ∀ entry, (s.next tree).1 = .ok (some entry) → (s.next tree).2.rank.Less s.rank := by
  have ended {s : JournalEntries} {records : RecordStream}
      (h : records.rank.AtMost s.records.rank) :
      ({ s with records }.finish).rank.AtMost s.rank := by
    exact h.withEntries (by simp [finish])
  have goesOn (s s' : JournalEntries) (h : s'.records.rank.Less s.records.rank)
      (hb : s'.records.rank.entries = 0) (hb' : s.records.rank.entries = 0) :
      s'.rank.Less s.rank := by
    rcases h with h | ⟨h, h' | ⟨h', h''⟩⟩
    · exact .inl h
    · exact .inr ⟨h, .inl h'⟩
    · omega
  fun_induction next tree s with
  | case1 s hd => exact ⟨.refl _, by simp⟩
  | case2 s hd entry rest hb =>
    have : Rank.Less { s with batch := rest, entriesEmitted := tick s.entriesEmitted }.rank
        s.rank :=
      .inr ⟨rfl, .inr ⟨rfl, by simp [rank, Rank.withEntries, hb]⟩⟩
    exact ⟨.inl this, fun _ _ => this⟩
  | case3 s hd hb e records hn =>
    have := (RecordStream.rank_next tree s.records).1
    rw [hn] at this
    exact ⟨ended this, by simp⟩
  | case4 s hd hb records hn =>
    have := (RecordStream.rank_next tree s.records).1
    rw [hn] at this
    exact ⟨ended this, by simp⟩
  | case5 s hd hb record records hn hk fault hf =>
    have := (RecordStream.rank_next tree s.records).1
    rw [hn] at this
    exact ⟨ended this, by simp⟩
  | case6 s hd hb record records hn hk batch hf ih =>
    have := (RecordStream.rank_next tree s.records).2 record
    rw [hn] at this
    have less := goesOn s
      ({ s with
        records, batch := batch.entries, batchesDecoded := tick s.batchesDecoded })
      (this rfl) rfl rfl
    exact ⟨.inl (ih.1.trans_less less), fun entry h => ih.1.trans_less less⟩
  | case7 s hd hb record records hn hk ih =>
    have := (RecordStream.rank_next tree s.records).2 record
    rw [hn] at this
    have less := goesOn s
      ({ s with records, recordsSkipped := tick s.recordsSkipped }) (this rfl) rfl rfl
    exact ⟨.inl (ih.1.trans_less less), fun entry h => ih.1.trans_less less⟩

instance : EntrySource JournalEntries where
  next := next
  rank := rank
  rank_next tree s := (s.rank_next tree).1
  rank_next_some tree s := (s.rank_next tree).2

end JournalEntries

end RaftJournal
