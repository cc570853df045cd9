import RaftJournal.Segment.Reader
import RaftJournal.Stream.Config
import RaftJournal.Stream.Rank

/-! # Streams of records

A **`RecordStream`** reads the segments of a group one after the other and hands out the records of
a range of indices. A segment is opened only when the one before is read out, so a fault in a later
segment shows only when the stream comes to it. The first record past the range ends the stream, as
does the first error; after either there is nothing more. -/

namespace RaftJournal

/-- The next record at or past an index, with the reader after it. -/
def SegmentReader.nextFrom (start : UInt64) (r : SegmentReader) :
    Except JournalError (Option (LogRecord × SegmentReader)) :=
  match _h : r.next with
  | .error e => .error e
  | .ok none => .ok none
  | .ok (some (record, r')) =>
    if record.index < start then r'.nextFrom start else .ok (some (record, r'))
termination_by r.unread.length
decreasing_by exact SegmentReader.unread_lt_of_next _h

theorem SegmentReader.unread_lt_of_nextFrom {start : UInt64} {r r' : SegmentReader}
    {record : LogRecord} (h : r.nextFrom start = .ok (some (record, r'))) :
    r'.unread.length < r.unread.length := by
  fun_induction SegmentReader.nextFrom start r with
  | case1 => simp at h
  | case2 => simp at h
  | case3 r found r₁ hn below ih =>
    have := unread_lt_of_next hn
    have := ih h
    omega
  | case4 r found r₁ hn =>
    cases h
    exact unread_lt_of_next hn

/-- The records of a group in a range of indices. -/
structure RecordStream where
  /-- The range. -/
  config : StreamConfig
  /-- All segments of the stream. -/
  segments : List LogSegment
  /-- The segments that have not been opened. -/
  unopened : List LogSegment
  /-- The segment that is being read. -/
  reader : Option SegmentReader
  /-- The number of segments opened. -/
  segmentsOpened : UInt64
  /-- The number of records handed out. -/
  recordsRead : UInt64
  /-- Whether the stream has ended or failed. -/
  done : Bool
  deriving DecidableEq, Repr

namespace RecordStream

/-- The records of given segments in a range. -/
def ofSegments (segments : List LogSegment) (config : StreamConfig) : RecordStream :=
  ⟨config, segments, segments, none, 0, 0, false⟩

/-- The records of a group in a range; segments that cannot hold one are left out. -/
def ofRoot (tree : FileTree) (root : String) (config : StreamConfig) :
    Except JournalError RecordStream :=
  (listSegments tree root config.group).map fun segments =>
    ofSegments (segments.filter config.meets) config

/-- The counters of the stream; those of batches and entries stay at zero. -/
def stats (s : RecordStream) : StreamStats := ⟨s.segmentsOpened, s.recordsRead, 0, 0, 0⟩

/-- The stream after its end. -/
def finish (s : RecordStream) : RecordStream := { s with reader := none, done := true }

/-- Hands out a record that is not below the range, or ends when it is past the range. -/
def deliver (s : RecordStream) (record : LogRecord) (reader : SegmentReader) :
    Except JournalError (Option LogRecord) × RecordStream :=
  if s.config.isPast record.index then (.ok none, s.finish)
  else (.ok (some record), { s with reader := some reader, recordsRead := tick s.recordsRead })

/-- Goes on with segments not yet opened. -/
def openNext (tree : FileTree) (s : RecordStream) :
    List LogSegment → Except JournalError (Option LogRecord) × RecordStream
  | [] => (.ok none, { s with unopened := [] }.finish)
  | segment :: rest =>
    match segment.reader tree with
    | .error e => (.error e, { s with unopened := segment :: rest }.finish)
    | .ok reader =>
      let s := { s with unopened := rest, segmentsOpened := tick s.segmentsOpened }
      match reader.nextFrom s.config.start with
      | .error e => (.error e, s.finish)
      | .ok none => openNext tree s rest
      | .ok (some (record, reader)) => s.deliver record reader

/-- The next record, nothing at the end, or the first error. -/
def next (tree : FileTree) (s : RecordStream) :
    Except JournalError (Option LogRecord) × RecordStream :=
  if s.done then (.ok none, s)
  else
    match s.reader with
    | none => s.openNext tree s.unopened
    | some reader =>
      match reader.nextFrom s.config.start with
      | .error e => (.error e, s.finish)
      | .ok none => s.openNext tree s.unopened
      | .ok (some (record, reader)) => s.deliver record reader

/-! ## progress -/

/-- What the stream still has. -/
def rank (s : RecordStream) : Rank :=
  ⟨s.unopened.length, (s.reader.map (·.unread.length)).getD 0, 0⟩

theorem rank_deliver (s : RecordStream) (record : LogRecord) (reader : SegmentReader) :
    (s.deliver record reader).2.rank.AtMost ⟨s.unopened.length, reader.unread.length, 0⟩ := by
  unfold deliver
  split
  · simp [finish, rank, Rank.AtMost, Rank.Less]
    omega
  · simp [rank, Rank.AtMost, Rank.Less]

theorem rank_openNext (tree : FileTree) (s : RecordStream) (unopened : List LogSegment) :
    (s.openNext tree unopened).2.rank.AtMost ⟨unopened.length, 0, 0⟩ ∧
      ∀ record, (s.openNext tree unopened).1 = .ok (some record) →
        (s.openNext tree unopened).2.rank.Less ⟨unopened.length, 0, 0⟩ := by
  fun_induction openNext tree s unopened with
  | case1 s => simp [finish, rank, Rank.AtMost]
  | case2 => simp [finish, rank, Rank.AtMost]
  | case3 s segment rest reader hr s' => simp [finish, rank, Rank.AtMost, Rank.Less, s']
  | case4 s segment rest reader hr s' hn ih =>
    refine ⟨.inl (ih.1.trans_less ?_), fun record h => ih.1.trans_less ?_⟩ <;>
      simp [Rank.Less]
  | case5 s segment rest reader hr s' record reader' hn =>
    have := rank_deliver s' record reader'
    refine ⟨.inl (this.trans_less ?_), fun record h => this.trans_less ?_⟩ <;>
      simp [Rank.Less, s']

theorem rank_next (tree : FileTree) (s : RecordStream) :
    (s.next tree).2.rank.AtMost s.rank ∧
      ∀ record, (s.next tree).1 = .ok (some record) → (s.next tree).2.rank.Less s.rank := by
  unfold next
  split
  · exact ⟨.refl _, by simp⟩
  · split
    · rename_i hr
      have := rank_openNext tree s s.unopened
      simpa [rank, hr] using this
    · rename_i reader hr
      have below : Rank.AtMost ⟨s.unopened.length, 0, 0⟩ s.rank := by
        by_cases hz : reader.unread.length = 0
        · exact .inr (by simp [rank, hr, hz])
        · exact .inl (.inr ⟨rfl, .inl (by simp [rank, hr]; omega)⟩)
      split
      · refine ⟨?_, by simp⟩
        exact Rank.AtMost.trans (by simp [finish, rank, Rank.AtMost]) below
      · have := rank_openNext tree s s.unopened
        exact ⟨this.1.trans below, fun record h => (this.2 record h).trans_atMost below⟩
      · rename_i record reader' hn
        have := SegmentReader.unread_lt_of_nextFrom hn
        have less : Rank.Less ⟨s.unopened.length, reader'.unread.length, 0⟩ s.rank :=
          .inr ⟨rfl, .inl (by simpa [rank, hr] using this)⟩
        have := rank_deliver s record reader'
        exact ⟨.inl (this.trans_less less), fun _ _ => this.trans_less less⟩

/-! ## the records one by one -/

/-- The next record or the error, or nothing after either end. -/
def nextItem (tree : FileTree) (s : RecordStream) :
    Option (Except JournalError LogRecord) × RecordStream :=
  match s.next tree with
  | (.ok none, s) => (none, s)
  | (.ok (some record), s) => (some (.ok record), s)
  | (.error e, s) => (some (.error e), s)

/-- All further records and the error that ends them, if one does. -/
def items (tree : FileTree) (s : RecordStream) :
    List (Except JournalError LogRecord) × RecordStream :=
  match _h : s.next tree with
  | (.ok none, s') => ([], s')
  | (.error e, s') => ([.error e], s')
  | (.ok (some record), s') =>
    let (more, s'') := s'.items tree
    (.ok record :: more, s'')
termination_by s.rank
decreasing_by
  have := (rank_next tree s).2 record
  rw [_h] at this
  exact this rfl

end RecordStream

end RaftJournal
