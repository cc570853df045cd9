import RaftJournal.Proofs.Segment.Positions
import RaftJournal.Proofs.Stream.Batches

/-! # How often the loops of the streams go round

A call of a stream may pass over records below its range, segments that have nothing more, records of other
kinds and batches without entries before it has an answer. It does so in **turns**
(**`RecordStream.turn`**, **`JournalEntries.turn`**), each of which gives the answer or goes on in a new
state; **`loop`** takes so many turns.

A turn that goes on leaves the answer of the call as it is, and there is less left: a record takes up room
in its file (**`LogSegment.room`**), and a segment that has no more is not opened again. So a number of turns
that can be said in advance is enough (**`exists_loop_eq`**), and the files bound what a stream can hand out
(**`RecordStream.length_le_room`**). **`JournalEntries.loops_return`** puts this together. -/

namespace RaftJournal

/-! ## loops -/

section Loop

variable {σ α : Type} {turn : σ → Option α × σ}

/-- The answer of a loop and the state that it leaves, if one of so many turns gives an answer. -/
def loop (turn : σ → Option α × σ) : (turns : Nat) → σ → Option (α × σ)
  | 0, _ => none
  | turns + 1, s =>
    match turn s with
    | (some answer, s') => some (answer, s')
    | (none, s') => loop turn turns s'

/-- A turn gives the answer that is due, or goes on in a state where it is still due and where the measure
is below the bound. -/
def Progress (result : σ → α × σ) (measure : σ → Nat) (due : α × σ) (bound : Nat) :
    Option α × σ → Prop
  | (some answer, s) => due = (answer, s)
  | (none, s) => result s = due ∧ measure s < bound

/-- A loop all of whose turns make progress returns. -/
theorem exists_loop_eq {result : σ → α × σ} {measure : σ → Nat}
    (progress : ∀ s, Progress result measure (result s) (measure s) (turn s)) (s : σ) :
    ∃ turns ≤ measure s + 1, loop turn turns s = some (result s) := by
  -- on the measure; a turn that gives the answer is the last one
  induction h : measure s using Nat.strongRecOn generalizing s with
  | _ size ih =>
    subst h
    have step := progress s
    cases taken : turn s with
    | mk outcome s' =>
      rw [taken] at step
      cases outcome with
      | some answer =>
        refine ⟨1, Nat.le_add_left _ _, ?_⟩
        rw [loop, taken]
        exact congrArg some step.symm
      | none =>
        obtain ⟨same, less⟩ := step
        obtain ⟨turns, few, returns⟩ := ih _ less s' rfl
        refine ⟨turns + 1, by omega, ?_⟩
        rw [loop, taken, ← same]
        exact returns

end Loop

/-! ## records -/

/-- How many records there is room for in the file of a segment: none if it is missing, or shorter than a
header. -/
def LogSegment.room (tree : FileTree) (segment : LogSegment) : Nat :=
  match tree.read segment.path with
  | .ok content => (content.length - LogRecord.segmentHeaderSize) / LogRecord.overhead
  | .error _ => 0

/-- Behind the header there is the room of the segment. -/
theorem LogSegment.room_of_reader {tree : FileTree} {segment : LogSegment} {r : SegmentReader}
    (opened : segment.reader tree = .ok r) : r.room = segment.room tree := by
  cases file : tree.read segment.path with
  | error fault =>
    rw [reader, file] at opened
    cases opened
  | ok content =>
    obtain ⟨-, left, -⟩ := SegmentReader.At.of_reader file opened
    rw [SegmentReader.room, left, room, file]
    rfl

namespace RecordStream

variable {tree : FileTree} {s : RecordStream} {r r' : SegmentReader} {record record' : LogRecord}

/-- One turn with the open segment: its next record is passed over, ends the stream or is handed out; if
there is none the segment is left. -/
def turnIn (s : RecordStream) (r : SegmentReader) :
    Option (Except JournalError (Option LogRecord)) × RecordStream :=
  match r.next with
  | .error e => (some (.error e), s.finish)
  | .ok none => (none, { s with reader := none })
  | .ok (some (record, r')) =>
    if record.index < s.config.start then (none, { s with reader := some r' })
    else (s.deliver record r').map some id

/-- One turn: with the open segment, or else with the next one, if there is one and it can be opened. -/
def turn (tree : FileTree) (s : RecordStream) :
    Option (Except JournalError (Option LogRecord)) × RecordStream :=
  if s.done then (some (.ok none), s)
  else
    match s.reader with
    | some r => s.turnIn r
    | none =>
      match s.unopened with
      | [] => (some (.ok none), s.finish)
      | segment :: rest =>
        match segment.reader tree with
        | .error e => (some (.error e), s.finish)
        | .ok r => { s with unopened := rest, segmentsOpened := tick s.segmentsOpened }.turnIn r

/-- What a call does that has a segment open. -/
def readOn (tree : FileTree) (s : RecordStream) (r : SegmentReader) :
    Except JournalError (Option LogRecord) × RecordStream :=
  match r.nextFrom s.config.start with
  | .error e => (.error e, s.finish)
  | .ok none => s.openNext tree s.unopened
  | .ok (some (record, r')) => s.deliver record r'

theorem next_of_reader (running : s.done = false) (reading : s.reader = some r) :
    s.next tree = s.readOn tree r := by
  rw [next, if_neg (by rw [running]; exact Bool.false_ne_true), reading]
  rfl

theorem next_of_none (running : s.done = false) (idle : s.reader = none) :
    s.next tree = s.openNext tree s.unopened := by
  rw [next, if_neg (by rw [running]; exact Bool.false_ne_true), idle]

/-- Which segment was open does not matter to a call that opens the next one. -/
theorem openNext_setReader (tree : FileTree) (s : RecordStream) (reader : Option SegmentReader)
    (unopened : List LogSegment) :
    { s with reader }.openNext tree unopened = s.openNext tree unopened := by
  induction unopened generalizing s with
  | nil => rfl
  | cons segment rest ih =>
    rw [openNext, openNext]
    cases segment.reader tree with
    | error e => rfl
    | ok r =>
      simp only
      cases r.nextFrom s.config.start with
      | error e => rfl
      | ok found =>
        cases found with
        | none => exact ih { s with unopened := rest, segmentsOpened := tick s.segmentsOpened }
        | some found => rfl

theorem readOn_setReader (tree : FileTree) (s : RecordStream) (reader : Option SegmentReader)
    (r : SegmentReader) : { s with reader }.readOn tree r = s.readOn tree r := by
  rw [readOn, readOn]
  simp only [openNext_setReader]
  rfl

/-- How many turns there are left at most before one that gives an answer: for each segment one for every
record that there is room for, and one more to leave it. -/
def turnsLeft (tree : FileTree) (s : RecordStream) : Nat :=
  (s.reader.map (·.room + 1)).getD 0 + (s.unopened.map (·.room tree + 1)).sum

/-- A turn with an open segment gives the answer of the call, or takes a record or the segment away. -/
theorem progress_turnIn (tree : FileTree) (s : RecordStream) (r : SegmentReader)
    (running : s.done = false) :
    Progress (next tree) (turnsLeft tree) (s.readOn tree r)
      (r.room + 1 + (s.unopened.map (·.room tree + 1)).sum) (s.turnIn r) := by
  rw [turnIn, readOn, SegmentReader.nextFrom.eq_def]
  cases found : r.next with
  | error e => rfl
  | ok found' =>
    cases found' with
    | none =>
      have idle : next tree { s with reader := none } = _ := next_of_none running rfl
      refine ⟨idle.trans (openNext_setReader tree s none _), ?_⟩
      exact Nat.add_lt_add_right (Nat.succ_pos _) _
    | some found' =>
      obtain ⟨record, r'⟩ := found'
      simp only
      by_cases below : record.index < s.config.start
      · rw [if_pos below, if_pos below]
        have reading : next tree { s with reader := some r' } = _ := next_of_reader running rfl
        have less := SegmentReader.room_lt_of_next found
        exact ⟨reading.trans (readOn_setReader tree s _ r'),
          Nat.add_lt_add_right (Nat.succ_lt_succ less) _⟩
      · rw [if_neg below, if_neg below]
        rfl

/-- A turn gives the answer of the call, or takes a record or a segment away. -/
theorem progress_turn (tree : FileTree) (s : RecordStream) :
    Progress (next tree) (turnsLeft tree) (s.next tree) (s.turnsLeft tree) (s.turn tree) := by
  obtain ⟨config, segments, unopened, reader, opened, read, done⟩ := s
  cases done with
  | true => rfl
  | false =>
    cases reader with
    | some r =>
      rw [next_of_reader (r := r) rfl rfl]
      exact progress_turnIn tree ⟨config, segments, unopened, some r, opened, read, false⟩ r rfl
    | none =>
      rw [next_of_none rfl rfl]
      cases unopened with
      | nil => rfl
      | cons segment rest =>
        rw [turn, openNext, turnsLeft]
        simp only [Bool.false_eq_true, if_false]
        cases reading : segment.reader tree with
        | error e => rfl
        | ok r =>
          have progress := progress_turnIn tree
            ⟨config, segments, rest, none, tick opened, read, false⟩ r rfl
          rw [LogSegment.room_of_reader reading] at progress
          rw [List.map_cons, List.sum_cons, Option.map_none, Option.getD_none, Nat.zero_add]
          exact progress

/-- Each call returns after a number of turns that can be said in advance. -/
theorem exists_loop_next (tree : FileTree) (s : RecordStream) :
    ∃ turns ≤ s.turnsLeft tree + 1, loop (turn tree) turns s = some (s.next tree) :=
  exists_loop_eq (progress_turn tree) s

/-! ## what the files bound -/

/-- How many records there is room for in what has not been read. -/
def room (tree : FileTree) (s : RecordStream) : Nat :=
  (s.reader.map (·.room)).getD 0 + (s.unopened.map (·.room tree)).sum

/-- A record that is found behind others that are passed over takes up room as well. -/
theorem room_lt_of_nextFrom {start : UInt64} (h : r.nextFrom start = .ok (some (record, r'))) :
    r'.room < r.room := by
  fun_induction SegmentReader.nextFrom start r with
  | case1 => cases h
  | case2 => cases h
  | case3 r passed r₁ found below ih => exact Nat.lt_trans (ih h) (SegmentReader.room_lt_of_next found)
  | case4 r record r₁ found =>
    cases h
    exact SegmentReader.room_lt_of_next found

theorem room_deliver (h : (s.deliver record r).1 = .ok (some record')) :
    (s.deliver record r).2.room tree = r.room + (s.unopened.map (·.room tree)).sum := by
  rw [deliver] at h ⊢
  split at h
  · cases h
  · rename_i within
    rw [if_neg within]
    rfl

theorem room_openNext (unopened : List LogSegment)
    (h : (s.openNext tree unopened).1 = .ok (some record)) :
    (s.openNext tree unopened).2.room tree < (unopened.map (·.room tree)).sum := by
  fun_induction openNext tree s unopened with
  | case1 => cases h
  | case2 => cases h
  | case3 => cases h
  | case4 s segment rest r opened s' ended ih =>
    rw [List.map_cons, List.sum_cons]
    exact Nat.lt_add_left _ (ih h)
  | case5 s segment rest r opened s' found r' reads =>
    rw [room_deliver h, List.map_cons, List.sum_cons, ← LogSegment.room_of_reader opened]
    exact Nat.add_lt_add_right (room_lt_of_nextFrom reads) _

/-- Every record that is handed out takes up room. -/
theorem room_next (h : (s.next tree).1 = .ok (some record)) :
    (s.next tree).2.room tree < s.room tree := by
  by_cases ended : s.done = true
  · rw [next, if_pos ended] at h
    cases h
  have running : s.done = false := by rwa [Bool.not_eq_true] at ended
  cases reading : s.reader with
  | none =>
    have before : s.room tree = (s.unopened.map (·.room tree)).sum := by
      rw [room, reading, Option.map_none, Option.getD_none, Nat.zero_add]
    rw [next_of_none running reading] at h ⊢
    exact before ▸ room_openNext s.unopened h
  | some r =>
    have before : s.room tree = r.room + (s.unopened.map (·.room tree)).sum := by
      rw [room, reading, Option.map_some, Option.getD_some]
    rw [next_of_reader running reading, readOn] at h ⊢
    rw [before]
    cases found : r.nextFrom s.config.start with
    | error e =>
      rw [found] at h
      cases h
    | ok found' =>
      rw [found] at h
      cases found' with
      | none => exact Nat.lt_add_left _ (room_openNext s.unopened h)
      | some found' =>
        simp only at h ⊢
        rw [room_deliver h]
        exact Nat.add_lt_add_right (room_lt_of_nextFrom found) _

/-- A stream hands out no more records than there is room for. -/
theorem length_le_room {records : List LogRecord} {fault : Option JournalError}
    (gives : Gives (next tree) records fault s) : records.length ≤ s.room tree := by
  induction records generalizing s with
  | nil => exact Nat.zero_le _
  | cons record records ih =>
    obtain ⟨handed, later⟩ := gives_cons_iff.mp gives
    exact Nat.succ_le_of_lt (Nat.lt_of_le_of_lt (ih later) (room_next handed))

end RecordStream

/-! ## entries -/

namespace JournalEntries

/-- One turn: the next entry of the batch, or else the next record, which ends the source, is passed over
or has another batch. -/
def turn (tree : FileTree) (s : JournalEntries) : Option Pulled × JournalEntries :=
  if s.done then (some (.ok none), s)
  else
    match s.batch with
    | entry :: rest =>
      (some (.ok (some entry)), { s with batch := rest, entriesEmitted := tick s.entriesEmitted })
    | [] =>
      match s.records.next tree with
      | (.error e, records) => (some (.error e), { s with records }.finish)
      | (.ok none, records) => (some (.ok none), { s with records }.finish)
      | (.ok (some record), records) =>
        if record.kind = .stateMachineData then
          match s.codec.decode record.payload with
          | .error fault =>
            (some (.error (.deserialization record.index fault.message)), { s with records }.finish)
          | .ok batch =>
            (none, { s with
              records, batch := batch.entries, batchesDecoded := tick s.batchesDecoded })
        else (none, { s with records, recordsSkipped := tick s.recordsSkipped })

/-- A turn gives the answer of the call, or takes a record away. -/
theorem progress_turn (tree : FileTree) (s : JournalEntries) :
    Progress (next tree) (·.records.room tree) (s.next tree) (s.records.room tree) (s.turn tree) := by
  rw [turn, next.eq_def]
  by_cases ended : s.done = true
  · rw [if_pos ended, if_pos ended]
    rfl
  rw [if_neg ended, if_neg ended]
  cases batch : s.batch with
  | cons entry rest => rfl
  | nil =>
    simp only
    cases call : s.records.next tree with
    | mk answer records =>
      cases answer with
      | error e => rfl
      | ok found =>
        cases found with
        | none => rfl
        | some record =>
          have less : records.room tree < s.records.room tree := by
            have handed : (s.records.next tree).1 = .ok (some record) := by rw [call]
            have less := RecordStream.room_next handed
            rwa [call] at less
          simp only
          by_cases machine : record.kind = .stateMachineData
          · rw [if_pos machine, if_pos machine]
            cases s.codec.decode record.payload with
            | error fault => rfl
            | ok batch => exact ⟨rfl, less⟩
          · rw [if_neg machine, if_neg machine]
            exact ⟨rfl, less⟩

/-- **The loops of the streams return, and the files bound what there is to hand out.** Whatever the
segments, the contents of their files, the range and the codec are, and whatever has been handed out:

* a call of a record stream gives its answer after at most one turn for every record that there is room for
  in what has not been read, one for every segment that has not been left, and one more;
* a call of a source of entries gives its answer after at most one turn, each with one call of its record
  stream, for every record that there is room for, and one more;
* a record stream that is drained hands out at most as many records as there is room for in the files of
  its segments, and then comes to its end or an error. -/
theorem loops_return (tree : FileTree) :
    (∀ s : RecordStream, ∃ turns ≤ s.turnsLeft tree + 1,
      loop (RecordStream.turn tree) turns s = some (s.next tree)) ∧
    (∀ s : JournalEntries, ∃ turns ≤ s.records.room tree + 1,
      loop (turn tree) turns s = some (s.next tree)) ∧
    ∀ segments config, ∃ (records : List LogRecord) (fault : Option JournalError),
      Gives (RecordStream.next tree) records fault (.ofSegments segments config) ∧
        records.length ≤ (segments.map (·.room tree)).sum := by
  refine ⟨RecordStream.exists_loop_next tree, exists_loop_eq (progress_turn tree),
    fun segments config => ?_⟩
  obtain ⟨records, fault, gives⟩ := (RecordStream.ofSegments segments config).exists_gives tree
  refine ⟨records, fault, gives, Nat.le_trans (RecordStream.length_le_room gives) ?_⟩
  exact Nat.le_of_eq (Nat.zero_add _)

end JournalEntries

end RaftJournal
