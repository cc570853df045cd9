import RaftJournal.Proofs.Counters
import RaftJournal.Proofs.Stream.Trace

/-! # The range of a record stream

What a stream selects from the trace of its segments is said here without following the stream
(**`StreamConfig.select_eq`**): of the records that are not below the range
(**`StreamConfig.reached`**), those before the first one past it. If there is such a one
(**`StreamConfig.stopsIn`**), it hides the fault of the trace.

A stream opens a segment only for a call that finds no record in the segments before.
**`StreamConfig.opened`** counts the segments that so many calls open, and the counters of a stream show
that number and the number of the records handed out (**`RecordStream.gives_reached`**). -/

namespace RaftJournal

namespace StreamConfig

/-- The records of a trace that are not below the range. -/
def reached (c : StreamConfig) (t : Trace) : List LogRecord :=
  t.records.filter fun record => c.start ≤ record.index

/-- Whether a trace has a record past the range, which ends a stream. -/
def stopsIn (c : StreamConfig) (t : Trace) : Bool :=
  (c.reached t).any fun record => c.isPast record.index

/-- The number of segments that so many calls open. A segment is opened when a call finds no record in
those before, and none after one that has ended the stream, by an error or by a record past the range. -/
def opened (c : StreamConfig) (tree : FileTree) : (calls : Nat) → List LogSegment → Nat
  | 0, _ => 0
  | _ + 1, [] => 0
  | calls + 1, segment :: rest =>
    match segment.reader tree with
    | .error _ => 0
    | .ok r =>
      if r.trace.fault.isSome ∨ c.stopsIn r.trace then 1
      else 1 + c.opened tree (calls + 1 - (c.reached r.trace).length) rest

variable (c : StreamConfig)

/-! ## selecting at once -/

/-- A record before the first index is not reached. -/
theorem reached_cons_below {record : LogRecord} (h : record.index < c.start) (t : Trace) :
    c.reached (.cons record t) = c.reached t := by
  simp [reached, Trace.cons, h]

/-- Any other record is. -/
theorem reached_cons {record : LogRecord} (h : ¬ record.index < c.start) (t : Trace) :
    c.reached (.cons record t) = record :: c.reached t := by
  simp [reached, Trace.cons, UInt64.not_lt.mp h]

/-- A stream selects the records of its range up to the first one past it, and that one hides the
fault. -/
theorem select_eq (t : Trace) :
    c.select t =
      ⟨(c.reached t).takeWhile fun record => !c.isPast record.index,
        if c.stopsIn t then none else t.fault⟩ := by
  obtain ⟨records, fault⟩ := t
  induction records with
  | nil => rfl
  | cons record rest ih =>
    show c.select (.cons record ⟨rest, fault⟩) = _
    have fault_eq : (Trace.mk (record :: rest) fault).fault = (Trace.mk rest fault).fault := rfl
    by_cases below : record.index < c.start
    · rw [select_cons_below c below, ih, stopsIn, stopsIn, fault_eq]
      have same := reached_cons_below c below ⟨rest, fault⟩
      rw [Trace.cons] at same
      rw [same]
    · have same := reached_cons c below ⟨rest, fault⟩
      rw [Trace.cons] at same
      by_cases past : c.isPast record.index
      · rw [select_cons_past c below past, stopsIn, same]
        simp [past, Trace.empty]
      · rw [select_cons_within c below past, ih, stopsIn, stopsIn, same, fault_eq]
        simp [past, Trace.cons]

/-! ## segments that are opened -/

/-- The number of segments opened by so many calls, while one with such a trace is being read. -/
def openedAfter (tree : FileTree) (t : Trace) (calls : Nat) (rest : List LogSegment) : Nat :=
  if t.fault.isSome ∨ c.stopsIn t then 0
  else c.opened tree (calls - (c.reached t).length) rest

@[simp] theorem opened_zero (tree : FileTree) (segments : List LogSegment) :
    c.opened tree 0 segments = 0 := by
  cases segments <;> rfl

@[simp] theorem opened_nil (tree : FileTree) (calls : Nat) : c.opened tree calls [] = 0 := by
  cases calls <;> rfl

/-- A call that comes to a segment opens it, if it can. -/
theorem opened_cons (tree : FileTree) (calls : Nat) (segment : LogSegment) (rest : List LogSegment) :
    c.opened tree (calls + 1) (segment :: rest) =
      match segment.reader tree with
      | .error _ => 0
      | .ok r => 1 + c.openedAfter tree r.trace (calls + 1) rest := by
  rw [opened]
  cases segment.reader tree with
  | error e => rfl
  | ok r =>
    simp only [openedAfter]
    split <;> rfl

theorem openedAfter_ofFault (tree : FileTree) (e : JournalError) (calls : Nat)
    (rest : List LogSegment) : c.openedAfter tree (.ofFault e) calls rest = 0 := by
  simp [openedAfter, Trace.ofFault]

theorem openedAfter_empty (tree : FileTree) (calls : Nat) (rest : List LogSegment) :
    c.openedAfter tree .empty calls rest = c.opened tree calls rest := by
  simp [openedAfter, Trace.empty, stopsIn, reached]

theorem openedAfter_cons_below {record : LogRecord} (h : record.index < c.start) (tree : FileTree)
    (t : Trace) (calls : Nat) (rest : List LogSegment) :
    c.openedAfter tree (.cons record t) calls rest = c.openedAfter tree t calls rest := by
  simp only [openedAfter, stopsIn, reached_cons_below c h]
  rfl

theorem openedAfter_cons_past {record : LogRecord} (h : ¬ record.index < c.start)
    (past : c.isPast record.index) (tree : FileTree) (t : Trace) (calls : Nat)
    (rest : List LogSegment) : c.openedAfter tree (.cons record t) calls rest = 0 := by
  simp [openedAfter, stopsIn, reached_cons c h, past]

/-- A record that is handed out answers one of the calls. -/
theorem openedAfter_cons_within {record : LogRecord} (h : ¬ record.index < c.start)
    (within : ¬ c.isPast record.index) (tree : FileTree) (t : Trace) (calls : Nat)
    (rest : List LogSegment) :
    c.openedAfter tree (.cons record t) (calls + 1) rest = c.openedAfter tree t calls rest := by
  have one (n : Nat) : calls + 1 - (n + 1) = calls - n := by omega
  simp only [openedAfter, stopsIn, reached_cons c h, List.any_cons, within, Bool.false_or,
    List.length_cons, one]
  rfl

end StreamConfig

namespace RecordStream

variable {tree : FileTree} {s : RecordStream}

/-! ## counting one call -/

/-- The number of segments that a stream still opens for so many calls. -/
def toOpen (tree : FileTree) (s : RecordStream) (calls : Nat) : Nat :=
  if s.done then 0
  else
    match s.reader with
    | none => s.config.opened tree calls s.unopened
    | some r => s.config.openedAfter tree r.trace calls s.unopened

/-- The counters of a stream after one call: it counts the record that is handed out, and as many
segments as so many calls more were due to open from the start of this one and no longer are. -/
structure Tallied (tree : FileTree) (s : RecordStream) (due : Nat → Nat)
    (result : Except JournalError (Option LogRecord) × RecordStream) : Prop where
  read : ∀ events, Counted s.recordsRead events →
    Counted result.2.recordsRead (events + (delivered [result.1]).length)
  opened : ∃ more, (∀ events, Counted s.segmentsOpened events →
      Counted result.2.segmentsOpened (events + more)) ∧
    ∀ calls, due (calls + 1) = more + result.2.toOpen tree calls

/-- A call that ends the stream counts nothing, if nothing more was due to be opened. -/
theorem tallied_finish {due : Nat → Nat} {answer : Except JournalError (Option LogRecord)}
    (unopened : List LogSegment) (none : delivered [answer] = [])
    (idle : ∀ calls, due (calls + 1) = 0) :
    Tallied tree s due (answer, { s with unopened }.finish) := by
  refine ⟨fun events counted => ?_, 0, fun events counted => counted, fun calls => ?_⟩
  · rw [none]
    exact counted
  · rw [idle, toOpen, finish, if_pos rfl]

/-- A record that is handed out is counted, and its reader stays open; one past the range ends the
stream. -/
theorem tallied_deliver {record : LogRecord} {r : SegmentReader} (running : s.done = false)
    (above : ¬ record.index < s.config.start) :
    Tallied tree s
      (fun calls => s.config.openedAfter tree (.cons record r.trace) calls s.unopened)
      (s.deliver record r) := by
  rw [deliver]
  by_cases past : s.config.isPast record.index
  · rw [if_pos past]
    exact tallied_finish s.unopened rfl fun calls =>
      StreamConfig.openedAfter_cons_past _ above past _ _ _ _
  · rw [if_neg past]
    refine ⟨fun events counted => counted.tick, 0, fun events counted => counted, fun calls => ?_⟩
    show s.config.openedAfter tree _ (calls + 1) s.unopened = _
    rw [StreamConfig.openedAfter_cons_within _ above past, toOpen, running,
      if_neg Bool.false_ne_true, Nat.zero_add]

/-- What the next record at or past the start of a range means for the segments after it. -/
theorem openedAfter_of_nextFrom (tree : FileTree) (c : StreamConfig) (r : SegmentReader) (calls : Nat)
    (rest : List LogSegment) :
    match r.nextFrom c.start with
    | .error _ => c.openedAfter tree r.trace calls rest = 0
    | .ok none => c.openedAfter tree r.trace calls rest = c.opened tree calls rest
    | .ok (some (record, r')) =>
      c.openedAfter tree r.trace calls rest =
        c.openedAfter tree (.cons record r'.trace) calls rest := by
  -- records below the range are passed over within the call and answer none
  fun_induction SegmentReader.nextFrom c.start r with
  | case1 r e h =>
    rw [SegmentReader.trace_of_error h]
    exact c.openedAfter_ofFault tree e calls rest
  | case2 r h =>
    rw [SegmentReader.trace_of_none h]
    exact c.openedAfter_empty tree calls rest
  | case3 r record r' h below ih =>
    rw [SegmentReader.trace_of_some h, c.openedAfter_cons_below below]
    exact ih
  | case4 r record r' h above =>
    rw [SegmentReader.trace_of_some h]

/-- A call that reads on from a reader, in its three cases: its error ends the stream, a record that it
finds is delivered, and where it finds none the segments after it are still to be opened. -/
theorem tallied_of_nextFrom {r : SegmentReader}
    {result : Except JournalError (Option LogRecord) × RecordStream} (running : s.done = false)
    (fails : ∀ e, r.nextFrom s.config.start = .error e → result = (.error e, s.finish))
    (ends : r.nextFrom s.config.start = .ok none →
      Tallied tree s (fun calls => s.config.opened tree calls s.unopened) result)
    (finds : ∀ record r', r.nextFrom s.config.start = .ok (some (record, r')) →
      result = s.deliver record r') :
    Tallied tree s (fun calls => s.config.openedAfter tree r.trace calls s.unopened) result := by
  have next := fun calls => openedAfter_of_nextFrom tree s.config r calls s.unopened
  cases found : r.nextFrom s.config.start with
  | error e =>
    simp only [found] at next
    rw [fails e found]
    exact tallied_finish s.unopened rfl fun calls => next (calls + 1)
  | ok found' =>
    cases found' with
    | none =>
      simp only [found] at next
      simp only [next]
      exact ends found
    | some found' =>
      obtain ⟨record, r'⟩ := found'
      simp only [found] at next
      simp only [next]
      rw [finds record r' found]
      have above := select_of_nextFrom s.config r .empty
      rw [found] at above
      exact tallied_deliver running above.1

/-- What is counted once a segment has been opened is counted besides that segment. -/
theorem Tallied.opening {due' : Nat → Nat} (due : Nat → Nat) (rest : List LogSegment)
    {result : Except JournalError (Option LogRecord) × RecordStream}
    (h : Tallied tree { s with unopened := rest, segmentsOpened := tick s.segmentsOpened } due result)
    (one : ∀ calls, due' (calls + 1) = 1 + due (calls + 1)) : Tallied tree s due' result := by
  obtain ⟨read, more, counted, left⟩ := h
  refine ⟨read, 1 + more, fun events opened => ?_, fun calls => ?_⟩
  · rw [← Nat.add_assoc]
    exact counted (events + 1) opened.tick
  · rw [one, left, Nat.add_assoc]

/-- Going on with segments not yet opened counts those that it opens. -/
theorem tallied_openNext (unopened : List LogSegment) (running : s.done = false) :
    Tallied tree s (fun calls => s.config.opened tree calls unopened)
      (s.openNext tree unopened) := by
  -- on the segments: one that has nothing in the range is opened and passed over within the call
  induction unopened generalizing s with
  | nil =>
    exact tallied_finish [] rfl fun calls => s.config.opened_nil tree (calls + 1)
  | cons segment rest ih =>
    rw [openNext]
    cases can : segment.reader tree with
    | error e =>
      refine tallied_finish (segment :: rest) rfl fun calls => ?_
      rw [StreamConfig.opened_cons, can]
    | ok r =>
      refine Tallied.opening (fun calls => s.config.openedAfter tree r.trace calls rest) rest ?_
        fun calls => ?_
      · refine tallied_of_nextFrom (r := r) (s := { s with
          unopened := rest, segmentsOpened := tick s.segmentsOpened }) running ?_ ?_ ?_
        · intro e found
          simp only at found
          simp only [found]
        · intro found
          simp only at found
          simp only [found]
          exact ih running
        · intro record r' found
          simp only at found
          simp only [found]
      · rw [StreamConfig.opened_cons, can]

/-- A call counts the record that it hands out and the segments that it opens. -/
theorem tallied_next (tree : FileTree) (s : RecordStream) :
    Tallied tree s (s.toOpen tree) (s.next tree) := by
  rw [next]
  by_cases ended : s.done = true
  · rw [if_pos ended]
    refine ⟨fun events counted => counted, 0, fun events counted => counted, fun calls => ?_⟩
    rw [toOpen, toOpen, if_pos ended, if_pos ended]
  · have running : s.done = false := by rwa [Bool.not_eq_true] at ended
    have due : s.toOpen tree = fun calls =>
        match s.reader with
        | none => s.config.opened tree calls s.unopened
        | some r => s.config.openedAfter tree r.trace calls s.unopened := by
      funext calls
      rw [toOpen, if_neg ended]
    rw [if_neg ended, due]
    cases reading : s.reader with
    | none => exact tallied_openNext s.unopened running
    | some r =>
      refine tallied_of_nextFrom running ?_ ?_ ?_
      · intro e found
        simp only [found]
      · intro found
        simp only [found]
        exact tallied_openNext s.unopened running
      · intro record r' found
        simp only [found]

/-! ## whole runs -/

/-- After so many calls the counters show the records handed out and the segments opened for them. -/
theorem counted_stateAfter (tree : FileTree) (calls : Nat) {read opened : Nat}
    (hr : Counted s.recordsRead read) (ho : Counted s.segmentsOpened opened) :
    Counted (stateAfter (next tree) calls s).recordsRead
        (read + (delivered (answers (next tree) calls s)).length) ∧
      Counted (stateAfter (next tree) calls s).segmentsOpened (opened + s.toOpen tree calls) := by
  -- on the calls; what a call opens is no longer to be opened afterwards
  induction calls generalizing s read opened with
  | zero =>
    refine ⟨hr, ?_⟩
    have idle : s.toOpen tree 0 = 0 := by
      unfold toOpen
      split
      · rfl
      · split
        · exact s.config.opened_zero tree _
        · simp [StreamConfig.openedAfter]
    rw [idle]
    exact ho
  | succ calls ih =>
    obtain ⟨read', more, opened', due⟩ := tallied_next tree s
    obtain ⟨hr', ho'⟩ := ih (read' read hr) (opened' opened ho)
    rw [answers, stateAfter, delivered_cons, List.length_append, due, ← Nat.add_assoc,
      ← Nat.add_assoc]
    exact ⟨hr', ho'⟩

/-- **A record stream in terms of its trace.** Over any segments, with any range, a stream hands out
the records of the trace that are not below the range and come before the first one past it. If there
is such a one the stream then ends, and otherwise it gives the fault of the trace once, if there is
one; after that there is nothing more. At every point its counters show the records handed out, and the
segments that the calls made so far have opened. -/
theorem gives_reached (tree : FileTree) (segments : List LogSegment) (config : StreamConfig) :
    let trace := traceOf tree segments
    let stream := ofSegments segments config
    Gives (next tree)
        ((config.reached trace).takeWhile fun record => !config.isPast record.index)
        (if config.stopsIn trace then none else trace.fault) stream ∧
      ∀ calls,
        Counted (stateAfter (next tree) calls stream).stats.recordsRead
            (delivered (answers (next tree) calls stream)).length ∧
          Counted (stateAfter (next tree) calls stream).stats.segmentsOpened
            (config.opened tree calls segments) := by
  intro trace stream
  constructor
  · have gives := gives_select tree segments config
    rw [StreamConfig.select_eq] at gives
    exact gives
  · intro calls
    have counted := counted_stateAfter (s := stream) tree calls counted_zero counted_zero
    rwa [Nat.zero_add, Nat.zero_add] at counted

end RecordStream

end RaftJournal
