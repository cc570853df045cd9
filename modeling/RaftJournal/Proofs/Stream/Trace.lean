import RaftJournal.Proofs.Segment.Reading
import RaftJournal.Stream.Record

/-! # What a record stream gives

Reading the segments one after the other up to the first error gives their **`Trace`**: records, and
perhaps a fault. A stream selects from it (**`StreamConfig.select`**): records below the range are left
out, and the first one past it ends the stream, so that neither later records nor the fault are seen.

**`RecordStream.gives_select`** is that description of a stream; **`StreamConfig.select_all`** says that
the range of all indices selects everything. The trace of a file of records that its segment admits is
**`LogSegment.exists_trace_of_file`**. -/

namespace RaftJournal

/-- Records, and the error that comes after them, if one does. -/
structure Trace where
  records : List LogRecord
  fault : Option JournalError
  deriving DecidableEq

namespace Trace

/-- Nothing at all. -/
def empty : Trace := ⟨[], none⟩

/-- An error before any record. -/
def ofFault (e : JournalError) : Trace := ⟨[], some e⟩

/-- A record in front. -/
def cons (record : LogRecord) (t : Trace) : Trace := ⟨record :: t.records, t.fault⟩

/-- One trace after another; an error in the first hides the second. -/
def followedBy (t u : Trace) : Trace :=
  match t.fault with
  | some _ => t
  | none => ⟨t.records ++ u.records, u.fault⟩

@[simp] theorem empty_followedBy (t : Trace) : empty.followedBy t = t := rfl

@[simp] theorem cons_followedBy (record : LogRecord) (t u : Trace) :
    (cons record t).followedBy u = cons record (t.followedBy u) := by
  obtain ⟨records, fault⟩ := t
  cases fault <;> rfl

end Trace

/-- All that a reader still hands out. -/
def SegmentReader.trace (r : SegmentReader) : Trace :=
  match _h : r.next with
  | .error e => .ofFault e
  | .ok none => .empty
  | .ok (some (record, r')) => .cons record r'.trace
termination_by r.unread.length
decreasing_by exact SegmentReader.unread_lt_of_next _h

namespace SegmentReader

variable {r r' : SegmentReader}

/-- A reader that fails has nothing more to hand out. -/
theorem trace_of_error {e : JournalError} (h : r.next = .error e) : r.trace = .ofFault e := by
  rw [trace]
  split <;> rename_i h' <;> rw [h] at h' <;> cases h'
  rfl

/-- Nor has one that has come to the end. -/
theorem trace_of_none (h : r.next = .ok none) : r.trace = .empty := by
  rw [trace]
  split <;> rename_i h' <;> rw [h] at h' <;> cases h'

/-- A record that is read comes before what is read behind it. -/
theorem trace_of_some {record : LogRecord} (h : r.next = .ok (some (record, r'))) :
    r.trace = .cons record r'.trace := by
  rw [trace]
  split <;> rename_i h' <;> rw [h] at h' <;> cases h'
  rfl

/-- Before the frames of records that its segment admits, a reader still hands out the records, and then
what comes behind the frames. -/
theorem exists_trace_eq {records : List LogRecord} {rest : Bytes}
    (unread : r.unread.toList = records.flatMap LogRecord.frame ++ rest)
    (admits : ∀ record ∈ records, r.segment.Admits record) :
    ∃ r' : SegmentReader, r'.segment = r.segment ∧ r'.unread.toList = rest ∧
      r.trace = ⟨records ++ r'.trace.records, r'.trace.fault⟩ := by
  -- on the records; each frame that is taken off leaves the frames of the others
  induction records generalizing r with
  | nil => exact ⟨r, rfl, unread, rfl⟩
  | cons record records ih =>
    rw [List.flatMap_cons, List.append_assoc] at unread
    obtain ⟨framable, inside⟩ := admits record List.mem_cons_self
    have after : (r.advance record.frame.length).unread.toList =
        records.flatMap LogRecord.frame ++ rest := by
      rw [advance, Content.toList_drop, unread, List.drop_left' rfl]
    obtain ⟨r', same, left, more⟩ := ih after fun other mem =>
      admits other (List.mem_cons_of_mem _ mem)
    refine ⟨r', same, left, ?_⟩
    rw [trace_of_some (next_of_frame unread framable inside), more]
    rfl

/-- Before the frames of records that its segment admits, and then zeros, a reader still hands out the
records. -/
theorem trace_of_unread {records : List LogRecord} {zeros : Nat}
    (unread : r.unread.toList = records.flatMap LogRecord.frame ++ List.replicate zeros 0)
    (admits : ∀ record ∈ records, r.segment.Admits record) : r.trace = ⟨records, none⟩ := by
  obtain ⟨r', -, left, trace⟩ := exists_trace_eq unread admits
  have ended : r'.next = .ok none := by
    refine next_of_zeros fun b mem => ?_
    rw [left] at mem
    exact List.eq_of_mem_replicate mem
  rw [trace, trace_of_none ended, Trace.empty, List.append_nil]

/-- Every record that a reader hands out is in the range of its segment. -/
theorem contains_of_mem_trace {record : LogRecord} (mem : record ∈ r.trace.records) :
    r.segment.contains record.index := by
  -- on what is unread; a record has been checked when it is handed out, and the segment stays
  induction h : r.unread.length using Nat.strongRecOn generalizing r with
  | _ size ih =>
    subst h
    cases found : r.next with
    | error e =>
      rw [trace_of_error found] at mem
      cases mem
    | ok found' =>
      cases found' with
      | none =>
        rw [trace_of_none found] at mem
        cases mem
      | some found' =>
        obtain ⟨first, r'⟩ := found'
        obtain ⟨rfl, -, -, inside⟩ := frame_of_next found
        rw [trace_of_some found] at mem
        rcases List.mem_cons.mp mem with rfl | mem
        · exact inside
        · exact ih _ (unread_lt_of_next found) (r := r.advance _) mem rfl

end SegmentReader

/-- The reader of a segment reads that segment. -/
theorem LogSegment.segment_of_reader {tree : FileTree} {segment : LogSegment} {r : SegmentReader}
    (opened : segment.reader tree = .ok r) : r.segment = segment := by
  rw [reader] at opened
  split at opened
  · cases opened
  · repeat' split at opened
    all_goals cases opened
    all_goals rfl

/-! ## files of records -/

namespace LogSegment

variable {tree : FileTree} {segment : LogSegment} {content : Content} {records : List LogRecord}

/-- The file of records that a segment admits, with any number of zeros behind them, is opened and hands
them out. -/
theorem exists_trace_of_file {zeros : Nat} (file : tree.read segment.path = .ok content)
    (bytes : content.toList = segmentBytes records ++ List.replicate zeros 0)
    (admits : ∀ record ∈ records, segment.Admits record) :
    ∃ r, segment.reader tree = .ok r ∧ r.trace = ⟨records, none⟩ := by
  rw [segmentBytes, List.append_assoc] at bytes
  exact ⟨_, reader_of_header file bytes,
    SegmentReader.trace_of_unread (segment.unread_behindHeader bytes) admits⟩

/-- The file of records that a segment admits, and of nothing else, hands out these records. -/
theorem exists_trace_of_bytes (file : tree.read segment.path = .ok (.ofList (segmentBytes records)))
    (admits : ∀ record ∈ records, segment.Admits record) :
    ∃ r, segment.reader tree = .ok r ∧ r.trace = ⟨records, none⟩ := by
  have bytes : (Content.ofList (segmentBytes records)).toList =
      segmentBytes records ++ List.replicate 0 0 := by
    rw [List.replicate_zero, List.append_nil, Content.toList_ofList]
  exact exists_trace_of_file file bytes admits

/-- The file of records that a segment admits, with one behind them that does not belong to it, hands them
out and then refuses that one. -/
theorem exists_trace_of_outside {record : LogRecord} {rest : Bytes}
    (file : tree.read segment.path = .ok content)
    (bytes : content.toList = segmentBytes records ++ (record.frame ++ rest))
    (admits : ∀ record ∈ records, segment.Admits record) (framable : record.Framable)
    (outside : ¬ segment.contains record.index) :
    ∃ r, segment.reader tree = .ok r ∧ r.trace =
      ⟨records, some (.indexOutOfRange segment.path record.index segment.start segment.last)⟩ := by
  rw [segmentBytes, List.append_assoc] at bytes
  refine ⟨_, reader_of_header file bytes, ?_⟩
  obtain ⟨r', same, left, trace⟩ :=
    SegmentReader.exists_trace_eq (segment.unread_behindHeader bytes) admits
  have own : r'.segment = segment := same
  have refused := SegmentReader.next_of_outside left framable (own ▸ outside)
  rw [trace, SegmentReader.trace_of_error refused, own, Trace.ofFault, List.append_nil]

end LogSegment

/-! ## several segments -/

/-- All that the segments hand out, one after the other. -/
def traceOf (tree : FileTree) : List LogSegment → Trace
  | [] => .empty
  | segment :: rest =>
    match segment.reader tree with
    | .error e => .ofFault e
    | .ok r => r.trace.followedBy (traceOf tree rest)

namespace StreamConfig

/-- What a stream hands out of some records. -/
def selectFrom (c : StreamConfig) (fault : Option JournalError) : List LogRecord → Trace
  | [] => ⟨[], fault⟩
  | record :: rest =>
    if record.index < c.start then c.selectFrom fault rest
    else if c.isPast record.index then .empty
    else .cons record (c.selectFrom fault rest)

/-- What a stream hands out of a trace. -/
def select (c : StreamConfig) (t : Trace) : Trace := c.selectFrom t.fault t.records

variable (c : StreamConfig)

/-- A record before the first index is passed over. -/
theorem select_cons_below {record : LogRecord} (h : record.index < c.start) (t : Trace) :
    c.select (.cons record t) = c.select t := by
  rw [select, Trace.cons, selectFrom, if_pos h]
  rfl

/-- A record past the last index ends the selection. -/
theorem select_cons_past {record : LogRecord} (h : ¬ record.index < c.start)
    (past : c.isPast record.index) (t : Trace) : c.select (.cons record t) = .empty := by
  rw [select, Trace.cons, selectFrom, if_neg h, if_pos past]

/-- A record of the range is selected. -/
theorem select_cons_within {record : LogRecord} (h : ¬ record.index < c.start)
    (within : ¬ c.isPast record.index) (t : Trace) :
    c.select (.cons record t) = .cons record (c.select t) := by
  rw [select, Trace.cons, selectFrom, if_neg h, if_neg within]
  rfl

/-- The range from the first index on, without an end, leaves nothing out. -/
theorem select_all (group : Uuid) (t : Trace) : select ⟨group, 0, none⟩ t = t := by
  obtain ⟨records, fault⟩ := t
  induction records with
  | nil => rfl
  | cons record rest ih =>
    have below : ¬ record.index < 0 := UInt64.not_lt_zero
    show select _ (.cons record ⟨rest, fault⟩) = .cons record ⟨rest, fault⟩
    rw [select_cons_within _ below (by simp [isPast]), ih]

end StreamConfig

namespace RecordStream

variable {tree : FileTree} {s : RecordStream}

/-! ## what is still due -/

/-- What a stream that has not ended has still before it, its range aside. -/
def ahead (tree : FileTree) (s : RecordStream) (unopened : List LogSegment) : Trace :=
  match s.reader with
  | none => traceOf tree unopened
  | some r => r.trace.followedBy (traceOf tree unopened)

/-- The stream has ended and nothing is due, or what it selects from what is before it is. -/
def Due (tree : FileTree) (s : RecordStream) (items : List LogRecord)
    (fault : Option JournalError) : Prop :=
  if s.done then items = [] ∧ fault = none
  else s.config.select (s.ahead tree s.unopened) = ⟨items, fault⟩

/-- A stream that has ended is due nothing. -/
theorem due_finish (s : RecordStream) : Due tree s.finish [] none := by
  show if true = true then _ else _
  rw [if_pos rfl]
  exact ⟨rfl, rfl⟩

/-- What the next record at or past the start of a range means for what is selected. -/
theorem select_of_nextFrom (c : StreamConfig) (r : SegmentReader) (t : Trace) :
    match r.nextFrom c.start with
    | .error e => c.select (r.trace.followedBy t) = .ofFault e
    | .ok none => c.select (r.trace.followedBy t) = c.select t
    | .ok (some (record, r')) =>
      ¬ record.index < c.start ∧
        c.select (r.trace.followedBy t) = c.select (.cons record (r'.trace.followedBy t)) := by
  -- only records below the range are passed over, which the selection leaves out as well
  fun_induction SegmentReader.nextFrom c.start r with
  | case1 r e h =>
    rw [SegmentReader.trace_of_error h]
    rfl
  | case2 r h =>
    rw [SegmentReader.trace_of_none h]
    rfl
  | case3 r record r' h below ih =>
    rw [SegmentReader.trace_of_some h, Trace.cons_followedBy, StreamConfig.select_cons_below _ below]
    exact ih
  | case4 r record r' h above =>
    rw [SegmentReader.trace_of_some h, Trace.cons_followedBy]
    exact ⟨above, rfl⟩

/-! ## one call -/

/-- A record that is not below the range is handed out, or ends the stream. -/
theorem hands_deliver {record : LogRecord} {r : SegmentReader} {items : List LogRecord}
    {fault : Option JournalError} (running : s.done = false)
    (above : ¬ record.index < s.config.start)
    (due : s.config.select (.cons record (r.trace.followedBy (traceOf tree s.unopened))) =
      ⟨items, fault⟩) : Hands (Due tree) (s.deliver record r) items fault := by
  rw [deliver]
  by_cases past : s.config.isPast record.index
  · rw [if_pos past]
    rw [StreamConfig.select_cons_past _ above past] at due
    cases due
    exact ⟨rfl, due_finish s⟩
  · rw [if_neg past]
    rw [StreamConfig.select_cons_within _ above past] at due
    cases due
    refine ⟨rfl, ?_⟩
    show if s.done = true then _ else _
    rw [running, if_neg Bool.false_ne_true]
    rfl

/-- A call that reads on from a reader, in its three cases: its error ends the stream, a record that it
finds is delivered, and where it finds none the segments after it are due what was due before. -/
theorem hands_of_nextFrom {r : SegmentReader} {items : List LogRecord} {fault : Option JournalError}
    {result : Except JournalError (Option LogRecord) × RecordStream} (running : s.done = false)
    (due : s.config.select (r.trace.followedBy (traceOf tree s.unopened)) = ⟨items, fault⟩)
    (fails : ∀ e, r.nextFrom s.config.start = .error e → result = (.error e, s.finish))
    (ends : r.nextFrom s.config.start = .ok none →
      s.config.select (traceOf tree s.unopened) = ⟨items, fault⟩ →
      Hands (Due tree) result items fault)
    (finds : ∀ record r', r.nextFrom s.config.start = .ok (some (record, r')) →
      result = s.deliver record r') : Hands (Due tree) result items fault := by
  have next := select_of_nextFrom s.config r (traceOf tree s.unopened)
  cases found : r.nextFrom s.config.start with
  | error e =>
    rw [found] at next
    rw [next] at due
    cases due
    rw [fails e found]
    exact ⟨rfl, due_finish _⟩
  | ok found' =>
    rw [found] at next
    cases found' with
    | none =>
      rw [next] at due
      exact ends found due
    | some found' =>
      obtain ⟨record, r'⟩ := found'
      obtain ⟨above, next⟩ := next
      rw [next] at due
      rw [finds record r' found]
      exact hands_deliver running above due

/-- Going on with segments not yet opened hands out what comes first of what they are due. -/
theorem hands_openNext {items : List LogRecord} {fault : Option JournalError}
    (unopened : List LogSegment) (running : s.done = false)
    (due : s.config.select (traceOf tree unopened) = ⟨items, fault⟩) :
    Hands (Due tree) (s.openNext tree unopened) items fault := by
  -- on the segments: one that has nothing in the range is passed over within the call
  induction unopened generalizing s with
  | nil =>
    cases due
    exact ⟨rfl, due_finish _⟩
  | cons segment rest ih =>
    rw [traceOf] at due
    rw [openNext]
    cases opened : segment.reader tree with
    | error e =>
      rw [opened] at due
      cases due
      exact ⟨rfl, due_finish _⟩
    | ok r =>
      rw [opened] at due
      simp only at due ⊢
      refine hands_of_nextFrom (r := r) (s := { s with
        unopened := rest, segmentsOpened := tick s.segmentsOpened }) running due ?_ ?_ ?_
      · intro e found
        simp only at found
        rw [found]
      · intro found later
        simp only at found
        rw [found]
        exact ih running later
      · intro record r' found
        simp only at found
        rw [found]

/-- A call hands out what comes first of what a stream is due. -/
theorem hands_next {items : List LogRecord} {fault : Option JournalError}
    (due : Due tree s items fault) : Hands (Due tree) (s.next tree) items fault := by
  rw [next]
  by_cases ended : s.done = true
  · have kept := due
    rw [Due, if_pos ended] at due
    obtain ⟨rfl, rfl⟩ := due
    rw [if_pos ended]
    exact ⟨rfl, kept⟩
  · have running : s.done = false := by rwa [Bool.not_eq_true] at ended
    rw [Due, if_neg ended, ahead] at due
    rw [if_neg ended]
    -- the segment being read comes first; what it has no more of, the next ones may have
    cases reading : s.reader with
    | none =>
      rw [reading] at due
      exact hands_openNext s.unopened running due
    | some r =>
      rw [reading] at due
      simp only at due ⊢
      refine hands_of_nextFrom running due ?_ ?_ ?_
      · intro e found
        rw [found]
      · intro found later
        rw [found]
        exact hands_openNext s.unopened running later
      · intro record r' found
        rw [found]

/-! ## whole runs -/

/-- A stream gives what it selects from the trace of its segments. -/
theorem gives_select (tree : FileTree) (segments : List LogSegment) (config : StreamConfig) :
    Gives (next tree) (config.select (traceOf tree segments)).records
      (config.select (traceOf tree segments)).fault (ofSegments segments config) := by
  refine Gives.of_hands (Due tree) (fun s items fault due => hands_next due) ?_
  show if false = true then _ else _
  rw [if_neg Bool.false_ne_true]
  rfl

/-- The records of a file are handed out, if the segment admits them and nothing else is in it. -/
theorem gives_of_bytes {tree : FileTree} {segment : LogSegment} {records : List LogRecord}
    (file : tree.read segment.path = .ok (.ofList (segmentBytes records)))
    (admits : ∀ record ∈ records, segment.Admits record) (group : Uuid) :
    Gives (next tree) records none (ofSegments [segment] ⟨group, 0, none⟩) := by
  obtain ⟨r, reader, trace⟩ := LogSegment.exists_trace_of_bytes file admits
  have traces : traceOf tree [segment] = ⟨records, none⟩ := by
    rw [traceOf, reader]
    simp only [trace]
    show Trace.mk (records ++ []) none = _
    rw [List.append_nil]
  have gives := gives_select tree [segment] ⟨group, 0, none⟩
  rw [traces, StreamConfig.select_all] at gives
  exact gives

end RecordStream

end RaftJournal
