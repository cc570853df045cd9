import RaftJournal.Proofs.Stream.Ordering

/-! # Segments that a stream leaves out

A stream that is opened by its root goes through those segments only that may have records of its range,
which their names tell (**`StreamConfig.meets`**). The others are of two kinds
(**`StreamConfig.before_or_past`**). What ends before the range has nothing for the stream. What starts past
the range has nothing either, and it comes last in a listing: a stream that goes on to it ends there, or
passes over it.

So a stream over all segments selects the same (**`StreamConfig.select_filter_meets`**) and opens at least as
many of them (**`StreamConfig.opened_filter_meets_le`**), as long as those left out can be read.
**`RecordStream.pruning_transparent`** says it of the calls. -/

namespace RaftJournal

/-- The segment is opened and read to its end without an error. -/
def LogSegment.Readable (tree : FileTree) (s : LogSegment) : Prop :=
  ∃ r, s.reader tree = .ok r ∧ r.trace.fault = none

/-! ## what segments have -/

section Traces

variable {tree : FileTree} {segments : List LogSegment}

/-- Every record of a trace of segments is in the range of one of them. -/
theorem contains_of_mem_traceOf {record : LogRecord} (mem : record ∈ (traceOf tree segments).records) :
    ∃ s ∈ segments, s.contains record.index := by
  induction segments with
  | nil => cases mem
  | cons segment rest ih =>
    rw [traceOf] at mem
    cases opened : segment.reader tree with
    | error e =>
      rw [opened] at mem
      cases mem
    | ok r =>
      rw [opened] at mem
      have own (among : record ∈ r.trace.records) :
          ∃ s ∈ segment :: rest, s.contains record.index := by
        refine ⟨segment, List.mem_cons_self, ?_⟩
        rw [← LogSegment.segment_of_reader opened]
        exact SegmentReader.contains_of_mem_trace among
      simp only [Trace.followedBy] at mem
      split at mem
      · exact own mem
      · rcases List.mem_append.mp mem with mem | mem
        · exact own mem
        · obtain ⟨s, among, inside⟩ := ih mem
          exact ⟨s, List.mem_cons_of_mem _ among, inside⟩

/-- Segments that can be read have no fault together. -/
theorem fault_traceOf_of_readable (readable : ∀ s ∈ segments, s.Readable tree) :
    (traceOf tree segments).fault = none := by
  induction segments with
  | nil => rfl
  | cons segment rest ih =>
    obtain ⟨r, opened, sound⟩ := readable segment List.mem_cons_self
    rw [traceOf, opened]
    simp only [Trace.followedBy, sound]
    exact ih fun s mem => readable s (List.mem_cons_of_mem _ mem)

end Traces

/-! ## what is left out -/

namespace StreamConfig

variable {c : StreamConfig} {tree : FileTree} {segments : List LogSegment} {s : LogSegment}

theorem isPast_iff {index : UInt64} : c.isPast index ↔ ∃ stop, c.stop = some stop ∧ stop ≤ index := by
  rw [isPast, Option.any_eq_true]
  simp only [decide_eq_true_eq]

/-- A segment that is left out ends before the range or starts past it. -/
theorem before_or_past (out : ¬ c.meets s) :
    (∃ last, s.last = some last ∧ last < c.start) ∨ c.isPast s.start := by
  rw [meets, Bool.and_eq_true, not_and_or, Bool.not_eq_true, Bool.not_eq_true,
    Option.all_eq_false, Option.all_eq_false] at out
  rcases out with ⟨last, closed, before⟩ | ⟨stop, ends, past⟩
  · exact .inl ⟨last, closed, UInt64.not_le.mp (of_decide_eq_false before)⟩
  · exact .inr (isPast_iff.mpr ⟨stop, ends, UInt64.not_lt.mp (of_decide_eq_false past)⟩)

/-- A segment that ends before the range and can be read has nothing for a stream, which goes on behind
it. -/
theorem exists_reader_of_before {last : UInt64} (readable : s.Readable tree)
    (closed : s.last = some last) (before : last < c.start) :
    ∃ r, s.reader tree = .ok r ∧ c.reached r.trace = [] ∧
      ¬ (r.trace.fault.isSome ∨ c.stopsIn r.trace) ∧ c.select r.trace = .empty := by
  obtain ⟨r, opened, sound⟩ := readable
  have none : c.reached r.trace = [] := by
    rw [reached, List.filter_eq_nil_iff]
    intro record mem
    have inside := SegmentReader.contains_of_mem_trace mem
    rw [LogSegment.segment_of_reader opened] at inside
    have below := (LogSegment.contains_iff.mp inside).2 last closed
    rw [decide_eq_true_eq]
    exact UInt64.not_le.mpr (UInt64.lt_of_le_of_lt below before)
  refine ⟨r, opened, none, by simp [sound, stopsIn, none], ?_⟩
  rw [select_eq, stopsIn, none, sound]
  rfl

/-- Nothing is selected from records that are all past the range. -/
theorem select_of_past {t : Trace} (sound : t.fault = none)
    (past : ∀ record ∈ t.records, c.isPast record.index) : c.select t = .empty := by
  have first : ((c.reached t).takeWhile fun record => !c.isPast record.index) = [] := by
    cases reached : c.reached t with
    | nil => rfl
    | cons record rest =>
      have mem : record ∈ c.reached t := reached ▸ List.mem_cons_self
      rw [List.takeWhile_cons_of_neg]
      rw [past record (List.mem_filter.mp mem).1]
      exact Bool.false_ne_true
  rw [select_eq, first, sound, ite_self]
  rfl

/-- Where the first of the segments listed starts past the range, so do all of them. -/
theorem forall_isPast_start {rest : List LogSegment}
    (sorted : (s :: rest).Pairwise (·.start ≤ ·.start)) (past : c.isPast s.start) :
    ∀ next ∈ s :: rest, c.isPast next.start := by
  obtain ⟨stop, ends, le⟩ := isPast_iff.mp past
  intro next mem
  refine isPast_iff.mpr ⟨stop, ends, ?_⟩
  rcases List.mem_cons.mp mem with rfl | mem
  · exact le
  · exact UInt64.le_trans le ((List.pairwise_cons.mp sorted).1 next mem)

/-- A segment that starts past the range is left out. -/
theorem not_meets_of_isPast (past : c.isPast s.start) : c.meets s = false := by
  obtain ⟨stop, ends, le⟩ := isPast_iff.mp past
  have no : decide (s.start < stop) = false := decide_eq_false (UInt64.not_lt.mpr le)
  rw [meets, ends, Option.all_some, no, Bool.and_false]

theorem filter_meets_of_past (past : ∀ s ∈ segments, c.isPast s.start) :
    segments.filter c.meets = [] := by
  rw [List.filter_eq_nil_iff]
  intro s mem
  rw [not_meets_of_isPast (past s mem)]
  exact Bool.false_ne_true

/-- **What is left out is not missed**: the same is selected from the segments that may have records of the
range as from all of them. -/
theorem select_filter_meets (sorted : segments.Pairwise (·.start ≤ ·.start))
    (readable : ∀ s ∈ segments, ¬ c.meets s → s.Readable tree) :
    c.select (traceOf tree (segments.filter c.meets)) = c.select (traceOf tree segments) := by
  induction segments with
  | nil => rfl
  | cons s rest ih =>
    have ih := ih (List.pairwise_cons.mp sorted).2 fun s mem => readable s (List.mem_cons_of_mem _ mem)
    by_cases kept : c.meets s
    · rw [List.filter_cons_of_pos kept, traceOf, traceOf]
      cases s.reader tree with
      | error e => rfl
      | ok r =>
        simp only
        rw [select_followedBy, select_followedBy, ih]
    · rcases before_or_past kept with ⟨last, closed, before⟩ | past
      · obtain ⟨r, opened, -, goesOn, nothing⟩ :=
          exists_reader_of_before (readable s List.mem_cons_self kept) closed before
        rw [List.filter_cons_of_neg kept, traceOf, opened]
        simp only
        rw [select_followedBy, if_neg goesOn, nothing, Trace.empty_followedBy, ih]
      · -- all that follows starts past the range too, so nothing of it is kept or selected
        have all := forall_isPast_start sorted past
        have out (next : LogSegment) (mem : next ∈ s :: rest) : next.Readable tree :=
          readable next mem (by rw [not_meets_of_isPast (all next mem)]; exact Bool.false_ne_true)
        rw [filter_meets_of_past all]
        refine (select_of_past (fault_traceOf_of_readable out) fun record mem => ?_).symm
        obtain ⟨next, among, inside⟩ := contains_of_mem_traceOf mem
        obtain ⟨stop, ends, le⟩ := isPast_iff.mp (all next among)
        exact isPast_iff.mpr ⟨stop, ends, UInt64.le_trans le (LogSegment.contains_iff.mp inside).1⟩

/-- Without the segments that are left out not more of them are opened. -/
theorem opened_filter_meets_le (sorted : segments.Pairwise (·.start ≤ ·.start))
    (readable : ∀ s ∈ segments, ¬ c.meets s → s.Readable tree) (calls : Nat) :
    c.opened tree calls (segments.filter c.meets) ≤ c.opened tree calls segments := by
  induction segments generalizing calls with
  | nil => exact Nat.le_refl _
  | cons s rest ih =>
    have ih := ih (List.pairwise_cons.mp sorted).2 fun s mem => readable s (List.mem_cons_of_mem _ mem)
    cases calls with
    | zero => rw [opened_zero]; exact Nat.zero_le _
    | succ calls =>
      by_cases kept : c.meets s
      · rw [List.filter_cons_of_pos kept, opened_cons, opened_cons]
        cases s.reader tree with
        | error e => exact Nat.le_refl _
        | ok r =>
          refine Nat.add_le_add_left ?_ 1
          rw [openedAfter, openedAfter]
          split
          · exact Nat.le_refl _
          · exact ih _
      · rcases before_or_past kept with ⟨last, closed, before⟩ | past
        · obtain ⟨r, opened, none, goesOn, -⟩ :=
            exists_reader_of_before (readable s List.mem_cons_self kept) closed before
          rw [List.filter_cons_of_neg kept, opened_cons, opened]
          simp only
          rw [openedAfter, if_neg goesOn, none, List.length_nil, Nat.sub_zero]
          exact Nat.le_add_left_of_le (ih _)
        · rw [filter_meets_of_past (forall_isPast_start sorted past), opened_nil]
          exact Nat.zero_le _

end StreamConfig

namespace RecordStream

variable {tree : FileTree} {root : String} {c : StreamConfig} {segments : List LogSegment}

/-- **Leaving segments out is not noticed.** Take the segments listed for a group, and suppose that each of
those that may not have records of the range can be read to its end. A stream opened by the root, which
leaves these out, and a stream over all of the segments hand out the same records and then the same error,
if there is one. After any number of calls they have counted the same records, and the first has not opened
more segments than the other. -/
theorem pruning_transparent (listed : listSegments tree root c.group = .ok segments)
    (readable : ∀ s ∈ segments, ¬ c.meets s → s.Readable tree) :
    ∃ stream, ofRoot tree root c = .ok stream ∧
      (∃ records fault, Gives (next tree) records fault stream ∧
        Gives (next tree) records fault (ofSegments segments c)) ∧
      ∀ calls,
        let pruned := stateAfter (next tree) calls stream
        let whole := stateAfter (next tree) calls (ofSegments segments c)
        pruned.stats.recordsRead = whole.stats.recordsRead ∧
          pruned.stats.segmentsOpened ≤ whole.stats.segmentsOpened := by
  have opened : ofRoot tree root c = .ok (ofSegments (segments.filter c.meets) c) := by
    rw [ofRoot, listed]
    rfl
  have sorted : segments.Pairwise (·.start ≤ ·.start) := by
    rw [eq_of_listSegments listed]
    exact pairwise_segmentsIn tree _
  refine ⟨_, opened, ?_⟩
  have gives := gives_select tree (segments.filter c.meets) c
  have gives' := gives_select tree segments c
  rw [StreamConfig.select_filter_meets sorted readable] at gives
  refine ⟨⟨_, _, gives, gives'⟩, fun calls => ?_⟩
  obtain ⟨read, opened⟩ := (gives_reached tree (segments.filter c.meets) c).2 calls
  obtain ⟨read', opened'⟩ := (gives_reached tree segments c).2 calls
  rw [gives calls] at read
  rw [gives' calls] at read'
  exact ⟨UInt64.le_antisymm (read.le read' (Nat.le_refl _)) (read'.le read (Nat.le_refl _)),
    opened.le opened' (StreamConfig.opened_filter_meets_le sorted readable calls)⟩

/-- Three segments, of which the range from 5 up to 10 needs the second only. -/
def threefold : FileTree :=
  shelf [("log_0-4", [1, 3].map bare), ("log_5-9", [7].map bare), ("log_20-29", [25].map bare)]

/-- Of three segments two are left out, and it is not noticed. -/
theorem pruning_transparent_of_three :
    let c : StreamConfig := ⟨.defaultGroup, 5, some 10⟩
    let segments := [shelved 0 4, shelved 5 9, shelved 20 29]
    listSegments threefold "j" .defaultGroup = .ok segments ∧
    (∀ s ∈ segments, ¬ c.meets s → s.Readable threefold) ∧
    ∃ stream, ofRoot threefold "j" c = .ok stream ∧ segments.filter c.meets = [shelved 5 9] ∧
      ∃ records fault, Gives (next threefold) records fault stream ∧
        Gives (next threefold) records fault (ofSegments segments c) := by
  intro c segments
  have listed : listSegments threefold "j" .defaultGroup = .ok segments := by
    have root : threefold.isDirectory "j" = true := by decide +kernel
    have dir : threefold.isDirectory (groupDirectory "j" .defaultGroup) = true := by decide +kernel
    have found : segmentsIn threefold (groupDirectory "j" .defaultGroup) = segments :=
      segmentsIn_of_sorted (l := shelfLocation) (by decide +kernel) (by decide +kernel) (by decide)
    rw [listSegments]
    simp only [root, dir, found]
    rfl
  have readable : ∀ s ∈ segments, ¬ c.meets s → s.Readable threefold := by
    intro s mem out
    have first : threefold.read (shelved 0 4).path =
        .ok (.ofList (segmentBytes ([1, 3].map bare))) := by decide +kernel
    have last : threefold.read (shelved 20 29).path =
        .ok (.ofList (segmentBytes ([25].map bare))) := by decide +kernel
    rcases List.mem_cons.mp mem with rfl | mem
    · obtain ⟨r, opened, trace⟩ := LogSegment.exists_trace_of_bytes first (by decide)
      exact ⟨r, opened, by rw [trace]⟩
    · rcases List.mem_cons.mp mem with rfl | mem
      · exact absurd (by decide) out
      · obtain rfl := List.mem_singleton.mp mem
        obtain ⟨r, opened, trace⟩ := LogSegment.exists_trace_of_bytes last (by decide)
        exact ⟨r, opened, by rw [trace]⟩
  obtain ⟨stream, opened, gives, -⟩ := pruning_transparent (c := c) listed readable
  exact ⟨listed, readable, stream, opened, by decide, gives⟩

end RecordStream

end RaftJournal
