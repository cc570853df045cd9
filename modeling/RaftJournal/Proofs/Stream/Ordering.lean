import Mathlib.Data.List.Basic
import RaftJournal.Proofs.Segment.Listing
import RaftJournal.Proofs.Stream.Ranges

/-! # The order of the records of a stream

The segments of a group are listed by their first indices (**`pairwise_segmentsIn`**). A stream goes
through them in that order, and through each of them in the order of its file. What it hands out of the
segments that it comes to are its **`StreamConfig.parts`**.

The index of a record is checked against the range of its segment
(**`SegmentReader.contains_of_mem_trace`**), and a record outside of it is an error
(**`LogSegment.exists_trace_of_outside`**). It is not checked against the records before it.
**`RecordStream.ordered_by_segment`** says what order there is for that reason: between the records of
segments that lie apart, and within a segment that of its file. -/

namespace RaftJournal

/-! ## segments that lie apart -/

namespace LogSegment

/-- The first segment has ended before the second one starts. -/
def Before (s next : LogSegment) : Prop := ∃ last, s.last = some last ∧ last < next.start

/-- Of two segments of which one has ended before the other starts, every index of the first comes before
every index of the second. -/
theorem Before.lt {s next : LogSegment} {index later : UInt64} (h : s.Before next)
    (inside : s.contains index) (inside' : next.contains later) : index < later := by
  obtain ⟨last, closed, less⟩ := h
  have ends := (contains_iff.mp inside).2 last closed
  have starts := (contains_iff.mp inside').1
  exact UInt64.lt_of_lt_of_le (UInt64.lt_of_le_of_lt ends less) starts

/-- Where of any two segments the first has ended before the other starts, the indices of their records rise
if they rise within each segment. -/
theorem pairwise_flatMap_iff {parts : List (LogSegment × List LogRecord)}
    (apart : (parts.map (·.1)).Pairwise Before)
    (inside : ∀ part ∈ parts, ∀ record ∈ part.2, part.1.contains record.index) :
    (parts.flatMap (·.2)).Pairwise (·.index < ·.index) ↔
      ∀ part ∈ parts, part.2.Pairwise (·.index < ·.index) := by
  have between : parts.Pairwise fun part next =>
      ∀ record ∈ part.2, ∀ later ∈ next.2, record.index < later.index := by
    refine (List.pairwise_map.mp apart).imp_of_mem fun {part next} mem mem' before => ?_
    exact fun record among later among' =>
      before.lt (inside part mem record among) (inside next mem' later among')
  rw [List.pairwise_flatMap]
  exact and_iff_left between

end LogSegment

/-- A stream that is opened over the files of a group goes through the segments listed that may have
records of its range. -/
theorem RecordStream.eq_of_ofRoot {tree : FileTree} {root : String} {c : StreamConfig}
    {stream : RecordStream} (opened : ofRoot tree root c = .ok stream) :
    stream = ofSegments ((segmentsIn tree (groupDirectory root c.group)).filter c.meets) c := by
  rw [ofRoot] at opened
  cases listed : listSegments tree root c.group with
  | error e =>
    rw [listed] at opened
    cases opened
  | ok segments =>
    rw [listed] at opened
    rw [← eq_of_listSegments listed]
    exact (Except.ok.inj opened).symm

/-! ## part by part -/

namespace StreamConfig

/-- What a stream hands out of each segment that it comes to. -/
def parts (c : StreamConfig) (tree : FileTree) : List LogSegment → List (LogSegment × List LogRecord)
  | [] => []
  | segment :: rest =>
    match segment.reader tree with
    | .error _ => []
    | .ok r =>
      (segment, (c.select r.trace).records) ::
        if r.trace.fault.isSome ∨ c.stopsIn r.trace then [] else c.parts tree rest

variable (c : StreamConfig) {tree : FileTree} {segments : List LogSegment}

/-- A stream selects from one trace and then from the next one, unless it ends in the first. -/
theorem select_followedBy (t u : Trace) :
    c.select (t.followedBy u) =
      if t.fault.isSome ∨ c.stopsIn t then c.select t
      else (c.select t).followedBy (c.select u) := by
  obtain ⟨records, fault⟩ := t
  induction records with
  | nil => cases fault <;> rfl
  | cons record rest ih =>
    show c.select ((Trace.cons record ⟨rest, fault⟩).followedBy u) =
      if fault.isSome ∨ c.stopsIn (.cons record ⟨rest, fault⟩) then
        c.select (.cons record ⟨rest, fault⟩)
      else (c.select (.cons record ⟨rest, fault⟩)).followedBy (c.select u)
    rw [Trace.cons_followedBy]
    by_cases below : record.index < c.start
    · rw [select_cons_below c below, select_cons_below c below, stopsIn, reached_cons_below c below, ih]
      rfl
    · by_cases past : c.isPast record.index
      · have ends : c.stopsIn (.cons record ⟨rest, fault⟩) := by
          simp [stopsIn, reached_cons c below, past]
        rw [select_cons_past c below past, select_cons_past c below past, if_pos (.inr ends)]
      · have later : c.stopsIn (.cons record ⟨rest, fault⟩) = c.stopsIn ⟨rest, fault⟩ := by
          simp [stopsIn, reached_cons c below, past]
        rw [select_cons_within c below past, select_cons_within c below past, later, ih]
        split
        · rfl
        · rw [Trace.cons_followedBy]

theorem select_records_sublist (t : Trace) : (c.select t).records.Sublist t.records := by
  rw [select_eq]
  exact (List.takeWhile_sublist _).trans List.filter_sublist

/-- A stream hands out records of its range only. -/
theorem includes_of_mem_select {t : Trace} {record : LogRecord} (mem : record ∈ (c.select t).records) :
    c.includes record.index := by
  rw [select_eq] at mem
  have within := List.all_eq_true.mp List.all_takeWhile record mem
  have above := List.mem_filter.mp ((List.takeWhile_sublist _).mem mem)
  rw [includes, above.2, within]
  rfl

/-- The parts are what a stream selects, one after the other. -/
theorem flatMap_parts (tree : FileTree) (segments : List LogSegment) :
    (c.parts tree segments).flatMap (·.2) = (c.select (traceOf tree segments)).records := by
  induction segments with
  | nil => rfl
  | cons segment rest ih =>
    rw [parts, traceOf]
    cases segment.reader tree with
    | error e => rfl
    | ok r =>
      simp only
      rw [select_followedBy]
      by_cases ends : r.trace.fault.isSome ∨ c.stopsIn r.trace
      · rw [if_pos ends, if_pos ends, List.flatMap_singleton]
      · rw [if_neg ends, if_neg ends, List.flatMap_cons, ih]
        rw [not_or, Option.not_isSome_iff_eq_none] at ends
        have goesOn : (c.select r.trace).fault = none := by
          rw [select_eq, if_neg ends.2, ends.1]
        rw [Trace.followedBy, goesOn]

/-- The parts are of the first segments. -/
theorem map_parts_isPrefix (tree : FileTree) (segments : List LogSegment) :
    (c.parts tree segments).map (·.1) <+: segments := by
  induction segments with
  | nil => exact List.prefix_refl _
  | cons segment rest ih =>
    rw [parts]
    cases segment.reader tree with
    | error e => exact List.nil_prefix
    | ok r =>
      simp only
      rw [List.map_cons, List.prefix_cons_inj]
      split
      · exact List.nil_prefix
      · exact ih

/-- A part is what a stream selects from its segment. -/
theorem of_mem_parts {part : LogSegment × List LogRecord} (mem : part ∈ c.parts tree segments) :
    ∃ r, part.1.reader tree = .ok r ∧ part.2 = (c.select r.trace).records := by
  induction segments with
  | nil => cases mem
  | cons segment rest ih =>
    rw [parts] at mem
    cases opened : segment.reader tree with
    | error e =>
      rw [opened] at mem
      cases mem
    | ok r =>
      rw [opened] at mem
      rcases List.mem_cons.mp mem with rfl | mem
      · exact ⟨r, opened, rfl⟩
      · split at mem
        · cases mem
        · exact ih mem

/-- The records of a part are in the range of their segment. -/
theorem contains_of_mem_parts {part : LogSegment × List LogRecord} {record : LogRecord}
    (mem : part ∈ c.parts tree segments) (among : record ∈ part.2) :
    part.1.contains record.index := by
  obtain ⟨r, opened, records⟩ := c.of_mem_parts mem
  rw [records] at among
  rw [← LogSegment.segment_of_reader opened]
  exact SegmentReader.contains_of_mem_trace ((c.select_records_sublist _).mem among)

end StreamConfig

namespace RecordStream

/-- **What order there is among the records of a stream.** Take any files and a stream over some of the
segments that are listed for a group, among them the one that is opened by the root. It hands out its
records part by part, each part from one segment and in the order of its file; the segments come in the
order of their first indices, and every record is in the range of its segment and in that of the stream. So
where of any two segments the first has ended before the other starts, the indices rise from part to part,
and they rise throughout exactly if they rise within each part. A file of records that are in the range of
its segment is read without an error, whatever their order is; behind such records one whose index is
outside of that range is refused. -/
theorem ordered_by_segment (tree : FileTree) (root : String) (c : StreamConfig)
    (keep : LogSegment → Bool) :
    let listed := segmentsIn tree (groupDirectory root c.group)
    let segments := listed.filter keep
    let parts := c.parts tree segments
    let records := parts.flatMap (·.2)
    (∀ stream, ofRoot tree root c = .ok stream → stream = ofSegments (listed.filter c.meets) c) ∧
      Gives (next tree) records (c.select (traceOf tree segments)).fault (ofSegments segments c) ∧
      parts.map (·.1) <+: segments ∧ segments.Pairwise (·.start ≤ ·.start) ∧
      (∀ part ∈ parts, (∃ r, part.1.reader tree = .ok r ∧ part.2.Sublist r.trace.records) ∧
        ∀ record ∈ part.2, part.1.contains record.index ∧ c.includes record.index) ∧
      (segments.Pairwise LogSegment.Before →
        (records.Pairwise (·.index < ·.index) ↔
          ∀ part ∈ parts, part.2.Pairwise (·.index < ·.index))) ∧
      ∀ (s : LogSegment) (content : Content) (before : List LogRecord),
        tree.read s.path = .ok content → (∀ r ∈ before, r.Framable ∧ s.contains r.index) →
        (∀ zeros, content.toList = segmentBytes before ++ List.replicate zeros 0 →
          ∃ r, s.reader tree = .ok r ∧ r.trace = ⟨before, none⟩) ∧
        ∀ (record : LogRecord) (rest : Bytes),
          content.toList = segmentBytes before ++ (record.frame ++ rest) →
          record.Framable → ¬ s.contains record.index →
          ∃ r, s.reader tree = .ok r ∧
            r.trace = ⟨before, some (.indexOutOfRange s.path record.index s.start s.last)⟩ := by
  intro listed segments parts records
  have gives := gives_select tree segments c
  rw [← c.flatMap_parts] at gives
  have front := c.map_parts_isPrefix tree segments
  refine ⟨fun stream => eq_of_ofRoot, gives, front,
    (pairwise_segmentsIn tree _).filter keep, fun part mem => ⟨?_, fun record among => ⟨?_, ?_⟩⟩,
    fun apart => ?_, fun s content before file admits =>
      ⟨fun zeros bytes => LogSegment.exists_trace_of_file file bytes admits,
        fun record rest bytes => LogSegment.exists_trace_of_outside file bytes admits⟩⟩
  · obtain ⟨r, opened, same⟩ := c.of_mem_parts mem
    exact ⟨r, opened, same ▸ c.select_records_sublist _⟩
  · exact c.contains_of_mem_parts mem among
  · obtain ⟨r, -, same⟩ := c.of_mem_parts mem
    exact c.includes_of_mem_select (same ▸ among)
  · exact LogSegment.pairwise_flatMap_iff (apart.sublist front.sublist) fun part mem record among =>
      c.contains_of_mem_parts mem among

/-- The directory of the usual group under `j`. -/
def shelfLocation : Location := ["j", "raft", Uuid.defaultGroup.render, "current"]

/-- The files of some segments of the usual group, under `j`. -/
def shelf (files : List (String × List LogRecord)) : FileTree :=
  ⟨[1, 2, 3, 4].map (fun depth => (shelfLocation.take depth, .directory)) ++
    files.mapIdx fun stamp (name, records) =>
      (shelfLocation ++ [name], .file stamp (.ofList (segmentBytes records))), files.length⟩

/-- A record without a payload. -/
def bare (index : UInt64) : LogRecord := ⟨index, 1, .metadata, []⟩

/-- A segment on the shelf. -/
def shelved (start last : UInt64) : LogSegment :=
  ⟨start, some last, Path.join (groupDirectory "j" .defaultGroup) (SegmentName.closedName start last)⟩

/-- Two segments, of which the second has a record that belongs to the first. -/
def straying : FileTree := shelf [("log_0-4", [1, 3].map bare), ("log_5-9", [7, 4].map bare)]

/-- Of two segments that lie apart the records come in order, and the one that belongs to the other segment
is refused. -/
theorem ordered_by_segment_of_four :
    (segmentsIn straying (groupDirectory "j" .defaultGroup)).Pairwise LogSegment.Before ∧
    straying.read (shelved 5 9).path = .ok (.ofList (segmentBytes ([7, 4].map bare))) ∧
    (∀ r ∈ [bare 7], r.Framable ∧ (shelved 5 9).contains r.index) ∧ (bare 4).Framable ∧
    ¬ (shelved 5 9).contains (bare 4).index ∧
    ∃ stream, ofRoot straying "j" ⟨.defaultGroup, 0, none⟩ = .ok stream ∧
      Gives (next straying) ([1, 3, 7].map bare)
        (some (.indexOutOfRange (shelved 5 9).path 4 5 (some 9))) stream ∧
      ([1, 3, 7].map bare).Pairwise (·.index < ·.index) := by
  have file : straying.read (shelved 5 9).path =
      .ok (.ofList (segmentBytes ([7, 4].map bare))) := by decide +kernel
  have file' : straying.read (shelved 0 4).path =
      .ok (.ofList (segmentBytes ([1, 3].map bare))) := by decide +kernel
  have admits : ∀ r ∈ [bare 7], r.Framable ∧ (shelved 5 9).contains r.index := by decide
  have framable : (bare 4).Framable := by decide
  have outside : ¬ (shelved 5 9).contains (bare 4).index := by decide
  have listed : segmentsIn straying (groupDirectory "j" .defaultGroup) =
      [shelved 0 4, shelved 5 9] :=
    segmentsIn_of_sorted (l := shelfLocation) (by decide +kernel) (by decide +kernel) (by decide)
  have apart : [shelved 0 4, shelved 5 9].Pairwise LogSegment.Before :=
    .cons (List.forall_mem_singleton.mpr ⟨4, rfl, by decide⟩) (.cons (by simp) .nil)
  have opened : ofRoot straying "j" ⟨.defaultGroup, 0, none⟩ =
      .ok (ofSegments [shelved 0 4, shelved 5 9] ⟨.defaultGroup, 0, none⟩) := by
    have root : straying.isDirectory "j" = true := by decide +kernel
    have dir : straying.isDirectory (groupDirectory "j" .defaultGroup) = true := by decide +kernel
    rw [ofRoot, listSegments]
    simp only [root, dir, listed]
    rfl
  obtain ⟨-, gives, -, -, -, rises, refuses⟩ :=
    ordered_by_segment straying "j" ⟨.defaultGroup, 0, none⟩ fun _ => true
  have all (segments : List LogSegment) : segments.filter (fun _ => true) = segments :=
    List.filter_eq_self.mpr fun _ _ => rfl
  simp only [all, listed, StreamConfig.flatMap_parts] at gives rises
  obtain ⟨r, reader, trace⟩ := LogSegment.exists_trace_of_bytes file' (by decide)
  obtain ⟨r', reader', trace'⟩ := (refuses _ _ [bare 7] file admits).2 (bare 4) []
    (by simp [segmentBytes]) framable outside
  have traces : traceOf straying [shelved 0 4, shelved 5 9] =
      ⟨[1, 3, 7].map bare, some (.indexOutOfRange (shelved 5 9).path 4 5 (some 9))⟩ := by
    rw [traceOf, reader, traceOf, reader']
    simp only [trace, trace']
    rfl
  have parts : StreamConfig.parts ⟨.defaultGroup, 0, none⟩ straying [shelved 0 4, shelved 5 9] =
      [(shelved 0 4, [1, 3].map bare), (shelved 5 9, [bare 7])] := by
    simp [StreamConfig.parts, reader, reader', trace, trace', StreamConfig.select_all,
      StreamConfig.stopsIn, StreamConfig.isPast]
  rw [parts, traces, StreamConfig.select_all] at rises
  rw [traces, StreamConfig.select_all] at gives
  exact ⟨listed ▸ apart, file, admits, framable, outside, _, opened, gives,
    (rises apart).mpr (by decide)⟩

/-- A segment whose records are not in the order of their indices. -/
def disorderly : FileTree := shelf [("log_0-9", [5, 3].map bare)]

/-- Two records of one segment are handed out as they stand in its file, without an error, though the second
has the smaller index. -/
theorem disordered_of_two :
    ∃ stream, ofRoot disorderly "j" ⟨.defaultGroup, 0, none⟩ = .ok stream ∧
      Gives (next disorderly) ([5, 3].map bare) none stream ∧
      ¬ ([5, 3].map bare).Pairwise (·.index < ·.index) := by
  have opened : ofRoot disorderly "j" ⟨.defaultGroup, 0, none⟩ =
      .ok (ofSegments [shelved 0 9] ⟨.defaultGroup, 0, none⟩) := by decide +kernel
  have file : disorderly.read (shelved 0 9).path =
      .ok (.ofList (segmentBytes ([5, 3].map bare))) := by decide +kernel
  obtain ⟨r, reader, trace⟩ := LogSegment.exists_trace_of_bytes file (by decide)
  have traces : traceOf disorderly [shelved 0 9] = ⟨[5, 3].map bare, none⟩ := by
    rw [traceOf, reader]
    simp only [trace]
    rfl
  have gives := gives_select disorderly [shelved 0 9] ⟨.defaultGroup, 0, none⟩
  rw [traces, StreamConfig.select_all] at gives
  exact ⟨_, opened, gives, by decide⟩

end RecordStream

end RaftJournal
