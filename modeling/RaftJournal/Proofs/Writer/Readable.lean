import RaftJournal.Proofs.Writer.Agreement

/-! # Acknowledged records are readable

A writer that has been created starts at a **`Site`** (**`Writer.exists_site`**), and from then on its
files show what its ledger says. So whatever has been acknowledged can be read at once, from closed
segments as from the open one: **`Writer.acknowledged_readable`**. -/

namespace RaftJournal

/-- The records of some appends, numbered from an index on. -/
def LogRecord.number (start term : UInt64) (accepted : List (RecordKind × Bytes)) :
    List LogRecord :=
  accepted.mapIdx fun before (kind, payload) =>
    ⟨UInt64.ofNat (start.toNat + before), term, kind, payload⟩

/-- The records of a ledger are numbered from its first index on. -/
theorem Ledger.records_eq {l : Ledger} (h : l.Numbered) :
    l.records = LogRecord.number l.config.startIndex l.config.term l.accepted := by
  rw [records, LogRecord.number]
  refine List.ext_getElem (by rw [List.length_mapIdx, List.length_mapIdx]) fun i inside _ => ?_
  rw [List.length_mapIdx] at inside
  rw [Numbered] at h
  rw [List.getElem_mapIdx, List.getElem_mapIdx]
  show record l i _ _ = _
  rw [record, tickBy, if_pos (by omega)]
  rfl

/-- So are those that a run leaves behind. -/
theorem Ledger.records_performAll {operations : List Operation} {config : WriterConfig} {codec : Codec}
    (h : (performAll perform operations (start config codec)).2.Numbered) :
    (performAll perform operations (start config codec)).2.records =
      LogRecord.number config.startIndex config.term
        (performAll perform operations (start config codec)).2.accepted := by
  rw [records_eq h, (grows_performAll operations (start config codec)).1]
  rfl

namespace Writer

variable {tree made : FileTree} {root : String} {config : WriterConfig} {codec : Codec} {w : Writer}

/-! ## where a writer starts -/

/-- What a writer is when it has been created. -/
theorem of_create (h : create tree root config codec = (.ok w, made)) :
    ∃ dir, dir = groupDirectory root config.group ∧
      tree.makeDirectories dir = (.ok (), made) ∧ segmentsIn made dir = [] ∧
      w = ⟨dir, config, codec, none, config.startIndex, config.startSequenceNumber, [],
        ⟨0, 0, 0, none⟩⟩ := by
  unfold create at h
  simp only at h
  refine ⟨_, rfl, ?_⟩
  generalize groupDirectory root config.group = dir at h ⊢
  cases directories : tree.makeDirectories dir with
  | mk result after =>
    rw [directories] at h
    cases result with
    | error fault => cases h
    | ok u =>
      simp only at h
      by_cases none : segmentsIn after dir = []
      · rw [if_pos none] at h
        cases h
        exact ⟨rfl, none, rfl⟩
      · rw [if_neg none] at h
        cases h

/-- A directory that has been made and has no segments is a site. -/
theorem exists_site_of_made {dir : String} (full : dir ≠ "")
    (noEnd : dir.toList.getLast? ≠ some '/') (directories : tree.makeDirectories dir = (.ok (), made))
    (empty : segmentsIn made dir = []) : ∃ site : Site, site.tree = made ∧ site.dir = dir := by
  obtain ⟨checked, l, led, ground⟩ := FileTree.walk_of_makeDirectories directories
  have resolved := FileTree.resolve_of_walk checked full led ground.directory
  have quiet : (made.children l).filterMap (LogSegment.ofName? dir) = [] := by
    rw [segmentsIn, resolved] at empty
    have sorted := congrArg List.length empty
    rw [List.length_mergeSort] at sorted
    exact List.length_eq_zero_iff.mp sorted
  exact ⟨⟨made, dir, l, full, noEnd, resolved, ground.directory, quiet⟩, rfl, rfl⟩

/-- A writer starts at a site and follows a ledger without records. -/
theorem exists_site (h : create tree root config codec = (.ok w, made)) (rolled : Nat → Prop) :
    ∃ site : Site, site.tree = made ∧ site.dir = groupDirectory root config.group ∧
      Follows site rolled ⟨w, made⟩ (Ledger.start config codec) := by
  obtain ⟨dir, eq, directories, empty, rfl⟩ := of_create h
  have full : dir ≠ "" := eq ▸ groupDirectory_ne_empty root config.group
  have noEnd : dir.toList.getLast? ≠ some '/' := by
    rw [eq, getLast?_groupDirectory]
    decide
  obtain ⟨site, rfl, rfl⟩ := exists_site_of_made full noEnd directories empty
  have holds : Holds site site.tree [] :=
    ⟨(List.append_nil _).symm, fun v mem => absurd mem List.not_mem_nil,
      fun v mem => absurd mem List.not_mem_nil, .nil⟩
  have index : config.startIndex = tickBy config.startIndex 0 := (tickBy_zero _).symm
  exact ⟨site, rfl, eq, ⟨rfl, rfl, rfl, rfl, index⟩, [], .of_nothing rfl holds rfl, rfl, .nil,
    fun _ => .inl rfl⟩

/-- The root of a writer is a directory, unless it is written as the empty path. -/
theorem isDirectory_root (h : create tree root config codec = (.ok w, made)) {tree' : FileTree}
    (ext : made.Extends tree') (named : root ≠ "") : tree'.isDirectory root := by
  obtain ⟨-, rfl, directories, -, -⟩ := of_create h
  obtain ⟨checked, l, led, -⟩ := FileTree.walk_of_makeDirectories directories
  have from_root : FileTree.start (groupDirectory root config.group) = FileTree.start root := by
    rw [FileTree.start, FileTree.start, isAbsolute_groupDirectory]
  -- the walk to the group's directory goes through the root
  rw [steps_groupDirectory, FileTree.walk_append, from_root] at led
  cases reached : made.walk (FileTree.start root) (Path.steps root) with
  | error fault =>
    rw [reached] at led
    cases led
  | ok m =>
    rw [reached] at led
    have found := FileTree.directory_of_walk led
    obtain ⟨tail, eq⟩ := exists_groupDirectory_eq root config.group
    rw [eq] at checked
    have resolved := FileTree.resolve_of_walk (FileTree.checkPath_of_append checked) named reached
      found
    rw [FileTree.isDirectory, ext.keeps.resolve resolved]
    simp only
    rw [ext.keeps _ _ found]
    rfl

/-- Where a writer has been created its segments are listed, unless the root is the empty path. -/
theorem listSegments_eq (h : create tree root config codec = (.ok w, made)) {tree' : FileTree}
    (ext : made.Extends tree') (dir : tree'.isDirectory (groupDirectory root config.group)) :
    listSegments tree' root config.group =
      if root = "" then .error (.invalidDirectory "")
      else .ok (segmentsIn tree' (groupDirectory root config.group)) := by
  rw [listSegments]
  by_cases named : root = ""
  · rw [if_pos named, named]
    rfl
  · rw [if_neg named, isDirectory_root h ext named, dir]
    rfl

/-- A stream over a range of the group goes through the segments that may have records of it. -/
theorem ofRoot_eq_filter (h : create tree root config codec = (.ok w, made)) {tree' : FileTree}
    (ext : made.Extends tree') (dir : tree'.isDirectory (groupDirectory root config.group))
    {range : StreamConfig} (group : range.group = config.group) :
    RecordStream.ofRoot tree' root range =
      if root = "" then .error (.invalidDirectory "")
      else .ok (RecordStream.ofSegments
        ((segmentsIn tree' (groupDirectory root config.group)).filter range.meets) range) := by
  rw [RecordStream.ofRoot, group, listSegments_eq h ext dir]
  split <;> rfl

/-- A stream over all indices leaves out no segment. -/
theorem ofRoot_eq (h : create tree root config codec = (.ok w, made)) {tree' : FileTree}
    (ext : made.Extends tree') (dir : tree'.isDirectory (groupDirectory root config.group)) :
    RecordStream.ofRoot tree' root ⟨config.group, 0, none⟩ =
      if root = "" then .error (.invalidDirectory "")
      else .ok (RecordStream.ofSegments
        (segmentsIn tree' (groupDirectory root config.group)) ⟨config.group, 0, none⟩) := by
  have all (segments : List LogSegment) :
      segments.filter (StreamConfig.meets ⟨config.group, 0, none⟩) = segments := by
    rw [List.filter_eq_self]
    intro segment _
    rw [StreamConfig.meets, Bool.and_eq_true]
    refine ⟨?_, rfl⟩
    rw [Option.all_eq_true]
    exact fun last _ => decide_eq_true UInt64.zero_le
  rw [ofRoot_eq_filter h ext dir rfl, all]

/-! ## reading along -/

/-- After a run of a created writer in which the file system refuses nothing and the indices suffice,
the answers are those of the ledger, and the files show volumes with its records. -/
theorem exists_shows (operations : List Operation)
    (created : create tree root config codec = (.ok w, made))
    (granted : ∀ answer ∈ (performAll perform operations ⟨w, made⟩).1, ¬ answer.isIo)
    (numbered : (performAll Ledger.perform operations (.start config codec)).2.Numbered) :
    let run := performAll perform operations ⟨w, made⟩
    let promised := performAll Ledger.perform operations (.start config codec)
    run.1 = promised.1 ∧
      ∃ (site : Site) (volumes : List Volume), site.tree = made ∧
        site.dir = groupDirectory root config.group ∧ Shows site run.2 volumes ∧
        (volumes.map (·.records)).flatten = promised.2.records := by
  intro run promised
  obtain ⟨site, same, dir, start⟩ := exists_site created fun _ => True
  obtain ⟨answers, follows⟩ :=
    follows_performAll operations start (fun _ _ => trivial) granted numbered
  obtain ⟨volumes, shows, divided⟩ := follows.shows
  exact ⟨answers, site, volumes, same, dir, shows, divided.records⟩

/-- After a run of a created writer in which the file system refuses nothing and the indices suffice,
the answers are those of the ledger, and a stream over the segments of the group gives its records.
Only the empty path is not taken as the root of such a stream. -/
theorem gives_records (operations : List Operation)
    (created : create tree root config codec = (.ok w, made))
    (granted : ∀ answer ∈ (performAll perform operations ⟨w, made⟩).1, ¬ answer.isIo)
    (numbered : (performAll Ledger.perform operations (.start config codec)).2.Numbered) :
    let run := performAll perform operations ⟨w, made⟩
    let promised := performAll Ledger.perform operations (.start config codec)
    let stream := RecordStream.ofSegments
      (segmentsIn run.2.tree (groupDirectory root config.group)) ⟨config.group, 0, none⟩
    run.1 = promised.1 ∧
      RecordStream.ofRoot run.2.tree root ⟨config.group, 0, none⟩ =
        (if root = "" then .error (.invalidDirectory "") else .ok stream) ∧
      Gives (RecordStream.next run.2.tree) promised.2.records none stream := by
  intro run promised stream
  obtain ⟨answers, site, volumes, rfl, dir, shows, records⟩ :=
    exists_shows operations created granted numbered
  refine ⟨answers, ofRoot_eq created shows.holds.extends_site (dir ▸ shows.holds.isDirectory), ?_⟩
  -- the stream selects everything, and the trace of the volumes is their records
  have gives := RecordStream.gives_select run.2.tree
    (segmentsIn run.2.tree (groupDirectory root config.group)) ⟨config.group, 0, none⟩
  rw [← dir, shows.holds.segmentsIn_eq, shows.holds.traceOf_eq fun v mem => mem,
    StreamConfig.select_all, List.flatMap_def, records] at gives
  show Gives _ _ _ (RecordStream.ofSegments (segmentsIn run.2.tree _) _)
  rw [← dir, shows.holds.segmentsIn_eq]
  exact gives

/-- **Acknowledged records are readable.** Take a writer that has been created for a group and any
operations in which the file system refuses nothing and the indices suffice; every point of a longer
run is the end of such a run. Then the answers are those of the ledger, and a stream opened over the
files gives the records that have been accepted, numbered from the first index on, and then nothing,
without an error. Only the empty path is not taken as a root; the segments listed for the group are
read all the same. -/
theorem acknowledged_readable (operations : List Operation)
    (created : create tree root config codec = (.ok w, made))
    (granted : ∀ answer ∈ (performAll perform operations ⟨w, made⟩).1, ¬ answer.isIo)
    (numbered : config.startIndex.toNat +
      (performAll Ledger.perform operations (.start config codec)).2.accepted.length ≤
        UInt64.size) :
    let run := performAll perform operations ⟨w, made⟩
    let promised := performAll Ledger.perform operations (.start config codec)
    let stream := RecordStream.ofSegments
      (segmentsIn run.2.tree (groupDirectory root config.group)) ⟨config.group, 0, none⟩
    run.1 = promised.1 ∧
      RecordStream.ofRoot run.2.tree root ⟨config.group, 0, none⟩ =
        (if root = "" then .error (.invalidDirectory "") else .ok stream) ∧
      Gives (RecordStream.next run.2.tree)
        (LogRecord.number config.startIndex config.term promised.2.accepted) none stream := by
  intro run promised stream
  have enough : promised.2.Numbered := Ledger.numbered_performAll_iff.mpr numbered
  obtain ⟨answers, opened, gives⟩ := gives_records operations created granted enough
  exact ⟨answers, opened, Ledger.records_performAll enough ▸ gives⟩

/-- Segments with room for one record of two bytes, but not for two. -/
def tightConfig : WriterConfig := ⟨.defaultGroup, 60, 64, 3, 5, 0⟩

/-- A writer that has just been created where nothing was. -/
def freshDesk (root : String) (config : WriterConfig) (codec : Codec) : Desk :=
  ⟨⟨groupDirectory root config.group, config, codec, none, config.startIndex,
      config.startSequenceNumber, [], ⟨0, 0, 0, none⟩⟩,
    (create .empty root config codec).2⟩

/-- A fresh writer with small segments. -/
def tightDesk (root : String) : Desk := freshDesk root tightConfig .json

/-- Two appends that are accepted, and between them one that is too large. -/
def threeAppends : List Operation :=
  [.appendRecord .metadata [7, 7], .appendRecord .configuration (List.replicate 40 0),
    .appendRecord .metadata [8, 8]]

/-- Of three appends the two accepted are read, one from a closed segment and one from an open one. -/
theorem acknowledged_readable_of_three :
    create .empty "j" tightConfig .json = (.ok (tightDesk "j").writer, (tightDesk "j").tree) ∧
    (∀ answer ∈ (performAll perform threeAppends (tightDesk "j")).1, ¬ answer.isIo) ∧
    tightConfig.startIndex.toNat +
      (performAll Ledger.perform threeAppends (.start tightConfig .json)).2.accepted.length ≤
        UInt64.size ∧
    ∃ stream,
      RecordStream.ofRoot (performAll perform threeAppends (tightDesk "j")).2.tree "j"
        ⟨.defaultGroup, 0, none⟩ = .ok stream ∧
      Gives (RecordStream.next (performAll perform threeAppends (tightDesk "j")).2.tree)
        [⟨5, 3, .metadata, [7, 7]⟩, ⟨6, 3, .metadata, [8, 8]⟩] none stream := by
  have created : create .empty "j" tightConfig .json =
      (.ok (tightDesk "j").writer, (tightDesk "j").tree) := by decide +kernel
  have granted : ∀ answer ∈ (performAll perform threeAppends (tightDesk "j")).1, ¬ answer.isIo := by
    decide +kernel
  have numbered : tightConfig.startIndex.toNat +
      (performAll Ledger.perform threeAppends (.start tightConfig .json)).2.accepted.length ≤
        UInt64.size := by decide +kernel
  obtain ⟨-, opened, gives⟩ := acknowledged_readable threeAppends created granted numbered
  exact ⟨created, granted, numbered, _, opened, gives⟩

/-- Under the empty path records are acknowledged that a stream does not come to: it does not take
the empty path as a root. -/
theorem acknowledged_unreadable_of_empty_path :
    create .empty "" tightConfig .json = (.ok (tightDesk "").writer, (tightDesk "").tree) ∧
    (performAll perform [.appendRecord .metadata [7, 7]] (tightDesk "")).1 = [.ok (some 5)] ∧
    RecordStream.ofRoot (performAll perform [.appendRecord .metadata [7, 7]] (tightDesk "")).2.tree ""
      ⟨.defaultGroup, 0, none⟩ = .error (.invalidDirectory "") := by
  refine ⟨by decide +kernel, by decide +kernel, ?_⟩
  rfl

end Writer

end RaftJournal
