import RaftJournal.Proofs.Segment.Listing
import RaftJournal.Proofs.Segment.Names
import RaftJournal.Writer.Basic

/-! # Which files are segments

A file of the directory is a segment if its name is that of one, and all other files are ignored: by
the listing (**`segmentsIn_perm`**) as well as by a new writer, which works only where there are no
segments yet (**`Writer.create_refuses_iff`**). Since the indices may be spelled in more ways than one,
two files may be listed as the same segment; two with names as they are written are not
(**`segment_files_by_spelling`**). -/

namespace RaftJournal

open SegmentName

/-- The segments of a directory are its files that have the name of one. -/
theorem segmentsIn_perm {tree : FileTree} {dir : String} {l : Location}
    (led : tree.resolve dir = .ok l) :
    (segmentsIn tree dir).Perm ((tree.children l).filterMap (LogSegment.ofName? dir)) := by
  rw [segmentsIn, led]
  exact List.mergeSort_perm _ _

/-- There are no segments just where no file has the name of one. -/
theorem segmentsIn_eq_nil_iff {tree : FileTree} {dir : String} {l : Location}
    (led : tree.resolve dir = .ok l) :
    segmentsIn tree dir = [] ↔ ∀ name ∈ tree.children l, parse name = none := by
  have empty : segmentsIn tree dir = [] ↔
      (tree.children l).filterMap (LogSegment.ofName? dir) = [] := by
    constructor
    · exact fun none => (none ▸ segmentsIn_perm led).symm.eq_nil
    · exact fun none => (none ▸ segmentsIn_perm led).eq_nil
  rw [empty, List.filterMap_eq_nil_iff]
  exact forall₂_congr fun name _ => Option.map_eq_none_iff

/-- A new writer is refused for segments that exist just where a file has the name of one. -/
theorem Writer.create_refuses_iff (tree : FileTree) (root : String) (config : WriterConfig)
    (codec : Codec) :
    (create tree root config codec).1 =
        .error (.segmentsAlreadyExist (groupDirectory root config.group)) ↔
      ∃ made l, tree.makeDirectories (groupDirectory root config.group) = (.ok (), made) ∧
        made.resolve (groupDirectory root config.group) = .ok l ∧
        ∃ name ∈ made.children l, (parse name).isSome := by
  unfold create
  simp only
  generalize groupDirectory root config.group = dir
  generalize directories : tree.makeDirectories dir = answered
  obtain ⟨result, made⟩ := answered
  -- the directory cannot be made, or it is made and its files decide
  cases result with
  | error fault =>
    constructor
    · rintro ⟨⟩
    · rintro ⟨_, _, ⟨⟩, _⟩
  | ok u =>
    simp only
    cases led : made.resolve dir with
    | error fault =>
      rw [if_pos (by rw [segmentsIn, led])]
      constructor
      · rintro ⟨⟩
      · rintro ⟨_, _, ⟨⟩, led', _⟩
        rw [led] at led'
        cases led'
    | ok l =>
      by_cases none : segmentsIn made dir = []
      · rw [if_pos none]
        constructor
        · rintro ⟨⟩
        · rintro ⟨_, _, ⟨⟩, led', name, mem, named⟩
          obtain rfl := Except.ok.inj (led.symm.trans led')
          rw [(segmentsIn_eq_nil_iff led).mp none name mem] at named
          cases named
      · rw [if_neg none, segmentsIn_eq_nil_iff led] at *
        push Not at none
        obtain ⟨name, mem, named⟩ := none
        exact ⟨fun _ => ⟨made, l, rfl, led, name, mem, Option.isSome_iff_ne_none.mpr named⟩, fun _ => rfl⟩

/-- **Files are told by their names.** A closed segment is read from `log_<first>-<last>` and an open one
from `log_inprogress_<first>`, where the indices may be spelled with a plus sign and with zeros in front,
and from no other name. Where they are spelled plainly it is the name that is written for the segment, and
no two such names are read alike. All other files of the directory are ignored, by the listing and by a new
writer. -/
theorem segment_files_by_spelling {tree : FileTree} {root : String} {group : Uuid}
    {segments : List LogSegment} {l : Location} (listed : listSegments tree root group = .ok segments)
    (led : tree.resolve (groupDirectory root group) = .ok l) :
    segments.Perm ((tree.children l).filterMap (LogSegment.ofName? (groupDirectory root group))) ∧
      (∀ config codec, (Writer.create tree root config codec).1 =
            .error (.segmentsAlreadyExist (groupDirectory root config.group)) ↔
          ∃ made l, tree.makeDirectories (groupDirectory root config.group) = (.ok (), made) ∧
            made.resolve (groupDirectory root config.group) = .ok l ∧
            ∃ name ∈ made.children l, (parse name).isSome) ∧
      (∀ name first final, parse name = some ⟨first, some final⟩ ↔ first ≤ final ∧
        ∃ start last, Decimal.Spells start first ∧ Decimal.Spells last final ∧
          name = closedAs start last) ∧
      (∀ name first, parse name = some ⟨first, none⟩ ↔
        ∃ start, Decimal.Spells start first ∧ name = openAs start) ∧
      (∀ start last first final, Decimal.Spells start first → Decimal.Spells last final →
        (closedAs start last = closedName first final ↔ Decimal.Plain start ∧ Decimal.Plain last)) ∧
      (∀ start first, Decimal.Spells start first →
        (openAs start = openName first ↔ Decimal.Plain start)) ∧
      ∀ found other : SegmentName, found.Sound → other.Sound →
        parse found.render = parse other.render → found.render = other.render := by
  refine ⟨eq_of_listSegments listed ▸ segmentsIn_perm led, Writer.create_refuses_iff tree root,
    fun _ _ _ => parse_eq_closed_iff, fun _ _ => parse_eq_open_iff,
    fun _ _ _ _ starts ends => closedAs_eq_closedName_iff starts ends,
    fun _ _ starts => openAs_eq_openName_iff starts, ?_⟩
  intro found other sound sound' same
  rw [parse_render sound, parse_render sound'] at same
  rw [Option.some.inj same]

/-! ## one segment under two names -/

/-- The files of a group: one segment under two names, and a file of another kind. -/
def doubledTree : FileTree :=
  let dir := ["j", "raft", Uuid.defaultGroup.render, "current"]
  ⟨[(["j"], .directory), (["j", "raft"], .directory),
    (["j", "raft", Uuid.defaultGroup.render], .directory), (dir, .directory),
    (dir ++ ["raft-meta"], .file 0 ⟨[], 0⟩), (dir ++ ["log_0-9"], .file 1 ⟨[], 0⟩),
    (dir ++ ["log_00-9"], .file 2 ⟨[], 0⟩)], 3⟩

/-- Both files of the segment, as they are listed. -/
def doubledSegments : List LogSegment :=
  [⟨0, some 9, Path.join (groupDirectory "j" .defaultGroup) "log_0-9"⟩,
    ⟨0, some 9, Path.join (groupDirectory "j" .defaultGroup) "log_00-9"⟩]

theorem resolve_doubledTree : doubledTree.resolve (groupDirectory "j" .defaultGroup) =
    .ok ["j", "raft", Uuid.defaultGroup.render, "current"] := by
  decide +kernel

theorem ofName?_doubledTree :
    (doubledTree.children ["j", "raft", Uuid.defaultGroup.render, "current"]).filterMap
      (LogSegment.ofName? (groupDirectory "j" .defaultGroup)) = doubledSegments := by
  decide +kernel

theorem segment_files_by_spelling_of_three :
    ∃ segments, listSegments doubledTree "j" .defaultGroup = .ok segments ∧
      segments.Perm doubledSegments := by
  have listed : listSegments doubledTree "j" .defaultGroup =
      .ok (segmentsIn doubledTree (groupDirectory "j" .defaultGroup)) := by
    have root : doubledTree.isDirectory "j" := by decide +kernel
    have group : doubledTree.isDirectory (groupDirectory "j" .defaultGroup) := by decide +kernel
    rw [listSegments, root, group]
    rfl
  have told := (segment_files_by_spelling listed resolve_doubledTree).1
  rw [ofName?_doubledTree] at told
  exact ⟨_, listed, told⟩

/-- Names other than the ones that are written are read as those of segments, so that two files of a
directory are listed as the same segment. -/
theorem segment_listed_twice :
    (¬ ∀ name first final, parse name = some ⟨first, some final⟩ ↔
        first ≤ final ∧ name = closedName first final) ∧
      segmentsIn doubledTree (groupDirectory "j" .defaultGroup) = doubledSegments := by
  constructor
  · intro canonical
    have name := ((canonical "log_00-9" 0 9).mp (by decide)).2
    exact absurd name (by decide)
  · exact segmentsIn_of_sorted resolve_doubledTree ofName?_doubledTree (by decide +kernel)

end RaftJournal
