import RaftJournal.Proofs.Storage.Changes
import RaftJournal.Proofs.Writer.Readable

/-! # Where nothing is

In a tree in which nothing has the name of its root a writer can be created: **`Writer.exists_created`**.
The tree then **`Houses`** the directory of the group, in which nothing is, and whatever the writer does
stays below it. -/

namespace RaftJournal

namespace Writer

variable {tree made : FileTree}

/-- Where the directory of a group is, below a directory with a name. -/
def groupLocation (name : String) (group : Uuid) : Location := [name, "raft", group.render, "current"]

/-- A tree is another one with the directory of a group in which nothing is. -/
structure Houses (name : String) (group : Uuid) (tree made : FileTree) : Prop where
  nodes : ∃ more, made.nodes = tree.nodes ++ more ∧ ∀ entry ∈ more, entry.2 = .directory ∧
    ∃ front, front ≠ [] ∧ front <+: groupLocation name group ∧ entry.1 = front
  clear : tree.Clear [name]

/-- Nothing is in the directory of the group. -/
theorem Houses.dropLast_ne {name : String} {group : Uuid} (h : Houses name group tree made) :
    ∀ entry ∈ made.nodes, entry.1.dropLast ≠ groupLocation name group := by
  intro entry mem same
  obtain ⟨more, nodes, dirs⟩ := h.nodes
  rw [nodes, List.mem_append] at mem
  have inside : groupLocation name group <+: entry.1 := same ▸ List.dropLast_prefix entry.1
  rcases mem with mem | mem
  · exact h.clear entry mem (List.IsPrefix.trans ⟨["raft", group.render, "current"], rfl⟩ inside)
  · -- the directories are above that one, or that one itself
    obtain ⟨-, front, -, along, rfl⟩ := dirs entry mem
    have short := along.length_le
    have long := congrArg List.length same
    rw [List.length_dropLast] at long
    have four : (groupLocation name group).length = 4 := rfl
    omega

/-- So there is no file either. -/
theorem Houses.not_hasFile {name : String} {group : Uuid} (h : Houses name group tree made) {dir : String}
    (led : made.resolve dir = .ok (groupLocation name group)) (file : String) (bytes : Bytes) :
    ¬ made.HasFile dir file bytes := by
  rw [FileTree.hasFile_iff led]
  rintro ⟨stamp, content, found, -⟩
  by_cases fixed : FileTree.IsFixed (groupLocation name group ++ [file])
  · rw [FileTree.node?_of_fixed fixed] at found
    cases found
  · rw [FileTree.node?_of_not_fixed fixed, List.lookup_eq_some_iff] at found
    obtain ⟨before, after, split, -⟩ := found
    exact h.dropLast_ne _ (split ▸ List.mem_append_right before List.mem_cons_self)
      List.dropLast_concat

/-- Where nothing is, a writer can be created. -/
theorem exists_created (tree : FileTree) {root name : String} {config : WriterConfig} (codec : Codec)
    (steps : Path.steps root = [name]) (relative : ¬ Path.isAbsolute root) (plain : Path.Plain name)
    (short : ∀ part ∈ groupLocation name config.group, ¬ Path.longestName < part.utf8ByteSize)
    (checked : FileTree.checkPath (groupDirectory root config.group) = .ok ())
    (clear : tree.Clear [name]) :
    ∃ w made, create tree root config codec = (.ok w, made) ∧ Houses name config.group tree made ∧
      made.resolve (groupDirectory root config.group) = .ok (groupLocation name config.group) := by
  have plain' : ∀ part ∈ groupLocation name config.group, Path.Plain part := by
    simp only [groupLocation, List.forall_mem_cons]
    exact ⟨plain, plain_raft, config.group.plain_render, plain_current,
      fun part mem => absurd mem List.not_mem_nil⟩
  have along : Path.steps (groupDirectory root config.group) = groupLocation name config.group := by
    rw [steps_groupDirectory, steps]
    rfl
  have start : FileTree.start (groupDirectory root config.group) = [] := by
    rw [FileTree.start, isAbsolute_groupDirectory, if_neg relative]
    rfl
  obtain ⟨more, done, dirs⟩ := FileTree.makeAlong_of_clear (l := []) false
    (fun part mem => ⟨plain' part mem, short part mem⟩) (by
      rintro part ⟨⟩
      exact clear)
  have directories : tree.makeDirectories (groupDirectory root config.group) =
      (.ok (), { tree with nodes := tree.nodes ++ more }) := by
    rw [FileTree.makeDirectories, checked, start, along]
    exact done
  have houses : Houses name config.group tree { tree with nodes := tree.nodes ++ more } :=
    ⟨⟨more, rfl, dirs⟩, clear⟩
  generalize FileTree.mk (tree.nodes ++ more) tree.nextStamp = made at directories houses
  obtain ⟨-, l, led, ground⟩ := FileTree.walk_of_makeDirectories directories
  have there : l = groupLocation name config.group := by
    rw [start, along] at led
    exact FileTree.eq_of_walk plain' led
  have resolved := FileTree.resolve_of_walk checked (groupDirectory_ne_empty root config.group) led
    ground.directory
  rw [there] at resolved
  have bare : made.children (groupLocation name config.group) = [] := by
    rw [FileTree.children, List.filterMap_eq_nil_iff]
    rintro ⟨l, node⟩ mem
    exact if_neg fun below => houses.dropLast_ne _ mem below.2
  have empty : segmentsIn made (groupDirectory root config.group) = [] := by
    rw [segmentsIn, resolved]
    simp only
    rw [bare, List.filterMap_nil, List.mergeSort_nil]
  have created : ∃ w, create tree root config codec = (.ok w, made) := by
    unfold create
    simp only
    rw [directories]
    simp only
    rw [if_pos empty]
    exact ⟨_, rfl⟩
  obtain ⟨w, created⟩ := created
  exact ⟨w, made, created, houses, resolved⟩

/-- What a writer has written is below the directory of its group, so nothing is elsewhere if nothing was. -/
theorem Houses.clear_of_holds {name other : String} {group : Uuid} {site : Site} {after : FileTree}
    {volumes : List Volume} (h : Houses name group tree site.tree)
    (led : site.tree.resolve site.dir = .ok (groupLocation name group))
    (holds : Holds site after volumes) (apart : other ≠ name) (clear : tree.Clear [other]) :
    after.Clear [other] := by
  have elsewhere {l : Location} (starts : l.head? = some name) : ¬ [other] <+: l := by
    rintro ⟨rest, rfl⟩
    exact apart (Option.some.inj starts)
  obtain ⟨more, nodes, dirs⟩ := h.nodes
  intro entry mem
  rw [holds.nodes, nodes, List.mem_append, List.mem_append] at mem
  rcases mem with (mem | mem) | mem
  · exact clear entry mem
  · obtain ⟨-, front, some_, ⟨rest, along⟩, rfl⟩ := dirs entry mem
    refine elsewhere ?_
    rw [← List.head?_append_of_ne_nil _ some_, along]
    rfl
  · obtain ⟨v, -, rfl⟩ := List.mem_map.mp mem
    refine elsewhere ?_
    have location : site.location = groupLocation name group := Except.ok.inj (site.led.symm.trans led)
    rw [Volume.entry, Volume.location, location]
    rfl

end Writer

end RaftJournal
