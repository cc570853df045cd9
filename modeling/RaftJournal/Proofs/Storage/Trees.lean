import RaftJournal.Proofs.Storage.Paths

/-! # Trees that grow

New files and directories come at the end of a tree, so what was in it before is still there
(**`FileTree.Extends`**): what was at a location still is, and a walk that led somewhere still leads
there.

* **`FileTree.put_of_absent`**, **`FileTree.put_of_last`** and **`FileTree.erase_of_last`** say what
  becomes of the entries of a tree whose last entry alone is touched.
* **`FileTree.walk_append`** cuts a walk in two, and **`FileTree.walk_of_filter`** puts the names that
  lead nowhere back into one.
* **`FileTree.Grounded`** directories have only directories above them. Directories that have been made
  are grounded, and can be walked to (**`FileTree.walk_of_makeDirectories`**). -/

namespace RaftJournal.FileTree

variable {tree tree' : FileTree} {l m : Location} {node : Node} {name : String}

/-! ## entries -/

/-- A location where paths start, or above one: there is always a directory. -/
def IsFixed (l : Location) : Prop := isAbove l ∨ l = top

instance (l : Location) : Decidable (IsFixed l) := inferInstanceAs (Decidable (_ ∨ _))

/-- At a fixed place there is always a directory. -/
theorem node?_of_fixed (h : IsFixed l) : tree.node? l = some .directory :=
  if_pos h

/-- Anywhere else the entries of the tree decide. -/
theorem node?_of_not_fixed (h : ¬ IsFixed l) : tree.node? l = tree.nodes.lookup l :=
  if_neg h

/-- A plain name is never where paths start. -/
theorem not_isFixed_append (h : Path.Plain name) (l : Location) : ¬ IsFixed (l ++ [name]) := by
  rintro (above | top)
  · rw [isAbove, List.all_append, Bool.and_eq_true] at above
    have dots := List.all_eq_true.mp above.2 name (List.mem_singleton.mpr rfl)
    exact h.noDots (of_decide_eq_true dots)
  · have last := congrArg List.getLast? top
    rw [List.getLast?_append, FileTree.top] at last
    exact h.ne_slash (Option.some.inj last)

/-- No entry of a tree is at the location. -/
def Absent (tree : FileTree) (l : Location) : Prop := ∀ entry ∈ tree.nodes, entry.1 ≠ l

/-- No entry is at a location just when looking it up finds none. -/
theorem absent_iff : tree.Absent l ↔ tree.nodes.lookup l = none := by
  rw [Absent, List.lookup_eq_none_iff]
  constructor
  · intro h entry mem
    exact bne_iff_ne.mpr (h entry mem).symm
  · intro h entry mem
    exact (bne_iff_ne.mp (h entry mem)).symm

/-- Where nothing is, no entry is, and the place is not a fixed one. -/
theorem absent_of_node? (h : tree.node? l = none) : ¬ IsFixed l ∧ tree.Absent l := by
  by_cases fixed : IsFixed l
  · rw [node?_of_fixed fixed] at h
    cases h
  · rw [node?_of_not_fixed fixed] at h
    exact ⟨fixed, absent_iff.mpr h⟩

/-- Where no entry is, nothing is, unless the place is a fixed one. -/
theorem node?_of_absent (fixed : ¬ IsFixed l) (h : tree.Absent l) : tree.node? l = none := by
  rw [node?_of_not_fixed fixed, absent_iff.mp h]

/-- What is put where nothing was comes last. -/
theorem put_of_absent (h : tree.Absent l) (node : Node) :
    tree.put l node = { tree with nodes := tree.nodes ++ [(l, node)] } := by
  rw [put, if_neg]
  rw [List.any_eq_true]
  rintro ⟨entry, mem, same⟩
  exact h entry mem (of_decide_eq_true same)

/-- The entry at the end of a tree, and nothing else of it, is at the location. -/
def EndsIn (tree : FileTree) (front : List (Location × Node)) (l : Location) (node : Node) : Prop :=
  tree.nodes = front ++ [(l, node)] ∧ ∀ entry ∈ front, entry.1 ≠ l

variable {front : List (Location × Node)}

/-- The last entry is found if none before it is at its location. -/
theorem node?_of_last (fixed : ¬ IsFixed l) (h : tree.EndsIn front l node) :
    tree.node? l = some node := by
  rw [node?_of_not_fixed fixed, List.lookup_eq_some_iff]
  -- nothing before the last entry is at the location, so the look-up comes to it
  refine ⟨front, [], h.1, fun entry mem => ?_⟩
  rw [bne_iff_ne]
  exact (h.2 entry mem).symm

/-- Where nothing was, what has been put is found. -/
theorem node?_put_of_none (none : tree.node? l = none) (node : Node) :
    (tree.put l node).node? l = some node := by
  obtain ⟨fixed, absent⟩ := absent_of_node? none
  exact node?_of_last fixed ⟨by rw [put_of_absent absent], absent⟩

/-- What is put in place of the last entry is the last entry. -/
theorem put_of_last {old : Node} (h : tree.EndsIn front l old) (node : Node) :
    tree.put l node = { tree with nodes := front ++ [(l, node)] } := by
  have present : tree.nodes.any (·.1 = l) := by
    rw [h.1, List.any_append, Bool.or_eq_true]
    exact .inr (by simp)
  have others : front.map (fun entry => if entry.1 = l then (l, node) else entry) = front := by
    refine (List.map_congr_left fun entry mem => ?_).trans (List.map_id front)
    rw [if_neg (h.2 entry mem)]
    rfl
  rw [put, if_pos present, h.1, List.map_append, others]
  simp

/-- Without its last entry a tree has the entries before it. -/
theorem erase_of_last (h : tree.EndsIn front l node) :
    tree.erase l = { tree with nodes := front } := by
  have others : front.filter (·.1 ≠ l) = front := by
    rw [List.filter_eq_self]
    exact fun entry mem => decide_eq_true (h.2 entry mem)
  rw [erase, h.1, List.filter_append, others]
  simp

/-! ## growing -/

/-- The second tree has the entries of the first, and perhaps more after them. -/
def Extends (tree tree' : FileTree) : Prop := ∃ more, tree'.nodes = tree.nodes ++ more

theorem Extends.refl (tree : FileTree) : tree.Extends tree := ⟨[], (List.append_nil _).symm⟩

/-- What has grown twice has grown. -/
theorem Extends.trans {tree'' : FileTree} (h : tree.Extends tree') (h' : tree'.Extends tree'') :
    tree.Extends tree'' := by
  obtain ⟨more, eq⟩ := h
  obtain ⟨more', eq'⟩ := h'
  exact ⟨more ++ more', by rw [eq', eq, List.append_assoc]⟩

/-- A tree grows where something is put for the first time. -/
theorem extends_put (h : tree.Absent l) (node : Node) : tree.Extends (tree.put l node) :=
  ⟨[(l, node)], by rw [put_of_absent h]⟩

/-- What is somewhere in the first tree is there in the second one as well. -/
def Keeps (tree tree' : FileTree) : Prop :=
  ∀ l node, tree.node? l = some node → tree'.node? l = some node

theorem Keeps.refl (tree : FileTree) : tree.Keeps tree := fun _ _ found => found

/-- What is kept twice is kept. -/
theorem Keeps.trans {tree'' : FileTree} (h : tree.Keeps tree') (h' : tree'.Keeps tree'') :
    tree.Keeps tree'' :=
  fun l node found => h' l node (h l node found)

/-- What was at a location still is. -/
theorem Extends.keeps (h : tree.Extends tree') : tree.Keeps tree' := by
  intro l node found
  obtain ⟨more, eq⟩ := h
  by_cases fixed : IsFixed l
  · rw [node?_of_fixed fixed] at found ⊢
    exact found
  · rw [node?_of_not_fixed fixed] at found ⊢
    rw [eq, List.lookup_append, found, Option.some_or]

/-! ## walking -/

/-- Only a directory is left on a walk. -/
theorem directory_of_walk {rest : List String} (h : tree.walk l (name :: rest) = .ok m) :
    tree.node? l = some .directory := by
  rw [walk] at h
  split at h
  · cases h
  · cases h
  · assumption

/-- From a directory a name that leads on is followed. -/
theorem walk_cons (found : tree.node? l = some .directory) (name : String) (rest : List String) :
    tree.walk l (name :: rest) =
      if !Path.leadsOn name then tree.walk l rest
      else if name = ".." then tree.walk (parent l) rest
      else if Path.longestName < name.utf8ByteSize then .error .nameTooLong
      else tree.walk (l ++ [name]) rest := by
  rw [walk, found]

/-- A walk along names and then more goes on where the first part led. -/
theorem walk_append (tree : FileTree) (l : Location) (names more : List String) :
    tree.walk l (names ++ more) = (tree.walk l names).bind fun m => tree.walk m more := by
  -- on the first names; every branch of a step goes on with the others or stops in both walks
  induction names generalizing l with
  | nil => rfl
  | cons name names ih =>
    rw [List.cons_append, walk, walk]
    cases found : tree.node? l with
    | none => rfl
    | some node =>
      cases node with
      | file stamp content => rfl
      | directory =>
        simp only
        split
        · exact ih l
        · split
          · exact ih (parent l)
          · split
            · rfl
            · exact ih (l ++ [name])

/-- The directories of the first tree are directories in the second one as well. -/
def Leads (tree tree' : FileTree) : Prop :=
  ∀ l, tree.node? l = some .directory → tree'.node? l = some .directory

/-- A tree that keeps all has the directories of the other. -/
theorem Keeps.leads (h : tree.Keeps tree') : tree.Leads tree' := fun l found => h l _ found

/-- A walk that led somewhere still leads there. -/
theorem Leads.walk (h : tree.Leads tree') {names : List String}
    (led : tree.walk l names = .ok m) : tree'.walk l names = .ok m := by
  induction names generalizing l with
  | nil => exact led
  | cons name names ih =>
    -- the directories on the way are still there, so both walks take the same branch
    have found := directory_of_walk led
    rw [walk_cons found] at led
    rw [walk_cons (h _ found)]
    split
    · rw [if_pos ‹_›] at led
      exact ih led
    · rw [if_neg ‹_›] at led
      split
      · rw [if_pos ‹_›] at led
        exact ih led
      · rw [if_neg ‹_›] at led
        split
        · rw [if_pos ‹_›] at led
          cases led
        · rw [if_neg ‹_›] at led
          exact ih led

/-- A walk to a directory also leads there with the names that lead nowhere. -/
theorem walk_of_filter {names : List String}
    (led : tree.walk l (names.filter Path.leadsOn) = .ok m)
    (found : tree.node? m = some .directory) : tree.walk l names = .ok m := by
  induction names generalizing l with
  | nil => exact led
  | cons name names ih =>
    by_cases on : Path.leadsOn name
    · rw [List.filter_cons_of_pos on] at led
      have here := directory_of_walk led
      rw [walk_cons here, on] at led ⊢
      simp only [Bool.not_true, Bool.false_eq_true, if_false] at led ⊢
      split
      · rw [if_pos ‹_›] at led
        exact ih led
      · rw [if_neg ‹_›] at led
        split
        · rw [if_pos ‹_›] at led
          cases led
        · rw [if_neg ‹_›] at led
          exact ih led
    · rw [List.filter_cons_of_neg on] at led
      -- a name that leads nowhere is passed over in a directory, and there is one here: the walk goes
      -- on from it or ends in it
      have here : tree.node? l = some .directory := by
        cases rest : names.filter Path.leadsOn with
        | nil =>
          rw [rest] at led
          cases led
          exact found
        | cons next rest' =>
          rw [rest] at led
          exact directory_of_walk led
      rw [walk_cons here, if_pos (by simpa using on)]
      exact ih led

/-! ## grounded directories -/

/-- A directory with only directories above it, up to where paths start. -/
inductive Grounded (tree : FileTree) : Location → Prop
  | fixed {l : Location} (h : IsFixed l) : Grounded tree l
  | child {l : Location} {name : String} (above : Grounded tree l)
    (found : tree.node? (l ++ [name]) = some .directory) : Grounded tree (l ++ [name])

/-- At the end of a way of directories there is one. -/
theorem Grounded.directory (h : tree.Grounded l) : tree.node? l = some .directory := by
  cases h with
  | fixed fixed => exact node?_of_fixed fixed
  | child above found => exact found

/-- Above a grounded directory is another. -/
theorem Grounded.parent (h : tree.Grounded l) : tree.Grounded (parent l) := by
  rw [FileTree.parent]
  by_cases top : l = FileTree.top
  · rw [if_pos top]
    exact .fixed (.inr rfl)
  · rw [if_neg top]
    -- above a place above the start is one more such place
    by_cases above : isAbove l
    · rw [if_pos above]
      refine .fixed (.inl ?_)
      rw [isAbove, List.all_append, Bool.and_eq_true]
      exact ⟨above, by decide⟩
    · rw [if_neg above]
      cases h with
      | fixed fixed => exact absurd fixed (by rintro (h | h) <;> contradiction)
      | child above' found =>
        rw [List.dropLast_concat]
        exact above'

/-- The way to a place stays if everything does. -/
theorem Keeps.grounded (h : tree.Keeps tree') (grounded : tree.Grounded l) :
    tree'.Grounded l := by
  induction grounded with
  | fixed fixed => exact .fixed fixed
  | child above found ih => exact .child ih (h _ _ found)

/-- Directories made along names can be walked along, and what was there before still is. -/
theorem walk_of_makeAlong {names : List String} {made : Bool} (grounded : tree.Grounded l)
    (on : ∀ name ∈ names, Path.leadsOn name)
    (h : tree.makeAlong made l names = (.ok (), tree')) :
    tree.Extends tree' ∧ ∃ m, tree'.walk l names = .ok m ∧ tree'.Grounded m := by
  -- on the names; that the directory reached is grounded is what lets `..` go back up
  induction names generalizing tree l made with
  | nil =>
    cases h
    exact ⟨.refl _, l, rfl, grounded⟩
  | cons name names ih =>
    have leads := on name List.mem_cons_self
    have rest := fun name mem => on name (List.mem_cons_of_mem _ mem)
    -- From here the walk goes on in the tree that is left at the end.
    have step (ext : tree.Extends tree') :=
      walk_cons (ext.keeps _ _ grounded.directory) name names
    rw [makeAlong] at h
    by_cases dots : name = ".."
    · rw [if_pos dots] at h
      obtain ⟨ext, m, led, ground⟩ := ih grounded.parent rest h
      refine ⟨ext, m, ?_, ground⟩
      rw [step ext, leads, if_neg (by decide), if_pos dots, led]
    · rw [if_neg dots] at h
      by_cases long : Path.longestName < name.utf8ByteSize
      · rw [if_pos long] at h
        cases h
      · rw [if_neg long] at h
        cases found : tree.node? (l ++ [name]) with
        | some node =>
          rw [found] at h
          cases node with
          | file stamp content => cases h
          | directory =>
            obtain ⟨ext, m, led, ground⟩ := ih (grounded.child found) rest h
            refine ⟨ext, m, ?_, ground⟩
            rw [step ext, leads, if_neg (by decide), if_neg dots, if_neg long, led]
        | none =>
          rw [found] at h
          -- nothing is there: the directory is made, and the rest starts from the larger tree
          obtain ⟨-, absent⟩ := absent_of_node? found
          have grown := extends_put absent .directory
          have new := node?_put_of_none found .directory
          obtain ⟨ext, m, led, ground⟩ := ih ((grown.keeps.grounded grounded).child new) rest h
          refine ⟨grown.trans ext, m, ?_, ground⟩
          rw [step (grown.trans ext), leads, if_neg (by decide), if_neg dots, if_neg long, led]

/-! ## resolving -/

variable {path dir : String}

/-- A path that is looked at and whose steps lead to a directory is resolved to it. -/
theorem resolve_of_walk (checked : checkPath path = .ok ()) (full : path ≠ "")
    (led : tree.walk (start path) (Path.steps path) = .ok l)
    (found : tree.node? l = some .directory) : tree.resolve path = .ok l := by
  rw [resolve, checked]
  simp only
  rw [if_neg full]
  exact walk_of_filter led found

/-- A path that was resolved still is. -/
theorem Leads.resolve (h : tree.Leads tree') (led : tree.resolve path = .ok l) :
    tree'.resolve path = .ok l := by
  rw [FileTree.resolve] at led ⊢
  split at led
  · cases led
  · by_cases empty : path = ""
    · rw [if_pos empty] at led
      cases led
    · rw [if_neg empty] at led ⊢
      exact h.walk led

/-- A path that led somewhere still leads there. -/
theorem Keeps.resolve (h : tree.Keeps tree') (led : tree.resolve path = .ok l) :
    tree'.resolve path = .ok l := h.leads.resolve led

/-- Directories that have been made can be walked to. -/
theorem walk_of_makeDirectories (h : tree.makeDirectories path = (.ok (), tree')) :
    checkPath path = .ok () ∧
      ∃ l, tree'.walk (start path) (Path.steps path) = .ok l ∧ tree'.Grounded l := by
  rw [makeDirectories] at h
  cases checked : checkPath path with
  | error fault =>
    rw [checked] at h
    cases h
  | ok u =>
    rw [checked] at h
    have fixed : IsFixed (start path) := by
      rw [start]
      split
      · exact .inr rfl
      · exact .inl rfl
    obtain ⟨-, l, led, ground⟩ := walk_of_makeAlong (.fixed fixed)
      (fun name mem => (List.mem_filter.mp mem).2) h
    exact ⟨rfl, l, led, ground⟩

/-- Whether the system takes a name in a directory. -/
def Fits (dir name : String) : Prop :=
  checkPath (Path.join dir name) = .ok () ∧ ¬ Path.longestName < name.utf8ByteSize

instance (dir name : String) : Decidable (Fits dir name) :=
  match checked : checkPath (Path.join dir name) with
  | .ok () => decidable_of_iff (¬ Path.longestName < name.utf8ByteSize) (by simp [Fits, checked])
  | .error _ => isFalse (by simp [Fits, checked])

/-- A plain name in a directory is resolved to the name below the directory, unless the system refuses
the path or the name. -/
theorem resolve_join (plain : Path.Plain name) (full : dir ≠ "")
    (noEnd : dir.toList.getLast? ≠ some '/') (led : tree.resolve dir = .ok l)
    (found : tree.node? l = some .directory) :
    tree.resolve (Path.join dir name) =
      match checkPath (Path.join dir name) with
      | .error fault => .error fault
      | .ok () =>
        if Path.longestName < name.utf8ByteSize then .error .nameTooLong else .ok (l ++ [name]) := by
  have parts : Path.parts (Path.join dir name) = Path.parts dir ++ [name] := by
    rw [Path.join_of_open plain full noEnd, Path.parts_append_slash, plain.parts]
  have from_start : start (Path.join dir name) = start dir := by
    rw [start, start, Path.isAbsolute_join plain]
  have walked : tree.walk (start dir) (Path.parts dir) = .ok l := by
    rw [resolve] at led
    cases checked : checkPath dir with
    | error fault =>
      rw [checked] at led
      cases led
    | ok u =>
      rw [checked] at led
      simp only at led
      rwa [if_neg full] at led
  have joined : Path.join dir name ≠ "" := by
    obtain ⟨tail, eq⟩ := Path.exists_join_eq plain dir
    rw [eq]
    intro none
    exact full (String.append_eq_empty_iff.mp none).1
  -- the walk to the directory is that of `led`: the last step and the length of the path are new
  rw [resolve]
  cases checkPath (Path.join dir name) with
  | error fault => rfl
  | ok u =>
    simp only
    rw [if_neg joined, parts, from_start, walk_append, walked]
    show tree.walk l [name] = _
    rw [walk_cons found, plain.leadsOn, if_neg (by decide), if_neg plain.noDots]
    rfl

/-- A plain name in a directory is resolved, if it fits, to the name below the directory. -/
theorem resolve_join_iff (plain : Path.Plain name) (full : dir ≠ "")
    (noEnd : dir.toList.getLast? ≠ some '/') (led : tree.resolve dir = .ok l)
    (found : tree.node? l = some .directory) :
    tree.resolve (Path.join dir name) = .ok m ↔ Fits dir name ∧ m = l ++ [name] := by
  rw [resolve_join plain full noEnd led found, Fits]
  cases checkPath (Path.join dir name) with
  | error fault => exact iff_of_false (by rintro ⟨⟩) (by rintro ⟨⟨⟨⟩, -⟩, -⟩)
  | ok u =>
    simp only
    by_cases long : Path.longestName < name.utf8ByteSize
    · rw [if_pos long]
      exact iff_of_false (by rintro ⟨⟩) fun h => h.1.2 long
    · rw [if_neg long]
      constructor
      · intro h
        cases h
        exact ⟨⟨trivial, long⟩, rfl⟩
      · rintro ⟨-, rfl⟩
        rfl

/-- A path is looked at if one that goes on after it is. -/
theorem checkPath_of_append {a b : String} (h : checkPath (a ++ b) = .ok ()) :
    checkPath a = .ok () := by
  rw [checkPath, String.toList_append, String.utf8ByteSize_append] at h
  rw [checkPath]
  split at h
  · cases h
  · rename_i noNul
    rw [if_neg fun mem => noNul (List.mem_append_left _ mem)]
    split at h
    · cases h
    · rw [if_neg (by omega)]

end RaftJournal.FileTree
