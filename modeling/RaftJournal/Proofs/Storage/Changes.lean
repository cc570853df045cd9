import RaftJournal.Proofs.Storage.Files

/-! # What changes in a tree, and where

What an operation on a file does when it succeeds is said once, by **`of_create`**, **`of_resize`** and
**`of_rename`**. So it changes a tree at the location of the file and nowhere else: two trees
**`DifferAt`** some locations, at most. A file that is moved to a path replaces the file there
(**`read_of_rename`**). Making directories puts them where nothing was
(**`furnishes_makeDirectories`**), and changes nothing where they are all there
(**`makeDirectories_of_resolve`**). -/

namespace RaftJournal.FileTree

variable {tree tree' : FileTree} {l m : Location} {node : Node} {path source target : String}

/-! ## one location -/

/-- What is put somewhere changes nothing anywhere else. -/
theorem node?_put_of_ne (other : m ≠ l) (node : Node) :
    (tree.put l node).node? m = tree.node? m := by
  by_cases fixed : IsFixed m
  · rw [node?_of_fixed fixed, node?_of_fixed fixed]
  · have apart : (m == l) = false := beq_eq_false_iff_ne.mpr other
    rw [node?_of_not_fixed fixed, node?_of_not_fixed fixed, put]
    split
    · -- on the entries; those that are replaced are at the other location before and after
      show (tree.nodes.map fun entry => if entry.1 = l then (l, node) else entry).lookup m = _
      induction tree.nodes with
      | nil => rfl
      | cons entry rest ih =>
        obtain ⟨k, found⟩ := entry
        by_cases there : k = l
        · rw [List.map_cons, if_pos there, List.lookup_cons, List.lookup_cons, there, apart, ih]
        · rw [List.map_cons, if_neg there, List.lookup_cons, List.lookup_cons, ih]
    · rw [List.lookup_append, List.lookup_cons, apart, List.lookup_nil, Option.or_none]

/-- What is taken away somewhere changes nothing anywhere else. -/
theorem node?_erase_of_ne (other : m ≠ l) : (tree.erase l).node? m = tree.node? m := by
  by_cases fixed : IsFixed m
  · rw [node?_of_fixed fixed, node?_of_fixed fixed]
  · rw [node?_of_not_fixed fixed, node?_of_not_fixed fixed]
    show (tree.nodes.filter (·.1 ≠ l)).lookup m = _
    induction tree.nodes with
    | nil => rfl
    | cons entry rest ih =>
      obtain ⟨k, found⟩ := entry
      by_cases there : k = l
      · have apart : (m == k) = false := beq_eq_false_iff_ne.mpr (there ▸ other)
        rw [List.filter_cons_of_neg (by simpa using there), List.lookup_cons, apart, ih]
      · rw [List.filter_cons_of_pos (by simpa using there), List.lookup_cons, List.lookup_cons, ih]

/-! ## what an operation does -/

/-- A file that is opened for writing is put, empty, where its path leads, with the stamp of the file that
was there or with the next one. -/
theorem of_create {handle : Handle} (done : tree.create path = .ok (handle, tree')) :
    tree.resolve path = .ok handle.location ∧ tree.node? handle.location ≠ some .directory ∧
      ∃ nextStamp,
        tree' = { tree.put handle.location (.file handle.stamp ⟨[], 0⟩) with nextStamp } := by
  rw [create] at done
  cases led : tree.resolve path with
  | error fault =>
    rw [led] at done
    cases done
  | ok l =>
    rw [led] at done
    simp only at done
    split at done
    next => cases done
    next stamp content found =>
      cases done
      exact ⟨rfl, by rw [found]; rintro ⟨⟩, tree.nextStamp, by rw [put]; split <;> rfl⟩
    next free =>
      cases done
      exact ⟨rfl, by rw [free]; rintro ⟨⟩, _, rfl⟩

/-- A file whose length is set is put in its own place. -/
theorem of_resize {length : Nat} (done : tree.resize path length = .ok tree') :
    ∃ l stamp content, tree.resolve path = .ok l ∧ tree.node? l = some (.file stamp content) ∧
      tree' = tree.put l (.file stamp (content.resize length)) := by
  rw [resize] at done
  cases led : tree.resolve path with
  | error fault =>
    rw [led] at done
    cases done
  | ok l =>
    rw [led] at done
    simp only at done
    split at done
    next => cases done
    next => cases done
    next stamp content found =>
      cases done
      exact ⟨l, stamp, content, rfl, found, rfl⟩

/-- A file that is renamed is taken away and put where there is no directory. -/
theorem of_rename (done : tree.rename source target = .ok tree') :
    ∃ l m stamp content, tree.resolve source = .ok l ∧ tree.resolve target = .ok m ∧
      tree.node? l = some (.file stamp content) ∧ tree.node? m ≠ some .directory ∧
      tree' = (tree.erase l).put m (.file stamp content) := by
  rw [rename] at done
  cases led : tree.resolve source with
  | error fault =>
    rw [led] at done
    cases done
  | ok l =>
    cases led' : tree.resolve target with
    | error fault =>
      rw [led, led'] at done
      cases done
    | ok m =>
      rw [led, led'] at done
      simp only at done
      split at done
      next => cases done
      next => cases done
      next => cases done
      next stamp content found other =>
        cases done
        exact ⟨l, m, stamp, content, rfl, rfl, found, other, rfl⟩

/-! ## some locations -/

/-- The trees differ at most at some locations. -/
def DifferAt (places : Location → Prop) (tree tree' : FileTree) : Prop :=
  ∀ l, ¬ places l → tree'.node? l = tree.node? l

variable {places : Location → Prop}

theorem DifferAt.refl (places : Location → Prop) (tree : FileTree) : DifferAt places tree tree :=
  fun _ _ => rfl

/-- Two changes at some places are a change at these places. -/
theorem DifferAt.trans {tree'' : FileTree} (h : DifferAt places tree tree')
    (h' : DifferAt places tree' tree'') : DifferAt places tree tree'' :=
  fun l outside => (h' l outside).trans (h l outside)

theorem ne_of_places (inside : places l) (outside : ¬ places m) : m ≠ l := by
  rintro rfl
  exact outside inside

/-- To put something at one of the places is a change there. -/
theorem differAt_put (inside : places l) (node : Node) : DifferAt places tree (tree.put l node) :=
  fun _ outside => node?_put_of_ne (ne_of_places inside outside) node

/-- To take something away at one of the places is a change there. -/
theorem differAt_erase (inside : places l) : DifferAt places tree (tree.erase l) :=
  fun _ outside => node?_erase_of_ne (ne_of_places inside outside)

/-- The stamp of the next file is nothing to the entries. -/
theorem DifferAt.with_stamp (h : DifferAt places tree tree') (nextStamp : Nat) :
    DifferAt places tree { tree' with nextStamp } := h

/-- A file that is opened for writing is at the location of its path. -/
theorem differAt_create {handle : Handle} (done : tree.create path = .ok (handle, tree'))
    (inside : ∀ l, tree.resolve path = .ok l → places l) :
    places handle.location ∧ tree.resolve path = .ok handle.location ∧
      DifferAt places tree tree' := by
  obtain ⟨led, -, nextStamp, rfl⟩ := of_create done
  have here := inside _ led
  exact ⟨here, led, (differAt_put here _).with_stamp nextStamp⟩

/-- To store a file through a handle is a change at its location. -/
theorem differAt_store {handle : Handle} (inside : places handle.location) (content : Content) :
    DifferAt places tree (tree.store handle content) := by
  rw [store]
  split
  · split
    · exact differAt_put inside _
    · exact .refl places tree
  · exact .refl places tree

/-- To set the length of a file is a change where its path leads. -/
theorem differAt_resize {length : Nat} (done : tree.resize path length = .ok tree')
    (inside : ∀ l, tree.resolve path = .ok l → places l) : DifferAt places tree tree' := by
  obtain ⟨l, stamp, content, led, -, rfl⟩ := of_resize done
  exact differAt_put (inside l led) _

/-- To rename a file is a change where the two paths lead. -/
theorem differAt_rename (done : tree.rename source target = .ok tree')
    (inside : ∀ l, tree.resolve source = .ok l → places l)
    (inside' : ∀ l, tree.resolve target = .ok l → places l) : DifferAt places tree tree' := by
  obtain ⟨l, m, stamp, content, led, led', -, -, rfl⟩ := of_rename done
  exact (differAt_erase (inside l led)).trans (differAt_put (inside' m led') _)

/-! ## files in their places -/

/-- What is put where no directory is, is there. -/
theorem node?_put_self (free : tree.node? l ≠ some .directory) (node : Node) :
    (tree.put l node).node? l = some node := by
  have fixed : ¬ IsFixed l := fun fixed => free (node?_of_fixed fixed)
  by_cases there : tree.nodes.any (·.1 = l)
  · rw [node?_of_not_fixed fixed, put, if_pos there]
    show (tree.nodes.map fun entry => if entry.1 = l then (l, node) else entry).lookup l = _
    generalize tree.nodes = nodes at there
    -- on the entries, up to the first one at the location
    induction nodes with
    | nil => cases there
    | cons entry rest ih =>
      obtain ⟨k, found⟩ := entry
      by_cases here : k = l
      · rw [List.map_cons, if_pos here, List.lookup_cons, beq_self_eq_true]
      · have apart : (l == k) = false := beq_eq_false_iff_ne.mpr (Ne.symm here)
        rw [List.any_cons, decide_eq_false here, Bool.false_or] at there
        rw [List.map_cons, if_neg here, List.lookup_cons, apart, ih there]
  · refine node?_put_of_none (node?_of_absent fixed fun entry mem same => ?_) node
    exact there (List.any_eq_true.mpr ⟨entry, mem, decide_eq_true same⟩)

/-- Nothing is where a file has been erased. -/
theorem node?_erase_self (free : tree.node? l ≠ some .directory) : (tree.erase l).node? l = none :=
  node?_of_absent (fun fixed => free (node?_of_fixed fixed)) fun _ mem =>
    of_decide_eq_true (List.mem_filter.mp mem).2

/-- A file takes the place of a file or of nothing, so that all paths lead where they led. -/
theorem leads_put (free : tree.node? l ≠ some .directory) (node : Node) :
    tree.Leads (tree.put l node) := by
  intro m found
  rw [node?_put_of_ne ?_ node]
  · exact found
  · rintro rfl
    exact free found

/-- Taking a file away leaves every directory in its place. -/
theorem leads_erase (free : tree.node? l ≠ some .directory) : tree.Leads (tree.erase l) := by
  intro m found
  rw [node?_erase_of_ne ?_]
  · exact found
  · rintro rfl
    exact free found

/-- A file that is put at a path is read there, whatever was there before. -/
theorem read_put (led : tree.resolve path = .ok l) (free : tree.node? l ≠ some .directory) (stamp : Nat)
    (content : Content) : (tree.put l (.file stamp content)).read path = .ok content :=
  read_of_node? ((leads_put free _).resolve led) (node?_put_self free _)

/-- **What is stored in a file that has been opened is read there.** -/
theorem read_of_create {handle : Handle} (done : tree.create path = .ok (handle, tree'))
    (content : Content) : (tree'.store handle content).read path = .ok content := by
  obtain ⟨led, free, nextStamp, rfl⟩ := of_create done
  generalize made : ({ tree.put handle.location (.file handle.stamp ⟨[], 0⟩) with nextStamp } :
    FileTree) = tree'
  have found : tree'.node? handle.location = some (.file handle.stamp ⟨[], 0⟩) := by
    rw [← made]
    exact node?_put_self free _
  have leads : tree.Leads tree' := by
    rw [← made]
    exact leads_put free _
  rw [store, found]
  simp only
  rw [if_pos trivial]
  exact read_put (leads.resolve led) (by rw [found]; rintro ⟨⟩) handle.stamp content

/-- A file that is cut, or filled with zeros, is read there as it is then. -/
theorem read_of_resize {length : Nat} (done : tree.resize path length = .ok tree') :
    ∃ content, tree.read path = .ok content ∧ tree'.read path = .ok (content.resize length) := by
  obtain ⟨l, stamp, content, led, found, rfl⟩ := of_resize done
  exact ⟨content, read_of_node? led found, read_put led (by rw [found]; rintro ⟨⟩) _ _⟩

/-- **A file that is moved to a path replaces what was there.** -/
theorem read_of_rename (done : tree.rename source target = .ok tree') :
    ∃ content, tree.read source = .ok content ∧ tree'.read target = .ok content := by
  obtain ⟨l, m, stamp, content, led, led', found, other, rfl⟩ := of_rename done
  have free : tree.node? l ≠ some .directory := by
    rw [found]
    rintro ⟨⟩
  have free' : (tree.erase l).node? m ≠ some .directory := by
    intro there
    by_cases same : m = l
    · rw [same, node?_erase_self free] at there
      cases there
    · rw [node?_erase_of_ne same] at there
      exact other there
  exact ⟨content, read_of_node? led found, read_put ((leads_erase free).resolve led') free' _ _⟩

/-! ## directories -/

/-- The second tree has directories at some locations where there was nothing, and is otherwise the
first. -/
def Furnishes (tree tree' : FileTree) : Prop :=
  ∀ l, tree'.node? l = tree.node? l ∨ tree.node? l = none ∧ tree'.node? l = some .directory

theorem Furnishes.refl (tree : FileTree) : tree.Furnishes tree := fun _ => .inl rfl

/-- What has been furnished twice has been furnished. -/
theorem Furnishes.trans {tree'' : FileTree} (h : tree.Furnishes tree')
    (h' : tree'.Furnishes tree'') : tree.Furnishes tree'' := by
  intro l
  rcases h l with same | ⟨none, made⟩
  · rw [← same]
    exact h' l
  · rcases h' l with same' | ⟨none', -⟩
    · exact .inr ⟨none, same'.trans made⟩
    · rw [made] at none'
      cases none'

/-- Where directories are added, all that was there is kept. -/
theorem Furnishes.keeps (h : tree.Furnishes tree') : tree.Keeps tree' := by
  intro l node found
  rcases h l with same | ⟨none, -⟩
  · exact same.trans found
  · rw [found] at none
    cases none

/-- No file is new. -/
theorem Furnishes.file (h : tree.Furnishes tree') {stamp : Nat} {content : Content}
    (found : tree'.node? l = some (.file stamp content)) :
    tree.node? l = some (.file stamp content) := by
  rcases h l with same | ⟨-, made⟩
  · exact same.symm.trans found
  · rw [made] at found
    cases found

/-- A directory is added where nothing was. -/
theorem furnishes_put (none : tree.node? l = none) : tree.Furnishes (tree.put l .directory) := by
  intro m
  by_cases same : m = l
  · rw [same]
    exact .inr ⟨none, node?_put_of_none none _⟩
  · exact .inl (node?_put_of_ne same _)

/-- Directories are made along a path only where nothing was. -/
theorem furnishes_makeAlong (made : Bool) (l : Location) (names : List String) :
    tree.Furnishes (tree.makeAlong made l names).2 := by
  induction names generalizing tree made l with
  | nil => exact .refl tree
  | cons name names ih =>
    rw [makeAlong]
    split
    · exact ih made (parent l)
    · split
      · exact .refl tree
      · split
        · exact ih made _
        · exact .refl tree
        · rename_i none
          exact (furnishes_put none).trans (ih true _)

/-- Making directories, all of them or some, puts them where nothing was. -/
theorem furnishes_makeDirectories (tree : FileTree) (path : String) :
    tree.Furnishes (tree.makeDirectories path).2 := by
  rw [makeDirectories]
  split
  · exact .refl tree
  · exact furnishes_makeAlong false _ _

/-- Along a walk to a directory nothing has to be made. -/
theorem makeAlong_of_walk {names : List String} (made : Bool) (led : tree.walk l names = .ok m)
    (found : tree.node? m = some .directory) :
    tree.makeAlong made l (names.filter Path.leadsOn) = (.ok (), tree) := by
  induction names generalizing l with
  | nil => rfl
  | cons name names ih =>
    have here := directory_of_walk led
    rw [walk_cons here] at led
    by_cases on : Path.leadsOn name
    · rw [on, if_neg (by decide)] at led
      rw [List.filter_cons_of_pos on, makeAlong]
      by_cases dots : name = ".."
      · rw [if_pos dots] at led ⊢
        exact ih led
      · rw [if_neg dots] at led ⊢
        by_cases long : Path.longestName < name.utf8ByteSize
        · rw [if_pos long] at led
          cases led
        · rw [if_neg long] at led ⊢
          -- the walk goes on from the name or ends in it, so it is a directory
          have next : tree.node? (l ++ [name]) = some .directory := by
            cases names with
            | nil =>
              cases led
              exact found
            | cons next rest => exact directory_of_walk led
          rw [next]
          exact ih led
    · rw [if_pos (by simpa using on)] at led
      rw [List.filter_cons_of_neg on]
      exact ih led

/-- Where a path leads to a directory, none has to be made. -/
theorem makeDirectories_of_resolve (led : tree.resolve path = .ok l)
    (found : tree.node? l = some .directory) : tree.makeDirectories path = (.ok (), tree) := by
  rw [resolve] at led
  rw [makeDirectories]
  cases checked : checkPath path with
  | error fault =>
    rw [checked] at led
    cases led
  | ok u =>
    rw [checked] at led
    simp only at led ⊢
    by_cases full : path = ""
    · rw [if_pos full] at led
      cases led
    · rw [if_neg full] at led
      exact makeAlong_of_walk false led found

/-! ## where nothing is -/

/-- Nothing is at a location or below. -/
def Clear (tree : FileTree) (l : Location) : Prop := ∀ entry ∈ tree.nodes, ¬ l <+: entry.1

/-- A walk along plain names leads to the location of these names. -/
theorem eq_of_walk {names : List String} (plain : ∀ name ∈ names, Path.Plain name)
    (led : tree.walk l names = .ok m) : m = l ++ names := by
  induction names generalizing l with
  | nil =>
    cases led
    exact (List.append_nil _).symm
  | cons name rest ih =>
    rw [List.forall_mem_cons] at plain
    rw [walk_cons (directory_of_walk led), plain.1.leadsOn, if_neg (by decide),
      if_neg plain.1.noDots] at led
    split at led
    · cases led
    · rw [ih plain.2 led, List.append_assoc, List.singleton_append]

/-- Where nothing is, directories are made along plain names, unless one of these is too long. -/
theorem makeAlong_of_clear {names : List String} (made : Bool)
    (plain : ∀ name ∈ names, Path.Plain name ∧ ¬ Path.longestName < name.utf8ByteSize)
    (clear : ∀ name ∈ names.head?, tree.Clear (l ++ [name])) :
    ∃ more, tree.makeAlong made l names = (.ok (), { tree with nodes := tree.nodes ++ more }) ∧
      ∀ entry ∈ more, entry.2 = .directory ∧
        ∃ front, front ≠ [] ∧ front <+: names ∧ entry.1 = l ++ front := by
  induction names generalizing tree l made with
  | nil => exact ⟨[], by rw [makeAlong, List.append_nil], fun entry mem => absurd mem List.not_mem_nil⟩
  | cons name rest ih =>
    rw [List.forall_mem_cons] at plain
    obtain ⟨⟨own, short⟩, others⟩ := plain
    have free := clear name rfl
    have absent : tree.Absent (l ++ [name]) := fun entry mem same =>
      free entry mem (same ▸ List.prefix_refl _)
    rw [makeAlong, if_neg own.noDots, if_neg short, node?_of_absent (not_isFixed_append own l) absent]
    simp only
    rw [put_of_absent absent]
    -- nothing is below the new directory either
    have clear' : ∀ next ∈ rest.head?,
        Clear { tree with nodes := tree.nodes ++ [(l ++ [name], .directory)] } (l ++ [name] ++ [next]) := by
      intro next found entry mem below
      rcases List.mem_append.mp mem with mem | mem
      · exact free entry mem ((List.prefix_append _ _).trans below)
      · rw [List.mem_singleton.mp mem] at below
        have longer := below.length_le
        simp only [List.length_append, List.length_singleton] at longer
        omega
    obtain ⟨more, done, dirs⟩ := ih true others clear'
    refine ⟨(l ++ [name], .directory) :: more, ?_, ?_⟩
    · rw [done]
      simp only [List.append_assoc, List.singleton_append]
    · rw [List.forall_mem_cons]
      refine ⟨⟨rfl, [name], List.cons_ne_nil _ _, ⟨rest, rfl⟩, rfl⟩, fun entry mem => ?_⟩
      obtain ⟨directory, front, -, along, same⟩ := dirs entry mem
      refine ⟨directory, name :: front, List.cons_ne_nil _ _, List.prefix_cons_iff.mpr
        (.inr ⟨front, rfl, along⟩), ?_⟩
      rw [same, List.append_assoc, List.singleton_append]

end RaftJournal.FileTree
