import RaftJournal.Proofs.Storage.Trees

/-! # The file that came last

A writer works on one file at a time, the last of the tree (**`FileTree.EndsIn`**). The operations on
files leave all other entries as they are: a file made comes last (**`FileTree.create_of_absent`**), and
a file cut, stored or renamed stays last (**`FileTree.resize_of_last`**, **`FileTree.store_of_last`**,
**`FileTree.rename_of_last`**).

* **`FileTree.HasFile`** says what is directly below a directory, by names and bytes alone. -/

namespace RaftJournal.FileTree

variable {tree : FileTree} {l m : Location} {path target : String} {stamp : Nat} {content : Content}
  {front : List (Location × Node)}

/-- A file that comes last can be read. -/
theorem read_of_node? (led : tree.resolve path = .ok l)
    (found : tree.node? l = some (.file stamp content)) : tree.read path = .ok content := by
  rw [read, led]
  simp only
  rw [found]

/-- What can be read can still be read when files have been added. -/
theorem Keeps.read {tree' : FileTree} (kept : tree.Keeps tree')
    (h : tree.read path = .ok content) : tree'.read path = .ok content := by
  rw [FileTree.read] at h ⊢
  cases resolved : tree.resolve path with
  | error fault =>
    rw [resolved] at h
    cases h
  | ok l =>
    rw [resolved] at h
    simp only at h
    cases found : tree.node? l with
    | none =>
      rw [found] at h
      cases h
    | some node =>
      rw [found] at h
      rw [kept.resolve resolved]
      simp only
      rw [kept _ _ found]
      exact h

/-- Directly below a directory is a file with the name and the bytes. -/
def HasFile (tree : FileTree) (dir name : String) (bytes : Bytes) : Prop :=
  ∃ l stamp content, tree.resolve dir = .ok l ∧
    tree.node? (l ++ [name]) = some (.file stamp content) ∧ content.toList = bytes

theorem hasFile_iff {dir name : String} {bytes : Bytes} (led : tree.resolve dir = .ok l) :
    tree.HasFile dir name bytes ↔
      ∃ stamp content, tree.node? (l ++ [name]) = some (.file stamp content) ∧
        content.toList = bytes := by
  constructor
  · rintro ⟨m, stamp, content, led', found, same⟩
    cases led.symm.trans led'
    exact ⟨stamp, content, found, same⟩
  · rintro ⟨stamp, content, found, same⟩
    exact ⟨l, stamp, content, led, found, same⟩

/-- A file stays where it is. -/
theorem Keeps.hasFile {tree' : FileTree} (kept : tree.Keeps tree') {dir name : String} {bytes : Bytes}
    (h : tree.HasFile dir name bytes) : tree'.HasFile dir name bytes := by
  obtain ⟨l, stamp, content, led, found, same⟩ := h
  exact ⟨l, stamp, content, kept.resolve led, kept _ _ found, same⟩

/-- A new file is empty and comes last. -/
theorem create_of_absent (led : tree.resolve path = .ok l) (fixed : ¬ IsFixed l)
    (absent : tree.Absent l) :
    tree.create path =
      .ok (⟨l, tree.nextStamp⟩,
        { nodes := tree.nodes ++ [(l, .file tree.nextStamp ⟨[], 0⟩)]
          nextStamp := tree.nextStamp + 1 }) := by
  rw [create, led]
  simp only
  rw [node?_of_absent fixed absent]
  simp only
  rw [put_of_absent absent]

theorem resize_of_last (led : tree.resolve path = .ok l) (fixed : ¬ IsFixed l)
    (h : tree.EndsIn front l (.file stamp content)) (length : Nat) :
    tree.resize path length =
      .ok { tree with nodes := front ++ [(l, .file stamp (content.resize length))] } := by
  rw [resize, led]
  simp only
  rw [node?_of_last fixed h]
  simp only
  rw [put_of_last h]

/-- What is stored in the file with the right stamp replaces its bytes. -/
theorem store_of_last (fixed : ¬ IsFixed l) (h : tree.EndsIn front l (.file stamp content))
    (bytes : Content) :
    tree.store ⟨l, stamp⟩ bytes = { tree with nodes := front ++ [(l, .file stamp bytes)] } := by
  rw [store, node?_of_last fixed h]
  simp only
  rw [if_pos trivial, put_of_last h]

/-- A file moved to where nothing was comes last again. -/
theorem rename_of_last (led : tree.resolve path = .ok l) (fixed : ¬ IsFixed l)
    (h : tree.EndsIn front l (.file stamp content)) (led' : tree.resolve target = .ok m)
    (fixed' : ¬ IsFixed m) (absent : tree.Absent m) :
    tree.rename path target =
      .ok { tree with nodes := front ++ [(m, .file stamp content)] } := by
  -- what is put after the erasure comes last, since the target was free before it
  have absent' : (tree.erase l).Absent m := by
    rw [erase_of_last h]
    intro entry mem
    refine absent entry ?_
    rw [h.1]
    exact List.mem_append_left _ mem
  rw [rename, led, led']
  simp only
  rw [node?_of_last fixed h, node?_of_absent fixed' absent]
  simp only
  rw [put_of_absent absent', erase_of_last h]

end RaftJournal.FileTree
