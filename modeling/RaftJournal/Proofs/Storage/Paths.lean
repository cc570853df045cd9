import RaftJournal.Segment.Directory

/-! # Names put behind paths

A **`Plain`** name is one that stays one name: it has no slash and is neither empty nor made of dots.
Put behind a path, it is one more step at the end (**`steps_join`**), and the path starts where it did
(**`isAbsolute_join`**). The directory of a group is its root with three plain names behind it
(**`steps_groupDirectory`**). -/

namespace RaftJournal

namespace Parts

/-- A separator between two texts separates their parts. -/
theorem split_append (separator : Char) (a b : List Char) :
    split separator (a ++ separator :: b) = split separator a ++ split separator b := by
  induction a with
  | nil => simp [split]
  | cons c a ih =>
    rw [List.cons_append, split, split]
    by_cases h : c = separator
    · rw [if_pos h, if_pos h, ih, List.cons_append]
    · rw [if_neg h, if_neg h, ih]
      cases hs : split separator a with
      | nil => exact absurd hs (split_ne_nil separator a)
      | cons part parts => rfl

/-- A text without separators is its only part. -/
theorem split_of_not_mem {separator : Char} {text : List Char} (h : separator ∉ text) :
    split separator text = [text] := by
  induction text with
  | nil => rfl
  | cons c rest ih =>
    rw [List.mem_cons, not_or] at h
    rw [split, if_neg (Ne.symm h.1), ih h.2]

end Parts

namespace Path

/-- A name that stays one name behind any path. -/
structure Plain (name : String) : Prop where
  noSlash : '/' ∉ name.toList
  full : name ≠ ""
  noDot : name ≠ "."
  noDots : name ≠ ".."

variable {dir name : String}

/-- A name without a slash is plain if it has a character that is no dot. -/
theorem plain_of_mem {c : Char} (noSlash : '/' ∉ name.toList) (mem : c ∈ name.toList)
    (noDot : c ≠ '.') : Plain name := by
  refine ⟨noSlash, ?_, ?_, ?_⟩
  · rintro rfl
    cases mem
  · rintro rfl
    exact noDot (List.mem_singleton.mp mem)
  · rintro rfl
    rcases List.mem_cons.mp mem with same | mem
    · exact noDot same
    · exact noDot (List.mem_singleton.mp mem)

/-- A plain name is a step: it is not passed over like an empty part or a dot. -/
theorem Plain.leadsOn (h : Plain name) : leadsOn name := by
  rw [Path.leadsOn, decide_eq_true_eq]
  exact ⟨h.full, h.noDot⟩

/-- A plain name is not the slash of the top directory. -/
theorem Plain.ne_slash (h : Plain name) : name ≠ "/" := by
  rintro rfl
  exact h.noSlash (by decide)

/-- A plain name does not start at the top. -/
theorem Plain.not_isAbsolute (h : Plain name) : isAbsolute name = false := by
  rw [isAbsolute, decide_eq_false_iff_not]
  intro head
  exact h.noSlash (List.mem_of_mem_head? head)

/-- A plain name is its only part. -/
theorem Plain.parts (h : Plain name) : parts name = [name] := by
  rw [Path.parts, Parts.split_of_not_mem h.noSlash]
  simp

/-! ## joining -/

/-- A plain name is put behind a slash, unless there is one or nothing before it. -/
theorem join_of_plain (h : Plain name) (dir : String) :
    join dir name =
      if dir = "" ∨ dir.toList.getLast? = some '/' then dir ++ name else dir ++ "/" ++ name := by
  rw [join, h.not_isAbsolute, if_neg Bool.false_ne_true]

/-- Behind a path that neither is empty nor ends in a slash, a plain name comes after a slash. -/
theorem join_of_open (h : Plain name) (full : dir ≠ "")
    (noEnd : dir.toList.getLast? ≠ some '/') : join dir name = dir ++ "/" ++ name := by
  rw [join_of_plain h, if_neg (by rintro (h | h) <;> contradiction)]

/-- A path goes on in the path of a name behind it. -/
theorem exists_join_eq (h : Plain name) (dir : String) : ∃ tail, join dir name = dir ++ tail := by
  rw [join_of_plain h]
  split
  · exact ⟨name, rfl⟩
  · exact ⟨"/" ++ name, by rw [String.append_assoc]⟩

/-- The parts of two paths with a slash between them are those of the one and then those of the
other. -/
theorem parts_append_slash (dir name : String) :
    parts (dir ++ "/" ++ name) = parts dir ++ parts name := by
  have text : (dir ++ "/" ++ name).toList = dir.toList ++ '/' :: name.toList := by
    rw [String.toList_append, String.toList_append, List.append_assoc]
    rfl
  rw [parts, text, Parts.split_append, List.map_append]
  rfl

/-- A plain name is one more step. -/
theorem steps_join (h : Plain name) (dir : String) : steps (join dir name) = steps dir ++ [name] := by
  have last : (parts name).filter leadsOn = [name] := by
    rw [h.parts, List.filter_cons_of_pos h.leadsOn, List.filter_nil]
  rw [join_of_plain h]
  split
  -- no slash is put between: the path is empty or has one at its end already
  · rename_i bare
    rcases bare with rfl | slash
    · rw [String.empty_append, steps, last]
      rfl
    · obtain ⟨front, text⟩ := List.getLast?_eq_some_iff.mp slash
      -- such a path is the one before its slash, with an empty name behind it
      have dir_eq : dir = String.ofList front ++ "/" ++ "" := by
        apply String.toList_inj.mp
        rw [text]
        simp
      have name_eq : dir ++ name = String.ofList front ++ "/" ++ name := by
        rw [dir_eq, String.append_empty]
      have nothing : (parts "").filter leadsOn = [] := rfl
      rw [name_eq, dir_eq, steps, steps, parts_append_slash, parts_append_slash,
        List.filter_append, List.filter_append, last, nothing, List.append_nil]
  · rw [steps, parts_append_slash, List.filter_append, last]
    rfl

/-- With a plain name behind it, a path starts where it did. -/
theorem isAbsolute_join (h : Plain name) (dir : String) :
    isAbsolute (join dir name) = isAbsolute dir := by
  by_cases full : dir = ""
  · rw [join_of_plain h, if_pos (.inl full), full, String.empty_append, h.not_isAbsolute]
    rfl
  · obtain ⟨tail, eq⟩ := exists_join_eq h dir
    obtain ⟨c, rest, text⟩ := List.exists_cons_of_ne_nil
      (fun none => full (String.toList_eq_nil_iff.mp none) : dir.toList ≠ [])
    rw [eq, isAbsolute, isAbsolute, String.toList_append, text]
    rfl

/-- The path of a name is not empty and does not end in a slash. -/
theorem getLast?_join (h : Plain name) (dir : String) :
    (join dir name).toList.getLast? = name.toList.getLast? := by
  have full : name.toList ≠ [] := fun none => h.full (String.toList_eq_nil_iff.mp none)
  obtain ⟨c, last⟩ := List.getLast?_isSome.mpr full |> Option.isSome_iff_exists.mp
  rw [join_of_plain h]
  split
  · rw [String.toList_append, List.getLast?_append, last, Option.some_or]
  · rw [String.toList_append, List.getLast?_append, last, Option.some_or]

end Path

/-! ## the directory of a group -/

/-- The text of an identifier is a plain name. -/
theorem Uuid.plain_render (id : Uuid) : Path.Plain id.render := by
  have digit (n : Nat) : Nat.digitChar (n % 16) ≠ '/' := by
    have bound : n % 16 < 16 := Nat.mod_lt _ (by decide)
    generalize n % 16 = m at bound
    revert m
    decide
  have clear : '/' ∉ id.digits := by
    rw [digits, List.mem_map]
    rintro ⟨i, -, eq⟩
    exact digit _ eq
  have hyphen : '-' ∈ id.render.toList := by
    rw [render, String.toList_ofList]
    exact List.mem_append_right _ List.mem_cons_self
  refine Path.plain_of_mem ?_ hyphen (by decide)
  -- between the hyphens there are digits
  rw [render, String.toList_ofList]
  have part (n m : Nat) : '/' ∉ (id.digits.drop n).take m :=
    fun mem => clear (List.mem_of_mem_drop (List.mem_of_mem_take mem))
  simp only [groupSizes, cut, Parts.join, List.drop_drop, List.mem_append, List.mem_cons, not_or]
  exact ⟨part 0 8, by decide, part 8 4, by decide, part 12 4, by decide, part 16 4, by decide,
    part 20 12⟩

/-- The name of the directory of all groups is plain. -/
theorem plain_raft : Path.Plain "raft" := ⟨by decide, by decide, by decide, by decide⟩

/-- The name of the directory of the segments is plain. -/
theorem plain_current : Path.Plain "current" := ⟨by decide, by decide, by decide, by decide⟩

/-- The directory of a group is three steps behind its root. -/
theorem steps_groupDirectory (root : String) (group : Uuid) :
    Path.steps (groupDirectory root group) =
      Path.steps root ++ ["raft", group.render, "current"] := by
  rw [groupDirectory, Path.steps_join plain_current, Path.steps_join group.plain_render,
    Path.steps_join plain_raft, List.append_assoc, List.append_assoc]
  rfl

/-- The directory of a group starts where its root does. -/
theorem isAbsolute_groupDirectory (root : String) (group : Uuid) :
    Path.isAbsolute (groupDirectory root group) = Path.isAbsolute root := by
  rw [groupDirectory, Path.isAbsolute_join plain_current, Path.isAbsolute_join group.plain_render,
    Path.isAbsolute_join plain_raft]

/-- The path of the directory of a group goes on from that of its root. -/
theorem exists_groupDirectory_eq (root : String) (group : Uuid) :
    ∃ tail, groupDirectory root group = root ++ tail := by
  obtain ⟨a, ha⟩ := Path.exists_join_eq plain_raft root
  obtain ⟨b, hb⟩ := Path.exists_join_eq group.plain_render (Path.join root "raft")
  obtain ⟨c, hc⟩ :=
    Path.exists_join_eq plain_current (Path.join (Path.join root "raft") group.render)
  refine ⟨a ++ b ++ c, ?_⟩
  rw [groupDirectory, hc, hb, ha, String.append_assoc, String.append_assoc, String.append_assoc]

/-- The path of the directory of a group ends in the last letter of `current`, and so not in a
slash. -/
theorem getLast?_groupDirectory (root : String) (group : Uuid) :
    (groupDirectory root group).toList.getLast? = some 't' := by
  rw [groupDirectory, Path.getLast?_join plain_current]
  rfl

/-- The path of the directory of a group is never empty, also under the empty root. -/
theorem groupDirectory_ne_empty (root : String) (group : Uuid) : groupDirectory root group ≠ "" := by
  intro h
  have last := getLast?_groupDirectory root group
  rw [h] at last
  exact absurd last (by decide)

end RaftJournal
