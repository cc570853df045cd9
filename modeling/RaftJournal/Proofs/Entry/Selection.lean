import RaftJournal.Entry.Kind
import RaftJournal.Proofs.Text.Digits

/-! # Selecting a type of entries

What a user writes to select a type is looked at without the white space around it
(**`Blank.trim_eq_iff`**). A numeral is read as a code, with any number of digits; anything else is looked up
among the names. The two never overlap, since names start with letters
(**`EntryType.not_names_of_spellsInt`**), so a text selects what it says in one of the two ways and nothing
else: **`EntryType.selected_by_code_or_name`**. -/

namespace RaftJournal

namespace Blank

/-! ## both ends -/

/-- The middle of the text is what is left without white space at either end: the text is the middle
between white space, and the middle neither starts nor ends with any. -/
structure Middle (text middle : List Char) : Prop where
  between : ∃ before after, text = before ++ middle ++ after ∧ before.all isBlank ∧ after.all isBlank
  starts : ∀ c ∈ middle.head?, ¬ isBlank c
  ends : ∀ c ∈ middle.getLast?, ¬ isBlank c

/-- Nothing is dropped from a text that does not start with white space. -/
theorem dropWhile_eq_self {text : List Char} (h : ∀ c ∈ text.head?, ¬ isBlank c) :
    text.dropWhile isBlank = text := by
  cases text with
  | nil => rfl
  | cons c rest => exact List.dropWhile_cons_of_neg (h c rfl)

/-- White space in front is dropped. -/
theorem dropWhile_append_of_all {before : List Char} (h : before.all isBlank) (text : List Char) :
    (before ++ text).dropWhile isBlank = text.dropWhile isBlank :=
  List.dropWhile_append_of_pos (List.all_eq_true.mp h)

/-- Trimming leaves the middle of a text. -/
theorem trim_eq_of_middle {text middle : List Char} (h : Middle text middle) : trim text = middle := by
  obtain ⟨⟨before, after, rfl, front, back⟩, starts, ends⟩ := h
  have reversed : after.reverse.all isBlank := by rwa [List.all_reverse]
  have last : ∀ c ∈ middle.reverse.head?, ¬ isBlank c := by rwa [List.head?_reverse]
  rw [trim, List.append_assoc, dropWhile_append_of_all front]
  cases middle with
  | nil =>
    have all : after.dropWhile isBlank = [] := by
      rw [← List.append_nil after, dropWhile_append_of_all back]
      rfl
    rw [List.nil_append, all]
    rfl
  | cons c rest =>
    have visible : (c :: rest ++ after).dropWhile isBlank = c :: rest ++ after :=
      dropWhile_eq_self starts
    rw [visible, List.reverse_append, dropWhile_append_of_all reversed, dropWhile_eq_self last,
      List.reverse_reverse]

/-- The white space at the front of a text and the rest. -/
theorem exists_front (text : List Char) :
    ∃ before, text = before ++ text.dropWhile isBlank ∧ before.all isBlank ∧
      ∀ c ∈ (text.dropWhile isBlank).head?, ¬ isBlank c := by
  refine ⟨text.takeWhile isBlank, List.takeWhile_append_dropWhile.symm, List.all_takeWhile, ?_⟩
  intro c mem
  have none := List.head?_dropWhile_not isBlank text
  rw [mem] at none
  rwa [Bool.not_eq_true]

/-- What trimming leaves is a middle of the text. -/
theorem middle_trim (text : List Char) : Middle text (trim text) := by
  obtain ⟨before, split, front, starts⟩ := exists_front text
  obtain ⟨after, split', back, ends⟩ := exists_front (text.dropWhile isBlank).reverse
  -- what is left is the reverse of what is left of the reverse
  have whole : text.dropWhile isBlank = trim text ++ after.reverse := by
    rw [trim, ← List.reverse_append, ← split', List.reverse_reverse]
  refine ⟨⟨before, after.reverse, ?_, front, by rwa [List.all_reverse]⟩, ?_, ?_⟩
  · rw [List.append_assoc, ← whole]
    exact split
  · intro c mem
    apply starts c
    rw [whole, List.head?_append, mem]
    rfl
  · rwa [trim, List.getLast?_reverse]

/-- A text has one middle, which is what trimming leaves. -/
theorem trim_eq_iff {text middle : List Char} : trim text = middle ↔ Middle text middle :=
  ⟨fun same => same ▸ middle_trim text, trim_eq_of_middle⟩

end Blank

namespace EntryType

variable {t : EntryType} {text : String} {chosen : List Char}

/-! ## codes and names -/

/-- A number selects the type that has it as its code. -/
theorem ofCode?_eq_some_iff {n : Int} : ofCode? n = some t ↔ n = t.code := by
  refine ⟨fun found => ?_, fun same => same ▸ ofCode?_code t⟩
  have same := List.find?_some found
  exact (of_decide_eq_true same).symm

/-- A name selects the type that has it. -/
theorem named?_eq_some_iff {name : String} : named? name = some t ↔ name = t.name := by
  refine ⟨fun found => ?_, fun same => same ▸ named?_name t⟩
  have same := List.find?_some found
  exact (of_decide_eq_true same).symm

/-- Codes are from −1 to 14. -/
theorem code_bounds (t : EntryType) : -1 ≤ t.code ∧ t.code ≤ 14 := by
  cases t with
  | of kind => cases kind <;> decide
  | unmatched => decide

/-- So they fit into 32 bits. -/
theorem code_inside (t : EntryType) :
    Int32.minValue.toInt ≤ t.code ∧ t.code ≤ Int32.maxValue.toInt :=
  ⟨Int.le_trans (by decide) t.code_bounds.1, Int.le_trans t.code_bounds.2 (by decide)⟩

/-- Names start with a letter. -/
theorem exists_head_name (t : EntryType) : ∃ c rest, t.name.toList = c :: rest ∧ 'a' ≤ c := by
  cases t with
  | of kind => cases kind <;> exact ⟨_, _, rfl, by decide⟩
  | unmatched => exact ⟨_, _, rfl, by decide⟩

/-- No letter becomes an underscore when it is put into lower case. -/
theorem toLower_eq_underscore_iff (c : Char) : c.toLower = '_' ↔ c = '_' := by
  unfold Char.toLower
  split
  · rename_i upper
    have low : 65 ≤ c.val.toNat := UInt32.le_iff_toNat_le.mp upper.1
    have high : c.val.toNat ≤ 90 := UInt32.le_iff_toNat_le.mp upper.2
    have moved : (c.val + 32).toNat = c.val.toNat + 32 := by
      rw [UInt32.toNat_add]
      refine Nat.mod_eq_of_lt ?_
      show c.val.toNat + 32 < 4294967296
      omega
    refine ⟨fun same => ?_, fun same => ?_⟩
    · have : (c.val + 32).toNat = 95 := congrArg Char.toNat same
      omega
    · have : c.val.toNat = 95 := congrArg Char.toNat same
      omega
  · exact Iff.rfl

/-- The text is the name of the type, in upper or lower case and with hyphens or underscores. -/
def Names (chosen : List Char) (t : EntryType) : Prop :=
  (chosen.map Char.toLower).map (fun c => if c = '_' then '-' else c) = t.name.toList

/-- A text names a type just where its spelling in lower case, with hyphens, is the name. -/
theorem names_iff : Names chosen t ↔ normalize chosen = t.name := by
  have same (c : Char) :
      (if c.toLower = '_' then '-' else c.toLower) = if c = '_' then '-' else c.toLower := by
    simp only [toLower_eq_underscore_iff]
  rw [Names, List.map_map, normalize, ← String.toList_inj, String.toList_ofList]
  simp only [Function.comp_def, same]

/-- A numeral is no name: it starts with a sign or a digit. -/
theorem not_names_of_spellsInt {n : Int} (h : Decimal.SpellsInt chosen n) : ¬ Names chosen t := by
  obtain ⟨c, rest, rfl, lead⟩ := h.exists_head
  have early : c < 'A' := by
    rcases lead with rfl | rfl | digit
    · decide
    · decide
    · exact Nat.lt_of_le_of_lt (Decimal.range_of_isDigit digit).2 (by decide)
  have own : c.toLower = c := dif_neg fun upper => Char.not_le.mpr early upper.1
  have plain : c ≠ '_' := fun same => absurd (same ▸ early) (by decide)
  obtain ⟨d, more, name, letter⟩ := t.exists_head_name
  intro named
  rw [Names, name, List.map_cons, List.map_cons, own, if_neg plain] at named
  obtain ⟨rfl, -⟩ := List.cons.inj named
  have low : c.toNat < 65 := early
  have high : 97 ≤ c.toNat := letter
  omega

/-! ## selections -/

/-- The text selects the type: between white space there is a numeral of its code, or its name. -/
def Selects (text : String) (t : EntryType) : Prop :=
  ∃ chosen, Blank.Middle text.toList chosen ∧ (Decimal.SpellsInt chosen t.code ∨ Names chosen t)

/-- Only what is left without the white space counts. -/
theorem selects_iff :
    Selects text t ↔
      Decimal.SpellsInt (Blank.trim text.toList) t.code ∨ Names (Blank.trim text.toList) t := by
  constructor
  · rintro ⟨chosen, middle, h⟩
    rwa [Blank.trim_eq_of_middle middle]
  · exact fun h => ⟨_, Blank.middle_trim _, h⟩

/-- A text is read as a type just where it selects it. -/
theorem parse_eq_some_iff : parse text = some t ↔ Selects text t := by
  rw [selects_iff, parse]
  cases read : Decimal.int32? (Blank.trim text.toList) with
  | some n =>
    obtain ⟨numeral, -⟩ := Decimal.int32?_eq_some_iff.mp read
    simp only
    rw [ofCode?_eq_some_iff, or_iff_left (not_names_of_spellsInt numeral)]
    refine ⟨fun same => same ▸ numeral, fun spelled => ?_⟩
    have again := Decimal.int32?_eq_some_iff.mpr ⟨spelled, t.code_inside⟩
    exact Option.some.inj (read.symm.trans again)
  | none =>
    -- a numeral of a code would have been read
    have none : ¬ Decimal.SpellsInt (Blank.trim text.toList) t.code := by
      intro spelled
      have again := Decimal.int32?_eq_some_iff.mpr ⟨spelled, t.code_inside⟩
      rw [read] at again
      cases again
    simp only
    rw [named?_eq_some_iff, or_iff_right none, names_iff]

theorem select_eq_ok_iff : select text = .ok t ↔ Selects text t := by
  rw [← parse_eq_some_iff, select]
  cases parse text with
  | some u => simp
  | none => simp

theorem select_eq_error_iff {unknown : Unknown} :
    select text = .error unknown ↔ unknown = ⟨text⟩ ∧ ∀ t, ¬ Selects text t := by
  simp only [← parse_eq_some_iff, select]
  cases parse text with
  | some u => simp
  | none => simp [eq_comm]

/-- No text selects two types. -/
theorem Selects.unique {u : EntryType} (h : Selects text t) (h' : Selects text u) : t = u :=
  Except.ok.inj ((select_eq_ok_iff.mpr h).symm.trans (select_eq_ok_iff.mpr h'))

/-- A numeral selects no type but by its value. -/
theorem Selects.code_eq {n : Int} (h : Selects text t) (middle : Blank.Middle text.toList chosen)
    (numeral : Decimal.SpellsInt chosen n) : t.code = n := by
  rw [selects_iff, Blank.trim_eq_of_middle middle] at h
  exact (h.resolve_right (not_names_of_spellsInt numeral)).unique numeral

/-- **A type is selected by its code or by its name.** Between white space a text has a numeral, that is a
sign or none and digits, whose value is the code of the type, or the name of the type in upper or lower case,
where an underscore stands for a hyphen. Every other text is given back as it is. So is a numeral that is no
code, however long it is; and no text selects two types. -/
theorem selected_by_code_or_name (text : String) :
    (∀ t, select text = .ok t ↔ Selects text t) ∧
      (∀ unknown, select text = .error unknown ↔ unknown = ⟨text⟩ ∧ ∀ t, ¬ Selects text t) ∧
      (∀ chosen n, Blank.Middle text.toList chosen → Decimal.SpellsInt chosen n →
        n < -1 ∨ 14 < n → select text = .error ⟨text⟩) ∧
      ∀ t u, Selects text t → Selects text u → t = u := by
  refine ⟨fun t => select_eq_ok_iff, fun unknown => select_eq_error_iff,
    fun chosen n middle numeral outside => ?_, fun t u => Selects.unique⟩
  refine select_eq_error_iff.mpr ⟨rfl, fun t selects => ?_⟩
  have code := selects.code_eq middle numeral
  have bounds := t.code_bounds
  omega

example : select "\u00a0+0000000000000000000006\n" = .ok (.of .updateInode) := by rfl

end EntryType

end RaftJournal
