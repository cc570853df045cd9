import Mathlib.Data.List.TakeDrop
import RaftJournal.Proofs.Text.Digits
import RaftJournal.Segment.Name

/-! # Names of segments

The name of a segment says which segment it is: it is read back (**`SegmentName.parse_render`**), so
two segments of one name are the same (**`SegmentName.render_injective`**). A closed segment must not
end before it starts.

Other names are read as well: the indices may be spelled with a plus sign and with zeros in front
(**`SegmentName.parse_eq_closed_iff`**, **`SegmentName.parse_eq_open_iff`**). All of them begin alike and
have no slash (**`SegmentName.of_parse`**). -/

namespace RaftJournal.SegmentName

open Decimal

/-- A segment that does not end before it starts. -/
def Sound (name : SegmentName) : Prop := ∀ last, name.last = some last → name.start ≤ last

/-- The name of a closed segment with its indices spelled as given. -/
def closedAs (start last : List Char) : String :=
  String.ofList (closedLead ++ (start ++ '-' :: last))

/-- The name of an open segment with its index spelled as given. -/
def openAs (start : List Char) : String := String.ofList (openLead ++ start)

/-- The name of a closed segment: its lead, and two numbers with a hyphen between them. -/
theorem toList_closedName (start last : UInt64) :
    (closedName start last).toList =
      closedLead ++ (Nat.toDigits 10 start.toNat ++ '-' :: Nat.toDigits 10 last.toNat) := by
  have parts : closedName start last = "log_" ++ toString start ++ "-" ++ toString last := rfl
  rw [parts, String.toList_append, String.toList_append, String.toList_append, toList_toString,
    toList_toString, List.append_assoc, List.append_assoc]
  rfl

/-- The name of an open segment: its lead, and one number. -/
theorem toList_openName (start : UInt64) :
    (openName start).toList = openLead ++ Nat.toDigits 10 start.toNat := by
  have parts : openName start = "log_inprogress_" ++ toString start := rfl
  rw [parts, String.toList_append, toList_toString]
  rfl

theorem stripLead?_append (lead text : List Char) : stripLead? lead (lead ++ text) = some text := by
  induction lead with
  | nil => rw [List.nil_append, stripLead?]
  | cons c lead ih => rw [List.cons_append, stripLead?, if_pos rfl, ih]

theorem eq_append_of_stripLead? {lead text rest : List Char} (h : stripLead? lead text = some rest) :
    text = lead ++ rest := by
  induction lead generalizing text with
  | nil => exact Option.some.inj h
  | cons l lead ih =>
    cases text with
    | nil => cases h
    | cons c text =>
      rw [stripLead?] at h
      split at h
      · rename_i same
        rw [same, ih h]
        rfl
      · cases h

/-- A closed segment is named by the digits of its indices. -/
theorem closedName_eq (start last : UInt64) :
    closedName start last = closedAs (Nat.toDigits 10 start.toNat) (Nat.toDigits 10 last.toNat) := by
  rw [closedAs, ← toList_closedName, String.ofList_toList]

/-- An open segment is named by the digits of its first index. -/
theorem openName_eq (start : UInt64) : openName start = openAs (Nat.toDigits 10 start.toNat) := by
  rw [openAs, ← toList_openName, String.ofList_toList]

/-! ## reading -/

variable {start last : List Char} {first final : UInt64}

/-- The name of a closed segment goes on otherwise than with the letter that an open one has there. -/
theorem stripLead?_openLead {text : List Char} (other : text.head? ≠ some 'i') :
    stripLead? openLead (closedLead ++ text) = none := by
  cases text with
  | nil => rfl
  | cons c rest =>
    have letter : c ≠ 'i' := fun same => other (congrArg some same)
    show (if c = 'i' then _ else none) = none
    rw [if_neg letter]

/-- What stands before the first hyphen, and the rest. -/
theorem span_hyphen {text : List Char} (free : '-' ∉ text) (rest : List Char) :
    (text ++ '-' :: rest).span (· ≠ '-') = (text, '-' :: rest) := by
  have others : ∀ c ∈ text, decide (c ≠ '-') := by
    intro c mem
    rw [decide_eq_true_eq]
    rintro rfl
    exact free mem
  rw [List.span_eq_takeWhile_dropWhile, List.takeWhile_append_of_pos others,
    List.dropWhile_append_of_pos others]
  simp

/-- A closed segment is read from its name however its indices are spelled. -/
theorem parse_closedAs (starts : Spells start first) (ends : Spells last final)
    (le : first ≤ final) : parse (closedAs start last) = some ⟨first, some final⟩ := by
  -- an open name is tried first; it does not match, since no spelling has a letter
  have closed : stripLead? openLead (closedLead ++ (start ++ '-' :: last)) = none := by
    refine stripLead?_openLead ?_
    cases start with
    | nil => exact absurd rfl starts.ne_nil
    | cons c start =>
      intro letter
      exact starts.not_mem (by decide) (by decide) (List.mem_of_mem_head? (l := c :: start) letter)
  rw [parse, closedAs, String.toList_ofList, closed]
  simp only
  rw [stripLead?_append, Option.bind_some, parseRange,
    span_hyphen (starts.not_mem (by decide) (by decide))]
  simp only
  rw [word64?_eq_some_iff.mpr starts, word64?_eq_some_iff.mpr ends]
  simp only
  rw [if_pos le]

/-- So is an open one. -/
theorem parse_openAs (starts : Spells start first) : parse (openAs start) = some ⟨first, none⟩ := by
  rw [parse, openAs, String.toList_ofList, stripLead?_append]
  simp only
  rw [word64?_eq_some_iff.mpr starts, Option.map_some]

/-- Nothing is read but these names. -/
theorem exists_of_parse {name : String} {found : SegmentName} (h : parse name = some found) :
    (∃ start last final, name = closedAs start last ∧ Spells start found.start ∧ Spells last final ∧
        found.last = some final ∧ found.start ≤ final) ∨
      ∃ start, name = openAs start ∧ Spells start found.start ∧ found.last = none := by
  rw [parse] at h
  -- the lead of an open name is looked for first
  cases opened : stripLead? openLead name.toList with
  | some start =>
    rw [opened] at h
    obtain ⟨first, read, rfl⟩ := Option.map_eq_some_iff.mp h
    refine .inr ⟨start, ?_, word64?_eq_some_iff.mp read, rfl⟩
    rw [openAs, ← eq_append_of_stripLead? opened, String.ofList_toList]
  | none =>
    rw [opened] at h
    obtain ⟨text, closed, range⟩ := Option.bind_eq_some_iff.mp h
    rw [parseRange, List.span_eq_takeWhile_dropWhile] at range
    -- the text behind the lead is split at its first hyphen, which it must have
    have split := List.takeWhile_append_dropWhile (p := fun c => decide (c ≠ '-')) (l := text)
    have stop := List.head_dropWhile_not (fun c => decide (c ≠ '-')) (l := text)
    generalize text.takeWhile _ = start at range split
    generalize text.dropWhile _ = tail at range split stop
    cases tail with
    | nil => cases range
    | cons hyphen last =>
      obtain rfl : hyphen = '-' :=
        Decidable.not_not.mp (of_decide_eq_false (stop (List.cons_ne_nil _ _)))
      simp only at range
      split at range
      · rename_i first final read read'
        split at range
        · rename_i le
          cases range
          refine .inl ⟨start, last, final, ?_, word64?_eq_some_iff.mp read,
            word64?_eq_some_iff.mp read', rfl, le⟩
          rw [closedAs, split, ← eq_append_of_stripLead? closed, String.ofList_toList]
        · cases range
      · cases range

/-- **Closed segments** are read from their names with spelled indices and from nothing else. -/
theorem parse_eq_closed_iff {name : String} :
    parse name = some ⟨first, some final⟩ ↔
      first ≤ final ∧ ∃ start last, Spells start first ∧ Spells last final ∧
        name = closedAs start last := by
  constructor
  · intro read
    rcases exists_of_parse read with ⟨start, last, _, rfl, starts, ends, same, le⟩ | ⟨_, -, -, none⟩
    · cases same
      exact ⟨le, start, last, starts, ends, rfl⟩
    · cases none
  · rintro ⟨le, start, last, starts, ends, rfl⟩
    exact parse_closedAs starts ends le

/-- **Open segments** are read from their names with a spelled index and from nothing else. -/
theorem parse_eq_open_iff {name : String} :
    parse name = some ⟨first, none⟩ ↔ ∃ start, Spells start first ∧ name = openAs start := by
  constructor
  · intro read
    rcases exists_of_parse read with ⟨_, _, _, -, -, -, some, -⟩ | ⟨start, rfl, starts, -⟩
    · cases some
    · exact ⟨start, starts, rfl⟩
  · rintro ⟨start, starts, rfl⟩
    exact parse_openAs starts

/-- A closed segment has the name that is written for it just where its indices are spelled plainly. -/
theorem closedAs_eq_closedName_iff (starts : Spells start first) (ends : Spells last final) :
    closedAs start last = closedName first final ↔ Plain start ∧ Plain last := by
  rw [starts.plain_iff, ends.plain_iff, closedName_eq, closedAs, closedAs]
  constructor
  · intro same
    have behind := List.append_cancel_left (String.ofList_injective same)
    -- both spellings end at the only hyphen
    have parts := congrArg (fun text => text.span (· ≠ '-')) behind
    simp only [span_hyphen (starts.not_mem (c := '-') (by decide) (by decide)),
      span_hyphen ((spells_toDigits first).not_mem (c := '-') (by decide) (by decide))] at parts
    obtain ⟨same, rest⟩ := Prod.mk.inj parts
    exact ⟨same, (List.cons.inj rest).2⟩
  · rintro ⟨rfl, rfl⟩
    rfl

/-- A spelling of an index gives the name that a writer gives just when it has no needless zero or
sign. -/
theorem openAs_eq_openName_iff (starts : Spells start first) :
    openAs start = openName first ↔ Plain start := by
  rw [starts.plain_iff, openName_eq, openAs, openAs]
  exact ⟨fun same => List.append_cancel_left (String.ofList_injective same), fun same => by rw [same]⟩

/-- A segment is read back from its name. -/
theorem parse_render {name : SegmentName} (h : name.Sound) : parse name.render = some name := by
  obtain ⟨start, last⟩ := name
  cases last with
  | none =>
    show parse (openName start) = _
    rw [openName_eq, parse_openAs (spells_toDigits start)]
  | some last =>
    show parse (closedName start last) = _
    rw [closedName_eq, parse_closedAs (spells_toDigits start) (spells_toDigits last) (h last rfl)]

/-- Different segments have different names. -/
theorem render_injective {name other : SegmentName} (h : name.Sound) (h' : other.Sound)
    (same : name.render = other.render) : name = other := by
  have read := parse_render h
  rw [same, parse_render h'] at read
  exact (Option.some.inj read).symm

/-! ## as parts of paths -/

/-- A name that is read as that of a segment has its lead, and no slash. -/
theorem of_parse {name : String} {found : SegmentName} (h : parse name = some found) :
    closedLead <+: name.toList ∧ '/' ∉ name.toList := by
  rcases exists_of_parse h with ⟨start, last, _, rfl, starts, ends, -, -⟩ | ⟨start, rfl, starts, -⟩
  · rw [closedAs, String.toList_ofList, List.mem_append, List.mem_append, List.mem_cons]
    refine ⟨List.prefix_append _ _, ?_⟩
    rintro (mem | mem | mem | mem)
    · exact absurd mem (by decide)
    · exact starts.not_mem (by decide) (by decide) mem
    · exact absurd mem (by decide)
    · exact ends.not_mem (by decide) (by decide) mem
  · have leads : closedLead <+: openLead := by decide
    rw [openAs, String.toList_ofList, List.mem_append]
    refine ⟨leads.trans (List.prefix_append _ _), ?_⟩
    rintro (mem | mem)
    · exact absurd mem (by decide)
    · exact starts.not_mem (by decide) (by decide) mem

/-- No name of a segment has a slash. -/
theorem slash_not_mem_render (name : SegmentName) : '/' ∉ name.render.toList := by
  obtain ⟨start, last⟩ := name
  have digits (n : Nat) : '/' ∉ Nat.toDigits 10 n :=
    fun mem => ne_of_mem_toDigits mem (d := '/') (by decide) rfl
  cases last with
  | none =>
    show '/' ∉ (openName start).toList
    rw [toList_openName, List.mem_append]
    rintro (mem | mem)
    · exact absurd mem (by decide)
    · exact digits _ mem
  | some last =>
    show '/' ∉ (closedName start last).toList
    rw [toList_closedName, List.mem_append, List.mem_append, List.mem_cons]
    rintro (mem | mem | mem | mem)
    · exact absurd mem (by decide)
    · exact digits _ mem
    · exact absurd mem (by decide)
    · exact digits _ mem

end RaftJournal.SegmentName
