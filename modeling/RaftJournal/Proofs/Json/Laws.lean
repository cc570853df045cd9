import Mathlib.Data.List.Forall2
import RaftJournal.Json.Format
import RaftJournal.Proofs.Json.Values

/-! # JSON values are read back

Tokens **`Stand`** for a value when it is read from them, whatever follows them, and when none of its
values starts like the end of a list. A JSON format is **`Format.Faithful`** when what it writes for a
value stands for it and can be written as a text. An optional value needs more, since `null` stands for
its absence: **`Format.Present`**. There is one lemma for each way to build a format; records are in
`RaftJournal.Proofs.Json.Records`. -/

namespace RaftJournal.Json

/-- The tokens are read as the value, whatever follows them. -/
structure Stand {α : Type} (read : Reader α) (a : α) (tokens : List Token) : Prop where
  reads : ∀ rest, read (tokens ++ rest) = .ok (a, rest)
  /-- They can be those of an element of a list. -/
  opens : Opens tokens
  /-- They are told apart in a text. -/
  apart : Token.Apart tokens

/-- A text that spells the tokens of a value is read as the value. -/
theorem Stand.parse {α : Type} {format : Format α} {a : α} {tokens : List Token} {bytes : Bytes}
    (h : Stand format.read a tokens) (scanned : Token.scan bytes = tokens) :
    format.parse bytes = .ok a := by
  have reads := h.reads []
  rw [List.append_nil] at reads
  rw [Format.parse, scanned, reads]

/-- Values are read back from their tokens. -/
structure Format.Faithful {α : Type} (format : Format α) : Prop where
  /-- A value is read back from its tokens, whatever follows them. -/
  read_write : ∀ (a : α) (rest : List Token), format.read (format.write a ++ rest) = .ok (a, rest)
  /-- A value has a first token, which does not close a list. -/
  opens : ∀ a : α, ∃ token more, format.write a = token :: more ∧ token ≠ .rightBracket
  /-- The tokens of a value can be written as a text. -/
  clean : ∀ a : α, Token.Clean (format.write a)

/-- No value is written as `null` or starts like it. -/
def Format.Present {α : Type} (format : Format α) : Prop :=
  ∀ a : α, (format.write a).head? ≠ some .null

namespace Format

/-- What a faithful format writes for a value stands for it. -/
theorem Faithful.stand {α : Type} {format : Format α} (h : format.Faithful) (a : α) :
    Stand format.read a (format.write a) :=
  ⟨h.read_write a, h.opens a, (h.clean a).apart⟩

/-- A value is what a whole text of its tokens holds. -/
theorem Faithful.parse_print {α : Type} {format : Format α} (h : format.Faithful) (a : α) :
    format.parse (Utf8.ofString (format.print a)) = .ok a := by
  refine (h.stand a).parse ?_
  rw [print, Utf8.ofString_ofList, Token.scan_render (h.clean a)]

/-! ## plain values -/

/-- A value of one token is read back if its token is. -/
theorem faithful_of_token {α : Type} {format : Format α} {take : Token → Except Fault α}
    (token : α → Token) (reads : format.read = readToken take)
    (writes : ∀ a, format.write a = [token a]) (back : ∀ a, take (token a) = .ok a)
    (formed : ∀ a, (token a).WellFormed) (opens : ∀ a, token a ≠ .rightBracket) :
    format.Faithful := by
  refine ⟨fun a rest => ?_, fun a => ⟨token a, [], writes a, opens a⟩, fun a => ?_⟩
  · rw [reads, writes, List.singleton_append, readToken, back]
    rfl
  · rw [writes]
    exact .singleton (formed a)

/-- Integers are read back if their range lies in that of the tokens and holds all of them. -/
theorem faithful_integer {α : Type} {expected : String} {low high : Int} {ofInt : Int → α}
    {toInt : α → Int} (range : ∀ a, low ≤ toInt a ∧ toInt a ≤ high)
    (inverse : ∀ a, ofInt (toInt a) = a) (least : -(1 <<< 63) ≤ low) (most : high < UInt64.size) :
    (integer expected low high ofInt toInt).Faithful := by
  refine faithful_of_token (fun a => .number (.integer (toInt a))) rfl (fun _ => rfl) (fun a => ?_)
    (fun a => ?_) fun a => by rintro ⟨⟩
  · simp only
    rw [if_pos (range a), inverse]
  · exact ⟨Int.le_trans least (range a).1, Int.lt_of_le_of_lt (range a).2 most⟩

/-- Words of 64 bits are read back. -/
theorem faithful_word64 : word64.Faithful := by
  refine faithful_integer (fun w => ?_) (fun w => ?_) (by decide) (by decide)
  · have := w.toNat_lt_size
    omega
  · rw [Int.toNat_natCast, UInt64.ofNat_toNat]

/-- Words of 32 bits are read back. -/
theorem faithful_word32 : word32.Faithful := by
  refine faithful_integer (fun w => ?_) (fun w => ?_) (by decide) (by decide)
  · have := w.toNat_lt_size
    omega
  · rw [Int.toNat_natCast, UInt32.ofNat_toNat]

/-- Signed integers are read back. -/
theorem faithful_int64 : int64.Faithful :=
  faithful_integer (fun i => ⟨i.minValue_le_toInt, i.toInt_le⟩) Int64.ofInt_toInt (by decide)
    (by decide)

/-- Flags are read back. -/
theorem faithful_flag : flag.Faithful :=
  faithful_of_token .boolean rfl (fun _ => rfl) (fun _ => rfl) (fun _ => trivial)
    fun _ => by rintro ⟨⟩

/-- Texts are read back. -/
theorem faithful_text : text.Faithful :=
  faithful_of_token (fun s => .text (.ok s)) rfl (fun _ => rfl) (fun _ => rfl)
    (fun _ => trivial) fun _ => by rintro ⟨⟩

/-! ## optional values -/

/-- A value that may be absent is read back if no value is written like an absent one. -/
theorem Faithful.option {α : Type} {format : Format α} (h : format.Faithful)
    (present : format.Present) : format.option.Faithful := by
  refine ⟨fun a? rest => ?_, fun a? => ?_, fun a? => ?_⟩
  · cases a? with
    | none => rfl
    | some a =>
      obtain ⟨token, more, eq, -⟩ := h.opens a
      have clean := h.clean a
      have back := h.read_write a rest
      have other := present a
      simp only [Format.option]
      rw [eq] at back clean other ⊢
      -- the first token is neither `null` nor a broken one
      cases token with
      | null => exact absurd rfl other
      | broken lead read skipped => exact absurd clean.1 id
      | _ =>
        simp only [List.cons_append] at back ⊢
        rw [back]
        rfl
  · cases a? with
    | none => exact ⟨.null, [], rfl, by rintro ⟨⟩⟩
    | some a => exact h.opens a
  · cases a? with
    | none => exact .singleton trivial
    | some a => exact h.clean a

/-! ## lists -/

end Format

/-- A list that is not closed at once has a first element. -/
theorem nextElement_first {token : Token} (opens : token ≠ .rightBracket) (rest : List Token) :
    nextElement true (token :: rest) = .ok (true, token :: rest) := by
  cases token with
  | rightBracket => exact absurd rfl opens
  | _ => rfl

/-- Behind a comma there is another element. -/
theorem nextElement_comma {token : Token} (opens : token ≠ .rightBracket) (rest : List Token) :
    nextElement false (.comma :: token :: rest) = .ok (true, token :: rest) := by
  cases token with
  | rightBracket => exact absurd rfl opens
  | _ => rfl

/-- Every element but the first comes after a comma. -/
theorem length_lt_writeMore (parts : List (List Token)) :
    parts.length < (Format.writeMore id parts).length := by
  induction parts with
  | nil => exact Nat.zero_lt_one
  | cons part parts ih =>
    rw [Format.writeMore, List.length_cons, List.length_cons, List.length_append]
    omega

section Elements

variable {α : Type} {read : Reader α} {l : List α} {parts : List (List Token)}

/-- Elements are read from their tokens, from the second on. -/
theorem readElements_writeMore (h : List.Forall₂ (Stand read) l parts) {bound : Nat}
    (enough : parts.length < bound) (rest : List Token) :
    readElements read bound false (Format.writeMore id parts ++ rest) = .ok (l, rest) := by
  -- on the elements; the bound on their number falls with them and does not run out
  induction h generalizing bound with
  | nil =>
    cases bound with
    | zero => exact absurd enough (Nat.not_lt_zero _)
    | succ bound => rfl
  | @cons a part l parts stand others ih =>
    cases bound with
    | zero => exact absurd enough (Nat.not_lt_zero _)
    | succ bound =>
      obtain ⟨token, more, eq, opens⟩ := stand.opens
      have reads := stand.reads (Format.writeMore id parts ++ rest)
      rw [eq, List.cons_append] at reads
      rw [Format.writeMore, id, eq, List.cons_append, List.cons_append, List.cons_append,
        List.append_assoc, readElements, nextElement_comma opens]
      simp only
      rw [reads]
      simp only
      rw [ih (Nat.lt_of_succ_lt_succ enough)]
      rfl

/-- A list is read from the tokens of its elements. -/
theorem stand_writeParts {format : Format α} (h : List.Forall₂ (Stand format.read) l parts) :
    Stand format.list.read l (writeParts parts) := by
  have apart : ∀ part ∈ parts, Token.Apart part := by
    induction h with
    | nil => exact List.forall_mem_nil _
    | cons stand _ ih => exact List.forall_mem_cons.mpr ⟨stand.apart, ih⟩
  refine ⟨fun rest => ?_, opens_writeParts parts, apart_writeParts apart⟩
  cases h with
  | nil => rfl
  | @cons a part l parts stand others =>
    obtain ⟨token, more, eq, opens⟩ := stand.opens
    have reads := stand.reads (Format.writeMore id parts ++ rest)
    -- the bound is the number of tokens left, of which there are more than elements
    have enough : parts.length < (part ++ (Format.writeMore id parts ++ rest)).length := by
      have := length_lt_writeMore parts
      simp only [List.length_append]
      omega
    show readElements format.read ((part ++ Format.writeMore id parts ++ rest).length + 1) true
      (part ++ Format.writeMore id parts ++ rest) = _
    rw [List.append_assoc]
    generalize (part ++ (Format.writeMore id parts ++ rest)).length = bound at enough ⊢
    rw [eq, List.cons_append] at reads ⊢
    rw [readElements, nextElement_first opens]
    simp only
    rw [reads]
    simp only
    rw [readElements_writeMore others enough]
    rfl

end Elements

namespace Format

/-- The elements from the second on are made of their own tokens. -/
theorem writeMore_eq {α : Type} (write : α → List Token) (l : List α) :
    writeMore write l = writeMore id (l.map write) := by
  induction l with
  | nil => rfl
  | cons a l ih => rw [writeMore, ih, List.map_cons, writeMore, id]

/-- A list is made of the tokens of its elements. -/
theorem writeList_eq {α : Type} (write : α → List Token) (l : List α) :
    writeList write l = writeParts (l.map write) := by
  cases l with
  | nil => rfl
  | cons a l =>
    rw [writeList, writeMore_eq]
    rfl

/-- The elements from the second on can be written as a text, whatever stands in them. -/
theorem clean_writeMore {α : Type} {write : α → List Token} (h : ∀ a, Token.Clean (write a))
    (l : List α) : Token.Clean (writeMore write l) := by
  induction l with
  | nil => exact .singleton trivial
  | cons a l ih =>
    refine .cons trivial rfl (.append (h a) ih ?_)
    intro next mem
    cases l <;> (obtain rfl := Option.some.inj mem; rfl)

/-- A list of values that are read back is read back. -/
theorem Faithful.list {α : Type} {format : Format α} (h : format.Faithful) :
    format.list.Faithful := by
  have stand (l : List α) : Stand format.list.read l (format.list.write l) := by
    have elements : List.Forall₂ (Stand format.read) l (l.map format.write) := by
      rw [List.forall₂_map_right_iff, List.forall₂_same]
      exact fun a _ => h.stand a
    show Stand _ l (writeList format.write l)
    rw [writeList_eq]
    exact stand_writeParts elements
  refine ⟨fun l => (stand l).reads, fun l => (stand l).opens, fun l => ?_⟩
  cases l with
  | nil => exact .cons trivial rfl (.singleton trivial)
  | cons a l =>
    refine .cons trivial rfl (.append (h.clean a) (clean_writeMore h.clean l) ?_)
    intro next mem
    cases l <;> (obtain rfl := Option.some.inj mem; rfl)

/-! ## choices -/

/-- A choice is read back if every value is found under its own name. -/
theorem faithful_choice {α : Type} {names : Names α}
    (named : ∀ a, names.find? (names.name a) = some a) : (choice names).Faithful := by
  refine ⟨fun a rest => ?_, fun a => ⟨_, _, rfl, by rintro ⟨⟩⟩, fun a => ?_⟩
  · show (names.choose (names.name a)).map _ = _
    rw [Names.choose, named]
    rfl
  · exact .singleton trivial

/-- Values of another type are read back through a type with the same values. -/
theorem Faithful.imap {α β : Type} {format : Format α} (h : format.Faithful) {forth : α → β}
    {back : β → α} (inverse : ∀ b, forth (back b) = b) : (format.imap forth back).Faithful := by
  refine ⟨fun b rest => ?_, fun b => h.opens (back b), fun b => h.clean (back b)⟩
  show (format.read (format.write (back b) ++ rest)).map _ = _
  rw [h.read_write]
  show Except.ok (forth (back b), rest) = _
  rw [inverse]

end Format

end RaftJournal.Json
