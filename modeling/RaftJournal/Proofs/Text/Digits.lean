import RaftJournal.Text.Decimal

/-! # Numbers and their digits

Numbers are written with `Nat.toDigits 10`; reading the digits gives the number back
(**`Decimal.natural?_toDigits`**), for a word as well (**`Decimal.word64?_toDigits`**).

A word is read from all of its spellings, with a plus sign and with zeros in front
(**`Decimal.word64?_eq_some_iff`**); only one of them is **`Decimal.Plain`**, the one that is written. A
signed number is read from its spellings if it fits into 32 bits (**`Decimal.int32?_eq_some_iff`**). -/

namespace RaftJournal.Decimal

/-- The digits are those of the core library. -/
theorem isDigit_iff (c : Char) : isDigit c = c.isDigit := by
  rw [isDigit, Char.isDigit]
  rfl

/-- The value of digits is that of the core library. -/
theorem value_eq (digits : List Char) : value digits = Nat.ofDigitChars 10 digits 0 := by
  rw [value, Nat.ofDigitChars_eq_foldl]
  congr 1
  funext n c
  rw [digit, Nat.mul_comm]

/-- A number is the value of its digits. -/
@[simp] theorem value_toDigits (n : Nat) : value (Nat.toDigits 10 n) = n := by
  rw [value_eq, Nat.ofDigitChars_ten_toDigits]

/-- Only digits are written. -/
theorem isDigit_of_mem {n : Nat} {c : Char} (h : c ∈ Nat.toDigits 10 n) : isDigit c := by
  rw [isDigit_iff]
  exact Nat.isDigit_of_mem_toDigits (by decide) (by decide) h

theorem all_isDigit_toDigits (n : Nat) : (Nat.toDigits 10 n).all isDigit := by
  rw [List.all_eq_true]
  exact fun c mem => isDigit_of_mem mem

/-- The digits of a number do not hold a character that is no digit. -/
theorem ne_of_mem_toDigits {n : Nat} {c d : Char} (h : c ∈ Nat.toDigits 10 n)
    (other : isDigit d = false) : c ≠ d := by
  rintro rfl
  rw [isDigit_of_mem h] at other
  exact absurd other (by decide)

/-- A number is read back from its digits. -/
@[simp] theorem natural?_toDigits (n : Nat) : natural? (Nat.toDigits 10 n) = some n := by
  rw [natural?, if_pos ⟨Nat.toDigits_ne_nil, all_isDigit_toDigits n⟩, value_toDigits]

/-- A word is printed by its digits. -/
theorem toList_toString (n : UInt64) : (toString n).toList = Nat.toDigits 10 n.toNat :=
  Nat.toList_repr

/-- A word is read back from its digits. -/
@[simp] theorem word64?_toDigits (n : UInt64) : word64? (Nat.toDigits 10 n.toNat) = some n := by
  have bound := n.toNat_lt
  rw [word64?]
  · rw [natural?_toDigits, Option.bind_some, if_pos bound, UInt64.ofNat_toNat]
  · intro rest text
    have := isDigit_of_mem (text ▸ List.mem_cons_self : '+' ∈ Nat.toDigits 10 n.toNat)
    exact absurd this (by decide)

/-- A zero comes first only where it is the only digit. -/
theorem toDigits_of_leading_zero {n : Nat} {more : List Char}
    (h : Nat.toDigits 10 n = '0' :: more) : more = [] := by
  induction n using Nat.strongRecOn generalizing more with
  | ind n ih =>
    by_cases one : n < 10
    · rw [Nat.toDigits_of_lt_base one] at h
      exact (List.cons.inj h).2.symm
    · rw [Nat.toDigits_of_base_le (by decide) (by omega)] at h
      cases front : Nat.toDigits 10 (n / 10) with
      | nil => exact absurd front Nat.toDigits_ne_nil
      | cons c higher =>
        rw [front] at h
        obtain ⟨rfl, -⟩ := List.cons.inj h
        -- then the higher digits are a lone zero, and the number has one digit after all
        obtain rfl := ih (n / 10) (by omega) front
        have none := value_toDigits (n / 10)
        rw [front] at none
        have : value ['0'] = 0 := rfl
        omega

/-- The digits follow one another from `0` on. -/
theorem range_of_isDigit {c : Char} (h : isDigit c) : 48 ≤ c.toNat ∧ c.toNat ≤ 57 := by
  rw [isDigit, Bool.and_eq_true, decide_eq_true_eq, decide_eq_true_eq] at h
  exact h

/-- A digit counts less than ten. -/
theorem digit_lt {c : Char} (h : isDigit c) : digit c < 10 := by
  obtain ⟨-, high⟩ := range_of_isDigit h
  show c.toNat - 48 < 10
  omega

/-- A digit is what is written for its value. -/
theorem toDigits_digit {c : Char} (h : isDigit c) : Nat.toDigits 10 (digit c) = [c] := by
  have table : ∀ n < 10, Nat.digitChar n = Char.ofNat (n + 48) := by decide
  have back : digit c + 48 = c.toNat := Nat.sub_add_cancel (range_of_isDigit h).1
  rw [Nat.toDigits_of_lt_base (digit_lt h), table _ (digit_lt h), back, Char.ofNat_toNat]

/-- Digits behind those of a number other than zero make a longer number. -/
theorem toDigits_append {digits : List Char} (all : digits.all isDigit) {n : Nat} (pos : 0 < n) :
    Nat.toDigits 10 n ++ digits =
      Nat.toDigits 10 (digits.foldl (fun n c => n * 10 + digit c) n) := by
  induction digits generalizing n with
  | nil => exact List.append_nil _
  | cons c digits ih =>
    rw [List.all_cons, Bool.and_eq_true] at all
    have one : Nat.toDigits 10 n ++ [c] = Nat.toDigits 10 (n * 10 + digit c) := by
      rw [← toDigits_digit all.1, Nat.toDigits_append_toDigits (by decide) pos (digit_lt all.1),
        Nat.mul_comm]
    rw [List.foldl_cons, ← ih all.2 (by omega), ← one, List.append_assoc, List.singleton_append]

/-! ## spellings -/

/-- The text spells the word: digits that have its value, with a plus sign or none. -/
def Spells (text : List Char) (n : UInt64) : Prop :=
  ∃ digits, (text = digits ∨ text = '+' :: digits) ∧ digits ≠ [] ∧ digits.all isDigit ∧
    value digits = n.toNat

/-- There is nothing but digits in a spelling, and a plus sign. -/
theorem Spells.of_mem {text : List Char} {n : UInt64} (h : Spells text n) {c : Char} (mem : c ∈ text) :
    c = '+' ∨ isDigit c := by
  obtain ⟨digits, rfl | rfl, -, all, -⟩ := h
  · exact .inr (List.all_eq_true.mp all c mem)
  · exact (List.mem_cons.mp mem).imp_right (List.all_eq_true.mp all c)

/-- A character that is neither a digit nor a plus sign is in no spelling. -/
theorem Spells.not_mem {text : List Char} {n : UInt64} (h : Spells text n) {c : Char} (sign : c ≠ '+')
    (other : isDigit c = false) : c ∉ text := by
  intro mem
  rcases h.of_mem mem with rfl | digit
  · exact sign rfl
  · rw [other] at digit
    cases digit

/-- No number is spelled by the empty text. -/
theorem Spells.ne_nil {text : List Char} {n : UInt64} (h : Spells text n) : text ≠ [] := by
  obtain ⟨digits, rfl | rfl, some, -, -⟩ := h
  · exact some
  · exact List.cons_ne_nil _ _

/-- Neither a plus sign comes first nor a zero that could be left out. -/
def Plain (text : List Char) : Prop :=
  text.head? ≠ some '+' ∧ (text.head? = some '0' → text = ['0'])

/-- A number is read from digits, one at least, and is their value. -/
theorem natural?_eq_some_iff {text : List Char} {n : Nat} :
    natural? text = some n ↔ text ≠ [] ∧ text.all isDigit ∧ value text = n := by
  rw [natural?]
  split
  · rename_i h
    rw [Option.some_inj]
    exact ⟨fun same => ⟨h.1, h.2, same⟩, fun h => h.2.2⟩
  · rename_i h
    exact ⟨fun none => absurd none.symm (Option.some_ne_none n), fun all => absurd ⟨all.1, all.2.1⟩ h⟩

/-- A word is read from its spellings and from nothing else. -/
theorem word64?_eq_some_iff {text : List Char} {n : UInt64} :
    word64? text = some n ↔ Spells text n := by
  have digits {text : List Char} :
      ((natural? text).bind fun n => if n < UInt64.size then some (UInt64.ofNat n) else none) = some n ↔
        text ≠ [] ∧ text.all isDigit ∧ value text = n.toNat := by
    rw [Option.bind_eq_some_iff, ← natural?_eq_some_iff]
    constructor
    · rintro ⟨m, read, fits⟩
      split at fits
      · rename_i small
        rw [read, ← Option.some.inj fits, UInt64.toNat_ofNat_of_lt' small]
      · cases fits
    · intro read
      exact ⟨n.toNat, read, by rw [if_pos n.toNat_lt_size, UInt64.ofNat_toNat]⟩
  unfold word64?
  split
  · rename_i rest
    rw [digits]
    constructor
    · exact fun h => ⟨rest, .inr rfl, h⟩
    · rintro ⟨own, same | same, some, all, sum⟩
      · rw [← same, List.all_cons] at all
        exact absurd all (by simp [isDigit])
      · rw [(List.cons.inj same).2]
        exact ⟨some, all, sum⟩
  · rename_i other
    rw [digits]
    constructor
    · exact fun h => ⟨text, .inl rfl, h⟩
    · rintro ⟨own, rfl | rfl, h⟩
      · exact h
      · exact absurd rfl (other own)

/-- The digits that are written for a word spell it. -/
theorem spells_toDigits (n : UInt64) : Spells (Nat.toDigits 10 n.toNat) n :=
  word64?_eq_some_iff.mp (word64?_toDigits n)

/-- The digits of a number have no needless zero before them. -/
theorem plain_toDigits (n : Nat) : Plain (Nat.toDigits 10 n) := by
  obtain ⟨c, more, digits⟩ := List.exists_cons_of_ne_nil (Nat.toDigits_ne_nil (n := n) (b := 10))
  rw [digits]
  refine ⟨fun plus => ?_, fun zero => ?_⟩
  · obtain rfl := Option.some.inj plus
    exact ne_of_mem_toDigits (digits ▸ List.mem_cons_self) (by decide) rfl
  · obtain rfl := Option.some.inj zero
    rw [toDigits_of_leading_zero digits]

/-- A word has one plain spelling, the digits that are written for it. -/
theorem Spells.plain_iff {text : List Char} {n : UInt64} (h : Spells text n) :
    Plain text ↔ text = Nat.toDigits 10 n.toNat := by
  refine ⟨fun plain => ?_, fun written => written ▸ plain_toDigits n.toNat⟩
  obtain ⟨digits, rfl | rfl, some, all, sum⟩ := h
  · obtain ⟨c, more, rfl⟩ := List.exists_cons_of_ne_nil some
    rw [← sum]
    by_cases zero : c = '0'
    · obtain rfl : more = [] := (List.cons.inj (plain.2 (congrArg _ zero))).2
      rw [zero]
      rfl
    · rw [List.all_cons, Bool.and_eq_true] at all
      have first : value (c :: more) = more.foldl (fun n c => n * 10 + digit c) (digit c) := by
        rw [value, List.foldl_cons, Nat.zero_mul, Nat.zero_add]
      have pos : 0 < digit c := by
        refine Nat.pos_of_ne_zero fun none => zero ?_
        have := toDigits_digit all.1
        rw [none] at this
        exact (List.cons.inj this).1.symm
      rw [first, ← toDigits_append all.2 pos, toDigits_digit all.1, List.singleton_append]
  · exact absurd rfl plain.1

/-! ## signed numbers -/

/-- The text spells the number: digits that have its value, with a plus sign or none, or behind a minus
sign digits that have its value but for the sign. -/
def SpellsInt (text : List Char) (n : Int) : Prop :=
  ∃ digits, digits ≠ [] ∧ digits.all isDigit ∧
    ((text = digits ∨ text = '+' :: digits) ∧ n = value digits ∨
      text = '-' :: digits ∧ n = -value digits)

/-- The value with a sign is that of digits, if it is between the bounds. -/
theorem inRange_eq_some_iff {text : List Char} {sign n : Int} :
    int32?.inRange (natural? text) sign = some n ↔
      (text ≠ [] ∧ text.all isDigit ∧ n = sign * value text) ∧
        Int32.minValue.toInt ≤ n ∧ n ≤ Int32.maxValue.toInt := by
  rw [int32?.inRange, Option.bind_eq_some_iff]
  constructor
  · rintro ⟨m, read, fits⟩
    obtain ⟨filled, all, rfl⟩ := natural?_eq_some_iff.mp read
    simp only at fits
    split at fits
    · rename_i inside
      cases fits
      exact ⟨⟨filled, all, rfl⟩, inside⟩
    · cases fits
  · rintro ⟨⟨filled, all, rfl⟩, inside⟩
    exact ⟨value text, natural?_eq_some_iff.mpr ⟨filled, all, rfl⟩, if_pos inside⟩

/-- A sign is no digit. -/
theorem not_all_isDigit_of_sign {sign : Char} {rest : List Char} (other : isDigit sign = false) :
    ¬ (sign :: rest).all isDigit := by
  rw [List.all_cons, other]
  exact Bool.false_ne_true

/-- A number of 32 bits is read from the spellings of the numbers that fit, and from nothing else. -/
theorem int32?_eq_some_iff {text : List Char} {n : Int} :
    int32? text = some n ↔
      SpellsInt text n ∧ Int32.minValue.toInt ≤ n ∧ n ≤ Int32.maxValue.toInt := by
  have plus : isDigit '+' = false := by decide
  have minus : isDigit '-' = false := by decide
  unfold int32?
  split
  · rename_i rest
    rw [inRange_eq_some_iff, Int.one_mul]
    refine and_congr_left' ⟨?_, ?_⟩
    · rintro ⟨filled, all, same⟩
      exact ⟨rest, filled, all, .inl ⟨.inr rfl, same⟩⟩
    · rintro ⟨digits, filled, all, ⟨rfl | same, sum⟩ | ⟨same, -⟩⟩
      · exact absurd all (not_all_isDigit_of_sign plus)
      · obtain rfl := (List.cons.inj same).2
        exact ⟨filled, all, sum⟩
      · exact absurd (List.cons.inj same).1 (by decide)
  · rename_i rest
    rw [inRange_eq_some_iff, Int.neg_one_mul]
    refine and_congr_left' ⟨?_, ?_⟩
    · rintro ⟨filled, all, same⟩
      exact ⟨rest, filled, all, .inr ⟨rfl, same⟩⟩
    · rintro ⟨digits, filled, all, ⟨rfl | same, -⟩ | ⟨same, sum⟩⟩
      · exact absurd all (not_all_isDigit_of_sign minus)
      · exact absurd (List.cons.inj same).1 (by decide)
      · obtain rfl := (List.cons.inj same).2
        exact ⟨filled, all, sum⟩
  · rename_i noPlus noMinus
    rw [inRange_eq_some_iff, Int.one_mul]
    refine and_congr_left' ⟨?_, ?_⟩
    · rintro ⟨filled, all, same⟩
      exact ⟨text, filled, all, .inl ⟨.inl rfl, same⟩⟩
    · rintro ⟨digits, filled, all, ⟨rfl | same, sum⟩ | ⟨same, -⟩⟩
      · exact ⟨filled, all, sum⟩
      · exact absurd same (noPlus digits)
      · exact absurd same (noMinus digits)

/-- A text spells one number. -/
theorem SpellsInt.unique {text : List Char} {n m : Int} (h : SpellsInt text n)
    (h' : SpellsInt text m) : n = m := by
  have plus : isDigit '+' = false := by decide
  have minus : isDigit '-' = false := by decide
  obtain ⟨digits, -, all, ⟨rfl | rfl, rfl⟩ | ⟨rfl, rfl⟩⟩ := h
  · obtain ⟨others, -, -, ⟨rfl | rfl, rfl⟩ | ⟨rfl, rfl⟩⟩ := h'
    · rfl
    · exact absurd all (not_all_isDigit_of_sign plus)
    · exact absurd all (not_all_isDigit_of_sign minus)
  · obtain ⟨others, -, all', ⟨rfl | same, rfl⟩ | ⟨same, rfl⟩⟩ := h'
    · exact absurd all' (not_all_isDigit_of_sign plus)
    · rw [(List.cons.inj same).2]
    · exact absurd (List.cons.inj same).1 (by decide)
  · obtain ⟨others, -, all', ⟨rfl | same, rfl⟩ | ⟨same, rfl⟩⟩ := h'
    · exact absurd all' (not_all_isDigit_of_sign minus)
    · exact absurd (List.cons.inj same).1 (by decide)
    · rw [(List.cons.inj same).2]

/-- What a number is spelled with first is a sign or a digit. -/
theorem SpellsInt.exists_head {text : List Char} {n : Int} (h : SpellsInt text n) :
    ∃ c rest, text = c :: rest ∧ (c = '+' ∨ c = '-' ∨ isDigit c) := by
  obtain ⟨digits, filled, all, ⟨rfl | rfl, -⟩ | ⟨rfl, -⟩⟩ := h
  · obtain ⟨c, more, rfl⟩ := List.exists_cons_of_ne_nil filled
    rw [List.all_cons, Bool.and_eq_true] at all
    exact ⟨c, more, rfl, .inr (.inr all.1)⟩
  · exact ⟨'+', digits, rfl, .inl rfl⟩
  · exact ⟨'-', digits, rfl, .inr (.inl rfl)⟩

end RaftJournal.Decimal
