import RaftJournal.Json.Numeral
import RaftJournal.Proofs.Text.Digits
import RaftJournal.Proofs.Text.Utf8

/-! # Numbers in JSON texts

A number is read from its parts, up to a byte that does not continue a number: the digits of its whole
part after a minus sign or none, and maybe a fraction and an exponent (**`Numeral.scan_parts`**). So an
integer that fits 64 bits is read back from its digits (**`Numeral.scan_toString`**). -/

namespace RaftJournal.Json.Numeral

/-- No byte stands here that continues a number. -/
def Ends (rest : Bytes) : Prop :=
  ∀ b ∈ rest.head?, isDigit b = false ∧ b ≠ 46 ∧ b ≠ 101 ∧ b ≠ 69

/-! ## digits as bytes -/

/-- A digit as a byte. -/
def byte (c : Char) : UInt8 := UInt8.ofNat c.toNat

/-- The byte of a digit has its number. -/
theorem toNat_byte {c : Char} (h : Decimal.isDigit c) : (byte c).toNat = c.toNat := by
  have := Decimal.range_of_isDigit h
  exact UInt8.toNat_ofNat_of_lt' (Nat.lt_of_le_of_lt this.2 (by decide))

/-- The byte of a digit is one. -/
theorem isDigit_byte {c : Char} (h : Decimal.isDigit c) : isDigit (byte c) := by
  rw [isDigit, Bool.and_eq_true, decide_eq_true_eq, decide_eq_true_eq, UInt8.le_iff_toNat_le,
    UInt8.le_iff_toNat_le, toNat_byte h]
  exact Decimal.range_of_isDigit h

/-- Digits are one byte each. -/
theorem encode_digits {digits : List Char} (h : ∀ c ∈ digits, Decimal.isDigit c) :
    Utf8.encode digits = digits.map byte := by
  induction digits with
  | nil => rfl
  | cons c digits ih =>
    have := Decimal.range_of_isDigit (h c List.mem_cons_self)
    rw [Utf8.encode_cons, Utf8.utf8EncodeChar_of_ascii (by omega),
      ih fun c mem => h c (List.mem_cons_of_mem _ mem)]
    rfl

/-- The value of digits is the same for characters and for bytes. -/
theorem digitsValue_map {digits : List Char} (h : ∀ c ∈ digits, Decimal.isDigit c) :
    digitsValue (digits.map byte) = Decimal.value digits := by
  rw [digitsValue, Decimal.value, List.foldl_map]
  generalize 0 = start
  induction digits generalizing start with
  | nil => rfl
  | cons c digits ih =>
    have digit_eq : digit (byte c) = Decimal.digit c := by
      rw [digit, toNat_byte (h c List.mem_cons_self)]
      rfl
    rw [List.foldl_cons, List.foldl_cons, digit_eq]
    exact ih (fun c mem => h c (List.mem_cons_of_mem _ mem)) _

/-! ## scanning -/

/-- No digit stands here. -/
def Stops (rest : Bytes) : Prop := ∀ b ∈ rest.head?, isDigit b = false

/-- Where a number ends, no digit stands. -/
theorem Ends.stops {rest : Bytes} (ends : Ends rest) : Stops rest := fun b mem => (ends b mem).1

/-- A run of digits is taken up to where they stop. -/
theorem takeWhile_append {digits rest : Bytes} (all : ∀ b ∈ digits, isDigit b) (stops : Stops rest) :
    (digits ++ rest).takeWhile isDigit = digits ∧ (digits ++ rest).dropWhile isDigit = rest := by
  have stop : rest.takeWhile isDigit = [] ∧ rest.dropWhile isDigit = rest := by
    cases rest with
    | nil => exact ⟨rfl, rfl⟩
    | cons b rest =>
      have other := stops b rfl
      have stays : ¬ isDigit b := by rw [other]; exact Bool.false_ne_true
      exact ⟨List.takeWhile_cons_of_neg stays, List.dropWhile_cons_of_neg stays⟩
  rw [List.takeWhile_append_of_pos all, List.dropWhile_append_of_pos all, stop.1, stop.2]
  exact ⟨List.append_nil digits, rfl⟩

/-- Digits are read up to where they stop, if there are any. -/
theorem scanDigits_append {digits rest : Bytes} (some : digits ≠ []) (all : ∀ b ∈ digits, isDigit b)
    (stops : Stops rest) : scanDigits (digits ++ rest) = .ok (digits, rest) := by
  obtain ⟨taken, left⟩ := takeWhile_append all stops
  rw [scanDigits, taken, left]
  cases digits with
  | nil => exact absurd rfl some
  | cons b digits => rfl

/-- Where no point stands, there is no fraction. -/
theorem scanFraction_of_ne {rest : Bytes} (none : ∀ b ∈ rest.head?, b ≠ 46) :
    scanFraction rest = .ok (.none, rest) := by
  cases rest with
  | nil => rfl
  | cons b rest =>
    rw [scanFraction]
    intro tail eq
    exact none b rfl (List.cons.inj eq).1

/-- Where a number ends, there is no exponent. -/
theorem scanExponent_of_ends {rest : Bytes} (ends : Ends rest) :
    scanExponent rest = .ok (none, rest) := by
  cases rest with
  | nil => rfl
  | cons b rest =>
    obtain ⟨-, -, lower, upper⟩ := ends b rfl
    show (if b = 101 ∨ b = 69 then _ else _) = _
    rw [if_neg (not_or.mpr ⟨lower, upper⟩)]

/-- A number is read when its fraction and its exponent are. -/
theorem scanMagnitude_of_parts (negative : Bool) {first : UInt8} {more tail left rest : Bytes}
    {fraction : Option Bytes} {exponent : Option (Bool × Bytes)} (all : ∀ b ∈ more, isDigit b)
    (stops : Stops tail) (zero : first = 48 → more = []) (point : scanFraction tail = .ok (fraction, left))
    (power : scanExponent left = .ok (exponent, rest)) :
    scanMagnitude negative first (more ++ tail) =
      .ok (ofParts negative (first :: more) fraction exponent, rest) := by
  obtain ⟨digits, behind⟩ := takeWhile_append all stops
  rw [scanMagnitude, digits, behind, if_neg fun h => h.2 (zero h.1), point]
  simp only
  rw [power]

/-- An integer is read up to where the number ends. -/
theorem scanMagnitude_append (negative : Bool) {first : UInt8} {more rest : Bytes}
    (all : ∀ b ∈ more, isDigit b) (ends : Ends rest) (zero : first = 48 → more = []) :
    scanMagnitude negative first (more ++ rest) =
      .ok (ofParts negative (first :: more) none none, rest) :=
  scanMagnitude_of_parts negative all ends.stops zero
    (scanFraction_of_ne fun b mem => (ends b mem).2.1) (scanExponent_of_ends ends)

/-- The digits of a number are a first byte and the bytes after it. -/
theorem exists_digits (n : Nat) :
    ∃ first more, Utf8.encode (Nat.toDigits 10 n) = first :: more ∧ isDigit first ∧
      (∀ b ∈ more, isDigit b) ∧ (first = 48 → more = []) ∧ digitsValue (first :: more) = n := by
  have digits : ∀ c ∈ Nat.toDigits 10 n, Decimal.isDigit c :=
    fun c mem => Decimal.isDigit_of_mem mem
  have value := digitsValue_map digits
  rw [Decimal.value_toDigits] at value
  rw [encode_digits digits]
  cases written : Nat.toDigits 10 n with
  | nil => exact absurd written Nat.toDigits_ne_nil
  | cons c more =>
    rw [written] at digits value
    refine ⟨byte c, more.map byte, rfl, isDigit_byte (digits c List.mem_cons_self), ?_, ?_, value⟩
    · intro b mem
      obtain ⟨d, later, rfl⟩ := List.mem_map.mp mem
      exact isDigit_byte (digits d (List.mem_cons_of_mem _ later))
    -- a leading zero is the whole number
    · intro zero
      have code := congrArg UInt8.toNat zero
      rw [toNat_byte (digits c List.mem_cons_self)] at code
      have first : c = '0' := Char.ext (UInt32.toNat_inj.mp code)
      rw [first] at written
      rw [Decimal.toDigits_of_leading_zero written]
      rfl

/-- **An integer is read back** from its digits, up to a byte that does not continue a number. -/
theorem scan_toString {n : Int} (low : -(1 <<< 63) ≤ n) (high : n < UInt64.size) {rest : Bytes}
    (ends : Ends rest) :
    ∃ first more, Utf8.encode (toString n).toList = first :: more ∧ (first = 45 ∨ isDigit first) ∧
      scan first (more ++ rest) = .ok (.integer n, rest) := by
  cases n with
  | ofNat n =>
    obtain ⟨first, more, written, digit, all, zero, value⟩ := exists_digits n
    have text : (toString (Int.ofNat n)).toList = Nat.toDigits 10 n := Nat.toList_repr
    refine ⟨first, more, text ▸ written, .inr digit, ?_⟩
    have noSign : first ≠ 45 := by
      rintro rfl
      exact absurd digit (by decide)
    rw [scan.eq_def, if_neg noSign, scanMagnitude_append false all ends zero, ofParts, value,
      if_pos ⟨rfl, rfl, rfl, Int.ofNat_lt.mp high⟩]
    rfl
  | negSucc n =>
    obtain ⟨first, more, written, digit, all, zero, value⟩ := exists_digits (n + 1)
    have text : (toString (Int.negSucc n)).toList = '-' :: Nat.toDigits 10 (n + 1) := by
      show ("-" ++ Nat.repr (n + 1)).toList = _
      rw [String.toList_append, Nat.toList_repr]
      rfl
    have sign : String.utf8EncodeChar '-' = [45] := by decide
    refine ⟨45, first :: more, by rw [text, Utf8.encode_cons, sign, written]; rfl, .inl rfl, ?_⟩
    -- the least integer has no counterpart above zero, so the bound is on its distance from zero
    have magnitude : n + 1 ≤ 1 <<< 63 := by
      have : (1 <<< 63 : Int) = 9223372036854775808 := rfl
      have : (1 <<< 63 : Nat) = 9223372036854775808 := rfl
      omega
    rw [scan.eq_def, if_pos rfl]
    show (if isDigit first then scanMagnitude true first (more ++ rest) else _) = _
    rw [if_pos digit, scanMagnitude_append true all ends zero, ofParts, value,
      if_neg (by simp), if_pos ⟨rfl, rfl, rfl, Nat.succ_pos n, magnitude⟩]
    rfl

/-! ## all spellings -/

/-- One digit or more. -/
structure IsDigits (text : List Char) : Prop where
  some : text ≠ []
  all : ∀ c ∈ text, Decimal.isDigit c

/-- A number as it is spelled. -/
structure Parts where
  /-- Whether there is a minus sign. -/
  negative : Bool
  whole : List Char
  /-- The digits after the point, if there is one. -/
  fraction : Option (List Char)
  /-- The letter of the exponent, its sign if it has one, and its digits. -/
  exponent : Option (Char × Option Char × List Char)

namespace Parts

/-- The fraction as it is spelled. -/
def fractionText : Option (List Char) → List Char
  | none => []
  | some digits => '.' :: digits

/-- The exponent as it is spelled. -/
def exponentText : Option (Char × Option Char × List Char) → List Char
  | none => []
  | some (letter, sign, digits) => letter :: (sign.toList ++ digits)

/-- The whole number as it is spelled. -/
def text (p : Parts) : List Char :=
  (if p.negative then ['-'] else []) ++ (p.whole ++ (fractionText p.fraction ++ exponentText p.exponent))

/-- What the number says. -/
def numeral (p : Parts) : Numeral :=
  ofParts p.negative (p.whole.map byte) (p.fraction.map (·.map byte))
    (p.exponent.map fun (_, sign, digits) => (sign = some '-', digits.map byte))

/-- The parts make a number: the whole part has no zero in front unless it is the only digit. -/
structure Valid (p : Parts) : Prop where
  whole : IsDigits p.whole
  zero : p.whole.head? = some '0' → p.whole = ['0']
  fraction : ∀ digits, p.fraction = some digits → IsDigits digits
  exponent : ∀ letter sign digits, p.exponent = some (letter, sign, digits) →
    (letter = 'e' ∨ letter = 'E') ∧ (∀ c, sign = some c → c = '+' ∨ c = '-') ∧ IsDigits digits

end Parts

theorem IsDigits.map_ne_nil {text : List Char} (h : IsDigits text) : text.map byte ≠ [] :=
  fun none => h.some (List.map_eq_nil_iff.mp none)

theorem IsDigits.all_isDigit {text : List Char} (h : IsDigits text) :
    ∀ b ∈ text.map byte, isDigit b := by
  intro b mem
  obtain ⟨c, inside, rfl⟩ := List.mem_map.mp mem
  exact isDigit_byte (h.all c inside)

theorem scanExponent_cons {b : UInt8} {bytes after digits rest : Bytes} {negative : Bool}
    (letter : b = 101 ∨ b = 69) (signed : scanSign bytes = (negative, after))
    (read : scanDigits after = .ok (digits, rest)) :
    scanExponent (b :: bytes) = .ok (some (negative, digits), rest) := by
  unfold scanExponent
  simp only
  rw [if_pos letter, signed]
  simp only
  rw [read]
  rfl

/-- The exponent is read, if there is one. -/
theorem scanExponent_parts {exponent : Option (Char × Option Char × List Char)}
    (valid : ∀ letter sign digits, exponent = some (letter, sign, digits) →
      (letter = 'e' ∨ letter = 'E') ∧ (∀ c, sign = some c → c = '+' ∨ c = '-') ∧ IsDigits digits)
    {rest : Bytes} (ends : Ends rest) :
    scanExponent (Utf8.encode (Parts.exponentText exponent) ++ rest) =
      .ok (exponent.map fun (_, sign, digits) => (decide (sign = some '-'), digits.map byte), rest) := by
  match exponent with
  | none => exact scanExponent_of_ends ends
  | some (letter, sign, digits) =>
    obtain ⟨letters, signs, numbers⟩ := valid letter sign digits rfl
    have lead : ∃ b, String.utf8EncodeChar letter = [b] ∧ (b = 101 ∨ b = 69) := by
      rcases letters with rfl | rfl
      · exact ⟨101, by decide, .inl rfl⟩
      · exact ⟨69, by decide, .inr rfl⟩
    obtain ⟨b, letter, known⟩ := lead
    have signed : scanSign (Utf8.encode sign.toList ++ (digits.map byte ++ rest)) =
        (decide (sign = some '-'), digits.map byte ++ rest) := by
      cases sign with
      | none =>
        -- the first digit is no sign
        obtain ⟨c, more, rfl⟩ := List.exists_cons_of_ne_nil numbers.some
        have digit := isDigit_byte (numbers.all c List.mem_cons_self)
        have plus : byte c ≠ 43 := by
          intro eq
          rw [eq] at digit
          exact absurd digit (by decide)
        have minus : byte c ≠ 45 := by
          intro eq
          rw [eq] at digit
          exact absurd digit (by decide)
        show scanSign (byte c :: (more.map byte ++ rest)) = _
        rw [scanSign]
        · rfl
        · exact fun tail eq => plus (List.cons.inj eq).1
        · exact fun tail eq => minus (List.cons.inj eq).1
      | some c =>
        have plus : Utf8.encode ['+'] = [43] := by decide
        have minus : Utf8.encode ['-'] = [45] := by decide
        rcases signs c rfl with rfl | rfl
        · rw [Option.toList_some, plus]
          rfl
        · rw [Option.toList_some, minus]
          rfl
    rw [Parts.exponentText, Utf8.encode_cons, Utf8.encode_append, encode_digits numbers.all, letter,
      List.append_assoc, List.append_assoc, List.singleton_append]
    exact scanExponent_cons known signed
      (scanDigits_append numbers.map_ne_nil numbers.all_isDigit ends.stops)

/-- The fraction is read, if there is one. -/
theorem scanFraction_parts {fraction : Option (List Char)}
    (valid : ∀ digits, fraction = some digits → IsDigits digits) {rest : Bytes} (stops : Stops rest)
    (none : ∀ b ∈ rest.head?, b ≠ 46) :
    scanFraction (Utf8.encode (Parts.fractionText fraction) ++ rest) =
      .ok (fraction.map (·.map byte), rest) := by
  cases fraction with
  | none => exact scanFraction_of_ne none
  | some digits =>
    have numbers := valid digits rfl
    have point : String.utf8EncodeChar '.' = [46] := by decide
    rw [Parts.fractionText, Utf8.encode_cons, point, encode_digits numbers.all, List.append_assoc]
    show (scanDigits (digits.map byte ++ rest)).map _ = _
    rw [scanDigits_append numbers.map_ne_nil numbers.all_isDigit stops]
    rfl

/-- An exponent starts neither with a digit nor with a point. -/
theorem head_exponent {exponent : Option (Char × Option Char × List Char)}
    (letters : ∀ letter sign digits, exponent = some (letter, sign, digits) →
      letter = 'e' ∨ letter = 'E') {rest : Bytes} (ends : Ends rest) :
    ∀ b ∈ (Utf8.encode (Parts.exponentText exponent) ++ rest).head?, isDigit b = false ∧ b ≠ 46 := by
  intro b mem
  match exponent with
  | none => exact ⟨(ends b mem).1, (ends b mem).2.1⟩
  | some (letter, sign, digits) =>
    have lower : String.utf8EncodeChar 'e' = [101] := by decide
    have upper : String.utf8EncodeChar 'E' = [69] := by decide
    rcases letters letter sign digits rfl with rfl | rfl
    · rw [Parts.exponentText, Utf8.encode_cons, lower] at mem
      obtain rfl := Option.some.inj mem
      decide
    · rw [Parts.exponentText, Utf8.encode_cons, upper] at mem
      obtain rfl := Option.some.inj mem
      decide

/-- Nor does a fraction with an exponent start with a digit. -/
theorem stops_fraction (fraction : Option (List Char)) {rest : Bytes} (stops : Stops rest) :
    Stops (Utf8.encode (Parts.fractionText fraction) ++ rest) := by
  cases fraction with
  | none => exact stops
  | some digits =>
    have point : String.utf8EncodeChar '.' = [46] := by decide
    rw [Parts.fractionText, Utf8.encode_cons, point]
    intro b mem
    obtain rfl := Option.some.inj mem
    decide

/-- **A number is read** from its parts, up to a byte that does not continue a number. -/
theorem scan_parts {p : Parts} (h : p.Valid) {rest : Bytes} (ends : Ends rest) :
    ∃ first more, Utf8.encode p.text = first :: more ∧ (first = 45 ∨ isDigit first) ∧
      scan first (more ++ rest) = .ok (p.numeral, rest) := by
  obtain ⟨negative, whole, fraction, exponent⟩ := p
  obtain ⟨c, digits, rfl⟩ := List.exists_cons_of_ne_nil h.whole.some
  have behind := head_exponent (fun letter sign digits same => (h.exponent letter sign digits same).1)
    ends
  have digit := isDigit_byte (h.whole.all c List.mem_cons_self)
  have zero : byte c = 48 → digits.map byte = [] := by
    intro zero
    have code := congrArg UInt8.toNat zero
    rw [toNat_byte (h.whole.all c List.mem_cons_self)] at code
    have first : c = '0' := Char.ext (UInt32.toNat_inj.mp code)
    rw [(List.cons.inj (h.zero (congrArg some first))).2]
    rfl
  have all : ∀ b ∈ digits.map byte, isDigit b :=
    fun b mem => h.whole.all_isDigit b (List.mem_cons_of_mem _ mem)
  have magnitude := scanMagnitude_of_parts negative all
    (stops_fraction fraction fun b mem => (behind b mem).1) zero
    (scanFraction_parts h.fraction (fun b mem => (behind b mem).1) fun b mem => (behind b mem).2)
    (scanExponent_parts h.exponent ends)
  generalize tail : Utf8.encode (Parts.fractionText fraction) ++
    Utf8.encode (Parts.exponentText exponent) = after
  have text : Utf8.encode ((c :: digits) ++ (Parts.fractionText fraction ++
      Parts.exponentText exponent)) = byte c :: (digits.map byte ++ after) := by
    rw [Utf8.encode_append, Utf8.encode_append, encode_digits h.whole.all, tail]
    rfl
  replace magnitude : scanMagnitude negative (byte c) (digits.map byte ++ after ++ rest) =
      .ok (Parts.numeral ⟨negative, c :: digits, fraction, exponent⟩, rest) := by
    rw [← tail, List.append_assoc, List.append_assoc]
    exact magnitude
  cases negative with
  | true =>
    have sign : String.utf8EncodeChar '-' = [45] := by decide
    refine ⟨45, byte c :: (digits.map byte ++ after), ?_, .inl rfl, ?_⟩
    · rw [Parts.text, if_pos rfl, Utf8.encode_append, text, Utf8.encode_cons, sign]
      rfl
    · rw [scan.eq_def, if_pos rfl]
      show (if isDigit (byte c) then scanMagnitude true (byte c) (digits.map byte ++ after ++ rest)
        else _) = _
      rw [if_pos digit]
      exact magnitude
  | false =>
    have noSign : byte c ≠ 45 := by
      intro eq
      rw [eq] at digit
      exact absurd digit (by decide)
    refine ⟨byte c, digits.map byte ++ after, ?_, .inr digit, ?_⟩
    · rw [Parts.text, if_neg Bool.false_ne_true, List.nil_append, text]
    · rw [scan.eq_def, if_neg noSign]
      exact magnitude

end RaftJournal.Json.Numeral
