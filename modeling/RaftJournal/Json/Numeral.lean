import RaftJournal.Bytes.Word

/-! # JSON numbers

The journal stores integers only, so a number of a JSON text is kept as a **`Numeral`**: an integer
that fits 64 bits, something else that a floating point number can hold, or something beyond that.
**`Numeral.scan`** reads one from the front of a run of bytes.

Whether a number is beyond the floating point range is decided as a reader with one accumulator
decides it: digits go into a 64-bit significand while they fit, later whole digits only raise the
exponent, later fraction digits are dropped, and the significand and the power of ten are rounded
to 53 bits before their product is (**`Numeral.overflows`**). -/

namespace RaftJournal.Json

/-- What a well-formed number says. -/
inductive Numeral
  /-- An integer of 64 bits, signed or not. -/
  | integer (n : Int)
  /-- A number with a fraction or an exponent, minus zero, or an integer beyond 64 bits. -/
  | floating
  /-- A number that no finite floating point number approximates. -/
  | tooLarge
  deriving DecidableEq, Repr

namespace Numeral

/-- How a number can fail to be well formed. -/
inductive Break
  /-- The text ends where a digit should stand. -/
  | cut
  /-- Something other than the digit that should stand here. -/
  | malformed
  deriving DecidableEq, Repr

/-- An ASCII digit. -/
def isDigit (b : UInt8) : Bool := 48 ≤ b && b ≤ 57

/-- The value of a digit. -/
def digit (b : UInt8) : Nat := b.toNat - 48

/-- The value of a run of digits, highest first. -/
def digitsValue (digits : Bytes) : Nat := digits.foldl (fun n b => n * 10 + digit b) 0

/-! ## range -/

/-- The nearest number with 53 significant bits, ties to the even one. -/
def round53 (n : Nat) : Nat :=
  if n < 1 <<< 53 then n
  else
    let unit := 1 <<< (Nat.log2 n - 52)
    let quotient := n / unit
    let rest := n % unit
    if 2 * rest < unit ∨ (2 * rest = unit ∧ quotient % 2 = 0) then quotient * unit
    else (quotient + 1) * unit

/-- The largest significand. -/
def limit : Nat := UInt64.size - 1

/-- Takes in whole digits: those past the first that does not fit only raise the exponent. -/
def takeWhole (significand : Nat) : Bytes → Nat × Nat
  | [] => (significand, 0)
  | b :: rest =>
    if significand * 10 + digit b ≤ limit then takeWhole (significand * 10 + digit b) rest
    else (significand, rest.length + 1)

/-- Takes in fraction digits, each lowering the exponent, up to the first that does not fit. -/
def takeFraction (significand lowered : Nat) : Bytes → Nat × Nat
  | [] => (significand, lowered)
  | b :: rest =>
    if significand * 10 + digit b ≤ limit then
      takeFraction (significand * 10 + digit b) (lowered + 1) rest
    else (significand, lowered)

/-- The largest written exponent that is taken at its value. -/
def exponentLimit : Nat := (1 <<< 31) - 1

/-- Whether significand times power of ten leaves the floating point range. -/
def productOverflows (significand : Nat) (exponent : Int) : Bool :=
  if significand = 0 ∨ exponent < 0 then false
  else if 308 < exponent then true
  else (1 <<< 1024) - (1 <<< 970) ≤ round53 significand * round53 (Nat.pow 10 exponent.toNat)

/-- Whether the number with the given digits leaves the floating point range. -/
def overflows (whole fraction : Bytes) (exponent : Option (Bool × Bytes)) : Bool :=
  let (significand, raised) := takeWhole 0 whole
  let (significand, lowered) := takeFraction significand 0 fraction
  let start : Int := raised - lowered
  match exponent with
  | none => productOverflows significand start
  | some (negative, digits) =>
    let written := digitsValue digits
    if exponentLimit < written then !negative && significand ≠ 0
    else productOverflows significand (if negative then start - written else start + written)

/-! ## scanning -/

/-- The number with the given parts. -/
def ofParts (negative : Bool) (whole : Bytes) (fraction : Option Bytes)
    (exponent : Option (Bool × Bytes)) : Numeral :=
  let magnitude := digitsValue whole
  if fraction = none ∧ exponent = none ∧ !negative ∧ magnitude < UInt64.size then .integer magnitude
  else if fraction = none ∧ exponent = none ∧ negative ∧ 0 < magnitude ∧ magnitude ≤ 1 <<< 63 then
    .integer (-magnitude)
  else if overflows whole (fraction.getD []) exponent then .tooLarge
  else .floating

/-- What is wrong when no digit stands at the front. -/
def noDigit : Bytes → Break
  | [] => .cut
  | _ :: _ => .malformed

/-- A non-empty run of digits and what follows it. -/
def scanDigits (bytes : Bytes) : Except Break (Bytes × Bytes) :=
  match bytes.takeWhile isDigit with
  | [] => .error (noDigit bytes)
  | digits => .ok (digits, bytes.dropWhile isDigit)

/-- The fraction, if a point stands here. -/
def scanFraction (bytes : Bytes) : Except Break (Option Bytes × Bytes) :=
  match bytes with
  | 46 :: rest => (scanDigits rest).map fun (digits, rest) => (some digits, rest)
  | _ => .ok (none, bytes)

/-- The sign of an exponent; true when it is negative. -/
def scanSign : Bytes → Bool × Bytes
  | 43 :: rest => (false, rest)
  | 45 :: rest => (true, rest)
  | bytes => (false, bytes)

/-- The exponent, if its letter stands here. -/
def scanExponent (bytes : Bytes) : Except Break (Option (Bool × Bytes) × Bytes) :=
  match bytes with
  | [] => .ok (none, bytes)
  | b :: rest =>
    if b = 101 ∨ b = 69 then
      let (negative, rest) := scanSign rest
      (scanDigits rest).map fun (digits, rest) => (some (negative, digits), rest)
    else .ok (none, bytes)

/-- A number whose first digit has been read; no digit may follow a leading zero. -/
def scanMagnitude (negative : Bool) (first : UInt8) (rest : Bytes) :
    Except Break (Numeral × Bytes) :=
  if first = 48 ∧ rest.takeWhile isDigit ≠ [] then .error .malformed
  else
    match scanFraction (rest.dropWhile isDigit) with
    | .error fault => .error fault
    | .ok (fraction, tail) =>
      match scanExponent tail with
      | .error fault => .error fault
      | .ok (exponent, left) =>
        .ok (ofParts negative (first :: rest.takeWhile isDigit) fraction exponent, left)

/-- A number whose first character, a minus sign or a digit, has been read. -/
def scan (first : UInt8) (rest : Bytes) : Except Break (Numeral × Bytes) :=
  if first = 45 then
    match rest with
    | [] => .error .cut
    | b :: rest => if isDigit b then scanMagnitude true b rest else .error .malformed
  else scanMagnitude false first rest

/-! ## what a scan leaves -/

theorem length_of_scanDigits {bytes digits rest : Bytes}
    (h : scanDigits bytes = .ok (digits, rest)) : rest.length ≤ bytes.length := by
  unfold scanDigits at h
  split at h
  · cases h
  · cases h
    exact (List.dropWhile_sublist isDigit).length_le

/-- Nor is more left when the digits become part of something larger. -/
theorem length_of_map_scanDigits {α : Type} {f : Bytes × Bytes → α × Bytes} {a : α}
    {bytes rest : Bytes} (h : (scanDigits bytes).map f = .ok (a, rest))
    (leaves : ∀ found, (f found).2 = found.2) : rest.length ≤ bytes.length := by
  cases scanned : scanDigits bytes with
  | error fault =>
    rw [scanned] at h
    cases h
  | ok found =>
    rw [scanned] at h
    have same := leaves found
    rw [Except.ok.inj h] at same
    rw [show rest = found.2 from same]
    exact length_of_scanDigits scanned

theorem length_of_scanFraction {bytes rest : Bytes} {fraction : Option Bytes}
    (h : scanFraction bytes = .ok (fraction, rest)) : rest.length ≤ bytes.length := by
  unfold scanFraction at h
  split at h
  · exact Nat.le_succ_of_le (length_of_map_scanDigits h fun _ => rfl)
  · cases h
    exact Nat.le_refl _

theorem length_scanSign (bytes : Bytes) : (scanSign bytes).2.length ≤ bytes.length := by
  unfold scanSign
  split <;> simp

theorem length_of_scanExponent {bytes rest : Bytes} {exponent : Option (Bool × Bytes)}
    (h : scanExponent bytes = .ok (exponent, rest)) : rest.length ≤ bytes.length := by
  unfold scanExponent at h
  split at h
  · cases h
    exact Nat.le_refl _
  · rename_i b tail
    split at h
    · exact Nat.le_succ_of_le
        (Nat.le_trans (length_of_map_scanDigits h fun _ => rfl) (length_scanSign tail))
    · cases h
      exact Nat.le_refl _

theorem length_of_scanMagnitude {negative : Bool} {first : UInt8} {rest left : Bytes}
    {n : Numeral} (h : scanMagnitude negative first rest = .ok (n, left)) :
    left.length ≤ rest.length := by
  unfold scanMagnitude at h
  split at h
  · cases h
  · split at h
    · cases h
    · rename_i hf
      split at h
      · cases h
      · rename_i he
        cases h
        have := length_of_scanFraction hf
        have := length_of_scanExponent he
        have := (List.dropWhile_sublist (l := rest) isDigit).length_le
        omega

/-- A scanned number leaves no more than what followed its first character. -/
theorem length_of_scan {first : UInt8} {rest left : Bytes} {n : Numeral}
    (h : scan first rest = .ok (n, left)) : left.length ≤ rest.length := by
  unfold scan at h
  split at h
  · split at h
    · cases h
    · split at h
      · have := length_of_scanMagnitude h
        simp only [List.length_cons]
        omega
      · cases h
  · exact length_of_scanMagnitude h

end Numeral

end RaftJournal.Json
