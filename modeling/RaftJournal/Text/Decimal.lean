/-! # Numbers in decimal digits

**`Decimal.natural?`** is the value of a non-empty run of ASCII digits. A word may carry a plus sign
(**`Decimal.word64?`**), a signed number either sign (**`Decimal.int32?`**); leading zeros are
allowed, and a value out of range is no number at all. -/

namespace RaftJournal.Decimal

/-- An ASCII digit. -/
def isDigit (c : Char) : Bool := '0' ≤ c && c ≤ '9'

/-- The value of a digit. -/
def digit (c : Char) : Nat := c.toNat - '0'.toNat

/-- The value of a run of digits, highest first. -/
def value (digits : List Char) : Nat := digits.foldl (fun n c => n * 10 + digit c) 0

/-- The value of a non-empty run that holds digits only. -/
def natural? (text : List Char) : Option Nat :=
  if text ≠ [] ∧ text.all isDigit then some (value text) else none

/-- A 64-bit word: digits, with a plus sign or none. -/
def word64? (text : List Char) : Option UInt64 :=
  let digits := match text with
    | '+' :: rest => rest
    | _ => text
  (natural? digits).bind fun n => if n < UInt64.size then some (UInt64.ofNat n) else none

/-- A number from −2³¹ to 2³¹ − 1: digits, with either sign or none. -/
def int32? (text : List Char) : Option Int :=
  match text with
  | '+' :: rest => inRange (natural? rest) 1
  | '-' :: rest => inRange (natural? rest) (-1)
  | _ => inRange (natural? text) 1
where
  /-- The signed value, if it fits. -/
  inRange (magnitude : Option Nat) (sign : Int) : Option Int :=
    magnitude.bind fun n =>
      let signed := sign * (n : Int)
      if Int32.minValue.toInt ≤ signed ∧ signed ≤ Int32.maxValue.toInt then some signed else none

end RaftJournal.Decimal
