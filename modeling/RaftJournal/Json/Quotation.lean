import RaftJournal.Json.Fault
import RaftJournal.Text.Utf8

/-! # JSON strings

A JSON string is first taken apart into a **`Quotation`**: pieces, each a byte or an escaped UTF-16
unit, and the way it ends. **`Quotation.content`** then joins surrogate pairs and decodes the bytes.
A string that is skipped needs no more than a good ending (**`Quotation.skipped`**), so its
surrogates and its bytes are not looked at. **`quote`** writes a string. -/

namespace RaftJournal.Json

/-- A piece of a string. -/
inductive Piece
  /-- A byte that stands for itself, or that a short escape names. -/
  | byte (b : UInt8)
  /-- A UTF-16 unit that four hexadecimal digits name. -/
  | unit (n : Nat)
  deriving DecidableEq, Repr

/-- How a string ends. -/
inductive Ending
  /-- With its closing quote. -/
  | closed
  /-- With the text. -/
  | cut
  /-- At a control character. -/
  | control
  /-- At a backslash before a character that names no escape. -/
  | unknownEscape
  /-- At an escape whose four characters are no hexadecimal digits. -/
  | badDigits
  deriving DecidableEq, Repr

/-- The fault of a string that is not closed. -/
def Ending.fault? : Ending → Option Fault
  | .closed => none
  | .cut => some .cutText
  | .control => some .controlCharacter
  | .unknownEscape => some .badEscape
  | .badDigits => some .badEscape

/-- A string taken apart. -/
structure Quotation where
  /-- The pieces up to the end. -/
  pieces : List Piece
  /-- How the string ends. -/
  ending : Ending
  /-- What follows the string. -/
  rest : Bytes
  deriving Repr

namespace Quotation

/-- The value of a hexadecimal digit of either case. -/
def hexDigit? (b : UInt8) : Option Nat :=
  if 48 ≤ b ∧ b ≤ 57 then some (b.toNat - 48)
  else if 97 ≤ b ∧ b ≤ 102 then some (b.toNat - 87)
  else if 65 ≤ b ∧ b ≤ 70 then some (b.toNat - 55)
  else none

/-- The unit that four hexadecimal digits name. -/
def unit? (a b c d : UInt8) : Option Nat :=
  match hexDigit? a, hexDigit? b, hexDigit? c, hexDigit? d with
  | some a, some b, some c, some d => some (((a * 16 + b) * 16 + c) * 16 + d)
  | _, _, _, _ => none

/-- The byte that a short escape names. -/
def shortEscape? (b : UInt8) : Option UInt8 :=
  match b with
  | 34 => some 34
  | 92 => some 92
  | 47 => some 47
  | 98 => some 8
  | 102 => some 12
  | 110 => some 10
  | 114 => some 13
  | 116 => some 9
  | _ => none

/-- Puts a piece in front. -/
def push (piece : Piece) (q : Quotation) : Quotation := { q with pieces := piece :: q.pieces }

/-- Takes a string apart whose opening quote has been read. -/
def scan : Bytes → Quotation
  | [] => ⟨[], .cut, []⟩
  | b :: rest =>
    if b = 34 then ⟨[], .closed, rest⟩
    else if b = 92 then
      match rest with
      | [] => ⟨[], .cut, []⟩
      | e :: rest =>
        if e = 117 then
          match rest with
          | h₁ :: h₂ :: h₃ :: h₄ :: rest =>
            match unit? h₁ h₂ h₃ h₄ with
            | some n => push (.unit n) (scan rest)
            | none => ⟨[], .badDigits, rest⟩
          | _ => ⟨[], .cut, []⟩
        else
          match shortEscape? e with
          | some b => push (.byte b) (scan rest)
          | none => ⟨[], .unknownEscape, rest⟩
    else if b < 32 then ⟨[], .control, rest⟩
    else push (.byte b) (scan rest)

@[simp] theorem rest_push (piece : Piece) (q : Quotation) : (push piece q).rest = q.rest := rfl

/-- What follows a string is no longer than what followed its opening quote. -/
theorem length_rest_scan (bytes : Bytes) : (scan bytes).rest.length ≤ bytes.length := by
  fun_induction scan bytes <;> simp_all <;> omega

/-- A low surrogate. -/
def isLow (n : Nat) : Bool := 0xDC00 ≤ n && n ≤ 0xDFFF

/-- A high surrogate. -/
def isHigh (n : Nat) : Bool := 0xD800 ≤ n && n ≤ 0xDBFF

/-- The code point of a surrogate pair. -/
def pair (high low : Nat) : Nat := (high - 0xD800) * 1024 + (low - 0xDC00) + 0x10000

/-- The fault of a high surrogate that is the last piece. -/
def danglingFault : Ending → Fault
  | .cut => .cutText
  | .badDigits => .badEscape
  | _ => .cutSurrogate

/-- The bytes of the pieces, each surrogate pair as one character. -/
def join (ending : Ending) : List Piece → Except Fault Bytes
  | [] =>
    match ending.fault? with
    | none => .ok []
    | some fault => .error fault
  | .byte b :: rest => (join ending rest).map (b :: ·)
  | .unit n :: rest =>
    if isLow n then .error .loneSurrogate
    else if isHigh n then
      match rest with
      | [] => .error (danglingFault ending)
      | .byte _ :: _ => .error .cutSurrogate
      | .unit m :: rest =>
        if isLow m then
          (join ending rest).map (String.utf8EncodeChar (Char.ofNat (pair n m)) ++ ·)
        else .error .loneSurrogate
    else (join ending rest).map (String.utf8EncodeChar (Char.ofNat n) ++ ·)

/-- The characters of a string, or its first fault. -/
def content (q : Quotation) : Except Fault String :=
  match join q.ending q.pieces with
  | .error fault => .error fault
  | .ok bytes =>
    match Utf8.decode bytes with
    | .error _ => .error .badCodePoint
    | .ok text => .ok (String.ofList text)

end Quotation

/-! ## writing -/

/-- A character inside a string: quotes, backslashes and controls are escaped, nothing else is. -/
def escape (c : Char) : List Char :=
  match c with
  | '"' => ['\\', '"']
  | '\\' => ['\\', '\\']
  | '\x08' => ['\\', 'b']
  | '\x0c' => ['\\', 'f']
  | '\n' => ['\\', 'n']
  | '\r' => ['\\', 'r']
  | '\t' => ['\\', 't']
  | _ =>
    if c.toNat < 32 then
      ['\\', 'u', '0', '0', Nat.digitChar (c.toNat / 16), Nat.digitChar (c.toNat % 16)]
    else [c]

/-- A string between its quotes. -/
def quote (text : String) : List Char := '"' :: (text.toList.flatMap escape ++ ['"'])

end RaftJournal.Json
