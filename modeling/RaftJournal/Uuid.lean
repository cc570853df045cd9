import RaftJournal.Text.Parts

/-! # Identifiers of Raft groups

A group is named by a **`Uuid`** of 128 bits. **`Uuid.render`** writes it as five groups of lower
case hexadecimal digits; **`Uuid.parse`** also reads the plain form of 32 digits, the five groups
in braces and the five groups after `urn:uuid:`, in either case. A text that is none of these is
refused with the first of its faults: a text longer than any form, a character that does not belong,
a plain text of the wrong length, the wrong number of groups, a group of the wrong length. -/

namespace RaftJournal

/-- A universally unique identifier. -/
structure Uuid where
  /-- The identifier as one number of 128 bits. -/
  value : BitVec 128
  deriving DecidableEq, Repr

namespace Uuid

/-- Why a text is no identifier. -/
inductive Fault
  /-- A character that is no hexadecimal digit and no hyphen, with its offset in bytes. -/
  | character (found : Char) (offset : Nat)
  /-- A text that is too long, or one without hyphens whose length is not 32. -/
  | length (found : Nat)
  /-- A hyphenated text without exactly five groups. -/
  | groupCount (found : Nat)
  /-- A group, counted from 0, of the wrong length. -/
  | groupLength (group found : Nat)
  deriving DecidableEq, Repr

/-- The numbers of digits in the five groups. -/
def groupSizes : List Nat := [8, 4, 4, 4, 12]

/-- What an error says about the text. -/
def Fault.message : Fault → String
  | .character found offset => s!"invalid character: found `{found}` at {offset}"
  | .length found => s!"invalid length: found {found}"
  | .groupCount found => s!"invalid group count: expected 5, found {found}"
  | .groupLength group found =>
    s!"invalid group length in group {group}: expected {groupSizes.getD group 0}, found {found}"

/-! ## writing -/

/-- The 32 hexadecimal digits of an identifier, highest first. -/
def digits (id : Uuid) : List Char :=
  (List.range 32).map fun i => Nat.digitChar ((id.value.toNat >>> (4 * (31 - i))) % 16)

/-- Cuts a text into runs of the given lengths. -/
def cut : (sizes : List Nat) → List Char → List (List Char)
  | [], _ => []
  | size :: sizes, text => text.take size :: cut sizes (text.drop size)

/-- The hyphenated form in lower case. -/
def render (id : Uuid) : String := String.ofList (Parts.join '-' (cut groupSizes id.digits))

/-! ## reading -/

/-- The value of a hexadecimal digit of either case. -/
def digit? (c : Char) : Option Nat :=
  if '0' ≤ c ∧ c ≤ '9' then some (c.toNat - '0'.toNat)
  else if 'a' ≤ c ∧ c ≤ 'f' then some (c.toNat - 'a'.toNat + 10)
  else if 'A' ≤ c ∧ c ≤ 'F' then some (c.toNat - 'A'.toNat + 10)
  else none

/-- The identifier with the given digits. -/
def ofDigits (digits : List Char) : Uuid :=
  ⟨BitVec.ofNat 128 (digits.foldl (fun n c => n * 16 + (digit? c).getD 0) 0)⟩

/-- A text without its braces or its `urn:uuid:`, and the number of bytes before what is left; a
text that has neither is left alone. -/
def unwrap (text : List Char) : Option (List Char × Nat) :=
  match text with
  | '{' :: rest => if rest.getLast? = some '}' then some (rest.dropLast, 1) else none
  | _ =>
    if (text.take 9).map Char.toLower = "urn:uuid:".toList then some (text.drop 9, 9) else none

/-- The number of bytes of a text. -/
def byteLength (text : List Char) : Nat := text.foldl (fun n c => n + c.utf8Size) 0

/-- The first character that is no digit and no hyphen, with its offset from `offset`. -/
def strayCharacter? (offset : Nat) : List Char → Option (Char × Nat)
  | [] => none
  | c :: rest =>
    if c = '-' ∨ (digit? c).isSome then strayCharacter? (offset + c.utf8Size) rest
    else some (c, offset)

/-- The number of bytes of the hyphenated form. -/
def hyphenatedLength : Nat := 36

/-- The number of bytes of the longest form, the one after `urn:uuid:`. -/
def longestLength : Nat := 45

/-- What a text of the length of a hyphenated form would have to be in that form: the text itself,
or what is left of it without its braces or its `urn:uuid:`. -/
def hyphenated? (text : List Char) : Option (List Char) :=
  if byteLength text = hyphenatedLength then some text
  else (unwrap text).bind fun (body, _) =>
    if byteLength body = hyphenatedLength then some body else none

/-- The first fault of the groups of a text of `length` bytes. -/
def groupFault (length : Nat) (groups : List (List Char)) : Fault :=
  if groups.length ≠ 5 then .groupCount groups.length
  else
    match (groups.zip (groupSizes.take 4)).findIdx? (fun (group, size) => group.length ≠ size) with
    | some group => .groupLength group (groups.getD group []).length
    | none => .groupLength 4 (length - 24)

/-- The fault of a text that is no identifier. A text longer than any form has the wrong length,
whatever it holds. A text of the length of a hyphenated form is judged as one, and offsets count
from where that form starts; in any other text they count from its first byte. -/
def fault (text : List Char) : Fault :=
  let length := byteLength text
  let (body, offset) := (unwrap text).getD (text, 0)
  if longestLength < length then .length length
  else
    match hyphenated? text with
    | some form =>
      match strayCharacter? 0 form with
      | some (found, offset) => .character found offset
      | none => groupFault length (Parts.split '-' form)
    | none =>
      match strayCharacter? offset body with
      | some (found, offset) => .character found offset
      | none =>
        if unwrap text = none ∧ '-' ∉ text then .length length
        else groupFault length (Parts.split '-' body)

/-- Reads an identifier in any of its four forms. -/
def parse (text : String) : Except Fault Uuid :=
  let chars := text.toList
  let body := ((unwrap chars).getD (chars, 0)).1
  let groups := Parts.split '-' body
  if body.all fun c => c = '-' ∨ (digit? c).isSome then
    if groups.map List.length = groupSizes ∨ (groups.map List.length = [32] ∧ body = chars) then
      .ok (ofDigits groups.flatten)
    else .error (fault chars)
  else .error (fault chars)

end Uuid

end RaftJournal
