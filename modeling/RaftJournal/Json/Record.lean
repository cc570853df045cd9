import RaftJournal.Json.Format
import RaftJournal.Json.Skip
import RaftJournal.Layout

/-! # JSON records

**`Format.record`** reads and writes the rows of a layout. A record is written as an object with all
of its fields in order. It is read from an object whose members come in any order, where a member
that the layout does not know is skipped and a field that is absent takes its default, or from a
list of the fields in order that may stop early where the fields left have defaults.

A second member of one name is refused at its key; a missing field only at the closing brace, and of
several the first in the order of the layout. -/

namespace RaftJournal.Json

/-! ## from an object -/

/-- Comes to the next member of an object: its key with the tokens after it, or nothing with the
tokens after the closing brace. -/
def nextKey (first : Bool) : List Token → Except Fault (Option String × List Token)
  | [] => .error .cutObject
  | .rightBrace :: rest => .ok (none, rest)
  | token :: rest =>
    if first then token.key.map fun key => (some key, rest)
    else
      match token, rest with
      | .comma, [] => .error .cutValue
      | .comma, .rightBrace :: _ => .error .trailingComma
      | .comma, token :: rest => token.key.map fun key => (some key, rest)
      | _, _ => .error .noObjectSeparator

/-- Reads what follows the key of a member: a value for the place of its field, or a value to
skip when no field has the name. -/
def readMember : {ρ : Type} → (layout : Layout Format ρ) → layout.Slots → String →
    Reader layout.Slots
  | _, .nil, _, _, tokens =>
    match readColon tokens with
    | .error fault => .error fault
    | .ok tokens => (skipValue tokens).map fun rest => (Layout.empty .nil, rest)
  | _, .cons field rest, slots, key, tokens =>
    if key = field.name then
      match slots.uncons.1 with
      | some _ => .error (.duplicateField key)
      | none =>
        match readColon tokens with
        | .error fault => .error fault
        | .ok tokens =>
          (field.format.read tokens).map fun (a, left) =>
            (.cons field (some a) slots.uncons.2, left)
    else
      (readMember rest slots.uncons.2 key tokens).map fun (others, left) =>
        (.cons field slots.uncons.1 others, left)

/-- The row of the values found, with the defaults of the fields that were not. -/
def finishMembers : {ρ : Type} → (layout : Layout Format ρ) → layout.Slots → Except Fault ρ
  | _, .nil, _ => .ok ()
  | _, .cons field rest, slots =>
    match slots.uncons.1 <|> field.ifMissing with
    | none => .error (.missingField field.name)
    | some a => (finishMembers rest slots.uncons.2).map fun row => (a, row)

/-- Reads the members of an object and its closing brace; `bound` is more than the members that can
come. -/
def readMembers {ρ : Type} (layout : Layout Format ρ) :
    (bound : Nat) → (first : Bool) → layout.Slots → Reader ρ
  | 0, _, _, _ => .error .cutObject
  | bound + 1, first, slots, tokens =>
    match nextKey first tokens with
    | .error fault => .error fault
    | .ok (none, rest) => (finishMembers layout slots).map fun row => (row, rest)
    | .ok (some key, tokens) =>
      match readMember layout slots key tokens with
      | .error fault => .error fault
      | .ok (slots, tokens) => readMembers layout bound false slots tokens

/-! ## from a list -/

/-- Reads the fields of a list in order; `read` counts those before. A list that is too short is
reported with the name and the size of the whole record. -/
def readFields (record : String) (fields : Nat) :
    {ρ : Type} → Layout Format ρ → (read : Nat) → Reader ρ
  | _, .nil, _, tokens => .ok ((), tokens)
  | _, .cons field rest, read, tokens =>
    match nextElement (read = 0) tokens with
    | .error fault => .error fault
    | .ok (false, tokens) =>
      match field.ifCut with
      | none => .error (.invalidLength read record fields)
      | some a =>
        (readFields record fields rest (read + 1) tokens).map fun (row, left) => ((a, row), left)
    | .ok (true, tokens) =>
      match field.format.read tokens with
      | .error fault => .error fault
      | .ok (a, tokens) =>
        (readFields record fields rest (read + 1) tokens).map fun (row, left) => ((a, row), left)

/-! ## the format -/

/-- Reads a record written as an object or as a list. -/
def readRecord {ρ : Type} (record : String) (layout : Layout Format ρ) : Reader ρ
  | [] => .error .cutValue
  | .leftBrace :: rest => readMembers layout (rest.length + 1) true layout.empty rest
  | .leftBracket :: rest =>
    match readFields record layout.size layout 0 rest with
    | .error fault => .error fault
    | .ok (row, rest) => (endList rest).map fun rest => (row, rest)
  | token :: _ => .error (token.mismatch ("struct " ++ record))

/-- The tokens of the members from the second on, up to the closing brace. -/
def writeMembers : {ρ : Type} → Layout Format ρ → ρ → List Token
  | _, .nil, () => [.rightBrace]
  | _, .cons field rest, (a, row) =>
    .comma :: .text (.ok field.name) :: .colon :: (field.format.write a ++ writeMembers rest row)

/-- The tokens of a record: an object with all of its fields in order. -/
def writeRecord : {ρ : Type} → Layout Format ρ → ρ → List Token
  | _, .nil, () => [.leftBrace, .rightBrace]
  | _, .cons field rest, (a, row) =>
    .leftBrace :: .text (.ok field.name) :: .colon ::
      (field.format.write a ++ writeMembers rest row)

/-- The rows of a layout as records of the given name. -/
def Format.record {ρ : Type} (name : String) (layout : Layout Format ρ) : Format ρ where
  read := readRecord name layout
  write := writeRecord layout

end RaftJournal.Json
