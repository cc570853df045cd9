import RaftJournal.Text.Quoted
import RaftJournal.Uuid

/-! # What is wrong with a JSON text

A JSON text is read from left to right, and the first **`Fault`** met ends the reading, whether it is
one of form or one of content. **`Fault.message`** words each. -/

namespace RaftJournal.Json

/-- What stands where something else was expected. -/
inductive Unexpected
  | integer (n : Int)
  | boolean (b : Bool)
  | text (s : String)
  | floating
  | null
  | map
  | sequence
  | unitVariant
  deriving DecidableEq, Repr

/-- The words for what was found. -/
def Unexpected.describe : Unexpected → String
  | .integer n => s!"integer `{n}`"
  | .boolean b => s!"boolean `{b}`"
  | .text s => "string " ++ Quoted.quote s
  | .floating => "floating point"
  | .null => "null"
  | .map => "map"
  | .sequence => "sequence"
  | .unitVariant => "unit variant"

/-- The first problem of a JSON text. -/
inductive Fault
  /-- The text ends inside a list. -/
  | cutList
  /-- The text ends inside an object. -/
  | cutObject
  /-- The text ends inside a string. -/
  | cutText
  /-- The text ends where a value should stand. -/
  | cutValue
  /-- No value starts here. -/
  | noValue
  /-- A word that starts like `true`, `false` or `null` goes on otherwise. -/
  | noWord
  /-- A key is not followed by a colon. -/
  | noColon
  /-- A list element is followed by neither a comma nor the closing bracket. -/
  | noListSeparator
  /-- An object member is followed by neither a comma nor the closing brace. -/
  | noObjectSeparator
  /-- A key is no string. -/
  | keyNotText
  /-- A comma stands before a closing bracket or brace. -/
  | trailingComma
  /-- Something follows what should be the end. -/
  | trailingCharacters
  /-- A backslash is followed by no known escape. -/
  | badEscape
  /-- The digits of a number are not well formed. -/
  | badNumber
  /-- A number is beyond the floating point range. -/
  | numberOutOfRange
  /-- The bytes of a string are no UTF-8. -/
  | badCodePoint
  /-- A control character stands in a string. -/
  | controlCharacter
  /-- An escape names a low surrogate without, or a high one with no low one after it. -/
  | loneSurrogate
  /-- An escape names a high surrogate and no further escape follows. -/
  | cutSurrogate
  | missingField (name : String)
  | duplicateField (name : String)
  | invalidType (found : Unexpected) (expected : String)
  | invalidValue (found : Unexpected) (expected : String)
  | invalidLength (found : Nat) (record : String) (fields : Nat)
  | unknownVariant (name : String) (known : List String)
  | uuid (fault : Uuid.Fault)
  deriving DecidableEq, Repr

/-- The known names of a choice, as an error lists them. -/
def oneOf : List String → String
  | [] => "there are no variants"
  | [a] => s!"expected `{a}`"
  | [a, b] => s!"expected `{a}` or `{b}`"
  | names => "expected one of " ++ ", ".intercalate (names.map fun name => s!"`{name}`")

/-- What an error says about the text. -/
def Fault.message : Fault → String
  | .cutList => "EOF while parsing a list"
  | .cutObject => "EOF while parsing an object"
  | .cutText => "EOF while parsing a string"
  | .cutValue => "EOF while parsing a value"
  | .noValue => "expected value"
  | .noWord => "expected ident"
  | .noColon => "expected `:`"
  | .noListSeparator => "expected `,` or `]`"
  | .noObjectSeparator => "expected `,` or `\x7d`"
  | .keyNotText => "key must be a string"
  | .trailingComma => "trailing comma"
  | .trailingCharacters => "trailing characters"
  | .badEscape => "invalid escape"
  | .badNumber => "invalid number"
  | .numberOutOfRange => "number out of range"
  | .badCodePoint => "invalid unicode code point"
  | .controlCharacter => "control character (\\u0000-\\u001F) found while parsing a string"
  | .loneSurrogate => "lone leading surrogate in hex escape"
  | .cutSurrogate => "unexpected end of hex escape"
  | .missingField name => s!"missing field `{name}`"
  | .duplicateField name => s!"duplicate field `{name}`"
  | .invalidType found expected => s!"invalid type: {found.describe}, expected {expected}"
  | .invalidValue found expected => s!"invalid value: {found.describe}, expected {expected}"
  | .invalidLength found record fields =>
    let noun := if fields = 1 then "element" else "elements"
    s!"invalid length {found}, expected struct {record} with {fields} {noun}"
  | .unknownVariant name known => s!"unknown variant `{name}`, {oneOf known}"
  | .uuid fault => s!"UUID parsing failed: {fault.message}"

end RaftJournal.Json
