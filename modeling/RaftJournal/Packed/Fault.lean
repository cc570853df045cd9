import RaftJournal.Text.Utf8

/-! # What is wrong with a packed value

Reading a packed value fails at the first **`Packed.Fault`**; **`Packed.Fault.message`** words each. -/

namespace RaftJournal.Packed

/-- A width of words, as errors name it. -/
inductive Width
  | u16
  | u32
  | u64
  | u128
  | size
  | i16
  | i32
  | i64
  | i128
  | reserved
  deriving DecidableEq, Repr

/-- The name of a width. -/
def Width.name : Width → String
  | .u16 => "U16"
  | .u32 => "U32"
  | .u64 => "U64"
  | .u128 => "U128"
  | .size => "Usize"
  | .i16 => "I16"
  | .i32 => "I32"
  | .i64 => "I64"
  | .i128 => "I128"
  | .reserved => "Reserved"

/-- The signed width of the same size. -/
def Width.signed : Width → Width
  | .u16 => .i16
  | .u32 => .i32
  | .u64 => .i64
  | .u128 => .i128
  | width => width

/-- The first problem of a packed value. -/
inductive Fault
  /-- So many bytes are missing for the value being read. -/
  | unexpectedEnd (missing : Nat)
  /-- An optional value starts with neither 0 nor 1. -/
  | optionTag (found : UInt8)
  /-- A flag is neither 0 nor 1. -/
  | flag (found : UInt8)
  /-- A word is announced with a width that is too large. -/
  | integerType (expected found : Width)
  /-- The bytes of a text are no UTF-8. -/
  | text (malformed : Utf8.Malformed)
  /-- A choice has an index that none of its members has. -/
  | choiceIndex (found members : Nat)
  /-- A payload has the index of no known kind, so its length is not known. -/
  | unknownPayload
  /-- So many bytes follow the value. -/
  | trailingBytes (count : Nat)
  deriving DecidableEq, Repr

/-- What an error says about the bytes. -/
def Fault.message : Fault → String
  | .unexpectedEnd missing => s!"UnexpectedEnd \x7b additional: {missing} \x7d"
  | .optionTag found =>
    s!"UnexpectedVariant \x7b type_name: \"Option<T>\", allowed: Range \x7b min: 0, max: 1 \x7d, " ++
      s!"found: {found} \x7d"
  | .flag found => s!"InvalidBooleanValue({found})"
  | .integerType expected found =>
    s!"InvalidIntegerType \x7b expected: {expected.name}, found: {found.name} \x7d"
  | .text malformed =>
    let badLength := match malformed.badLength with
      | none => "None"
      | some n => s!"Some({n})"
    s!"Utf8 \x7b inner: Utf8Error \x7b valid_up_to: {malformed.validUpTo}, " ++
      s!"error_len: {badLength} \x7d \x7d"
  | .choiceIndex found members =>
    s!"OtherString(\"invalid value: integer `{found}`, expected variant index 0 <= i < {members}\")"
  | .unknownPayload => "Serde(IgnoredAnyNotSupported)"
  | .trailingBytes count => s!"{count} trailing bytes after batch"

end RaftJournal.Packed
