import RaftJournal.Json.Token

/-! # Reading and writing JSON values

A **`Format`** writes the values of a type as tokens and reads them back. This module has the
formats of plain values (words, flags, texts, identifiers, choices) and those of optional values and
of lists; records are in `RaftJournal.Json.Record`.

A reader takes the tokens from its value on and gives the value with the tokens after it. What
stands instead of a value is described by **`Token.mismatch`**. -/

namespace RaftJournal.Json

/-- Reads a value from the front of the tokens. -/
abbrev Reader (α : Type) := List Token → Except Fault (α × List Token)

/-- How the values of a type stand in a JSON text. -/
structure Format (α : Type) where
  /-- Reads a value. -/
  read : Reader α
  /-- Writes a value. -/
  write : α → List Token

/-- The fault of a token where a value of another kind was expected. -/
def Token.mismatch (expected : String) : Token → Fault
  | .null => .invalidType .null expected
  | .boolean b => .invalidType (.boolean b) expected
  | .number (.integer n) => .invalidType (.integer n) expected
  | .number .floating => .invalidType .floating expected
  | .number .tooLarge => .numberOutOfRange
  | .text (.ok s) => .invalidType (.text s) expected
  | .text (.error fault) => fault
  | .leftBracket => .invalidType .sequence expected
  | .leftBrace => .invalidType .map expected
  | .broken _ read _ => read
  | _ => .noValue

/-- Reads one token, the whole of a plain value. -/
def readToken {α : Type} (take : Token → Except Fault α) : Reader α
  | [] => .error .cutValue
  | token :: rest => (take token).map fun a => (a, rest)

namespace Format

/-! ## plain values -/

/-- Integers from `low` to `high`, as values of a type of words. -/
def integer {α : Type} (expected : String) (low high : Int) (ofInt : Int → α) (toInt : α → Int) :
    Format α where
  read := readToken fun token =>
    match token with
    | .number (.integer n) =>
      if low ≤ n ∧ n ≤ high then .ok (ofInt n) else .error (.invalidValue (.integer n) expected)
    | _ => .error (token.mismatch expected)
  write a := [.number (.integer (toInt a))]

/-- Unsigned words of 64 bits. -/
def word64 : Format UInt64 :=
  integer "u64" 0 ((UInt64.size : Int) - 1) (fun n => UInt64.ofNat n.toNat) fun w => w.toNat

/-- Numbers of bytes or of entries: unsigned words of 64 bits under a name of their own. -/
def size : Format UInt64 :=
  integer "usize" 0 ((UInt64.size : Int) - 1) (fun n => UInt64.ofNat n.toNat) fun w => w.toNat

/-- Unsigned words of 32 bits. -/
def word32 : Format UInt32 :=
  integer "u32" 0 ((UInt32.size : Int) - 1) (fun n => UInt32.ofNat n.toNat) fun w => w.toNat

/-- Signed words of 64 bits. -/
def int64 : Format Int64 :=
  integer "i64" Int64.minValue.toInt Int64.maxValue.toInt Int64.ofInt Int64.toInt

/-- Flags. -/
def flag : Format Bool where
  read := readToken fun token =>
    match token with
    | .boolean b => .ok b
    | _ => .error (token.mismatch "a boolean")
  write b := [.boolean b]

/-- Texts. -/
def text : Format String where
  read := readToken fun token =>
    match token with
    | .text (.ok s) => .ok s
    | _ => .error (token.mismatch "a string")
  write s := [.text (.ok s)]

/-- Identifiers of groups. -/
def uuid : Format Uuid where
  read := readToken fun token =>
    match token with
    | .text (.ok s) =>
      match Uuid.parse s with
      | .ok id => .ok id
      | .error fault => .error (.uuid fault)
    | _ => .error (token.mismatch "a formatted UUID string")
  write id := [.text (.ok id.render)]

/-! ## values made of others -/

/-- An optional value: `null`, or the value. -/
def option {α : Type} (format : Format α) : Format (Option α) where
  read tokens :=
    match tokens with
    | .null :: rest => .ok (none, rest)
    | .broken .null read _ :: _ => .error read
    | _ => (format.read tokens).map fun (a, rest) => (some a, rest)
  write a? :=
    match a? with
    | none => [.null]
    | some a => format.write a

/-- The tokens of list elements from the second on, up to the closing bracket. -/
def writeMore {α : Type} (write : α → List Token) : List α → List Token
  | [] => [.rightBracket]
  | a :: more => .comma :: (write a ++ writeMore write more)

/-- The tokens of a list. -/
def writeList {α : Type} (write : α → List Token) : List α → List Token
  | [] => [.leftBracket, .rightBracket]
  | a :: more => .leftBracket :: (write a ++ writeMore write more)

end Format

/-- Comes to the next element of a list: true with the tokens of the element, false with the
tokens from the closing bracket on. -/
def nextElement (first : Bool) : List Token → Except Fault (Bool × List Token)
  | [] => .error .cutList
  | .rightBracket :: rest => .ok (false, .rightBracket :: rest)
  | token :: rest =>
    if first then .ok (true, token :: rest)
    else
      match token, rest with
      | .comma, [] => .error .cutValue
      | .comma, .rightBracket :: _ => .error .trailingComma
      | .comma, _ => .ok (true, rest)
      | _, _ => .error .noListSeparator

/-- Comes to the end of a list all of whose elements have been read. -/
def endList : List Token → Except Fault (List Token)
  | [] => .error .cutList
  | .rightBracket :: rest => .ok rest
  | .comma :: .rightBracket :: _ => .error .trailingComma
  | _ => .error .trailingCharacters

/-- Reads the elements of a list and its closing bracket; `bound` is more than the elements that
can come. -/
def readElements {α : Type} (read : Reader α) : (bound : Nat) → (first : Bool) → Reader (List α)
  | 0, _, _ => .error .cutList
  | bound + 1, first, tokens =>
    match nextElement first tokens with
    | .error fault => .error fault
    | .ok (false, tokens) => (endList tokens).map fun rest => ([], rest)
    | .ok (true, tokens) =>
      match read tokens with
      | .error fault => .error fault
      | .ok (a, tokens) =>
        (readElements read bound false tokens).map fun (more, rest) => (a :: more, rest)

/-- A list. -/
def Format.list {α : Type} (format : Format α) : Format (List α) where
  read tokens :=
    match tokens with
    | [] => .error .cutValue
    | .leftBracket :: rest => readElements format.read (rest.length + 1) true rest
    | token :: _ => .error (token.mismatch "a sequence")
  write := Format.writeList format.write

/-! ## keys and choices -/

/-- The text of a key. -/
def Token.key : Token → Except Fault String
  | .text content => content
  | .broken .text read _ => .error read
  | _ => .error .keyNotText

/-- Comes past the colon after a key. -/
def readColon : List Token → Except Fault (List Token)
  | [] => .error .cutObject
  | .colon :: rest => .ok rest
  | _ => .error .noColon

/-- Comes past the brace that closes a choice written as an object. -/
def readChoiceEnd : List Token → Except Fault (List Token)
  | [] => .error .cutObject
  | .rightBrace :: rest => .ok rest
  | _ => .error .noValue

/-- A finite type whose members have names. -/
structure Names (α : Type) where
  /-- The members in order. -/
  members : List α
  /-- The name of a member. -/
  name : α → String

/-- The member with the given name. -/
def Names.find? {α : Type} (names : Names α) (name : String) : Option α :=
  names.members.find? fun a => names.name a = name

/-- The member with the given name, or the fault that lists the names. -/
def Names.choose {α : Type} (names : Names α) (name : String) : Except Fault α :=
  match names.find? name with
  | some a => .ok a
  | none => .error (.unknownVariant name (names.members.map names.name))

/-- Reads the name of a choice written as an object, with the colon after it. -/
def readChoiceName {α : Type} (choose : String → Except Fault α) : Reader α
  | [] => .error .cutObject
  | .rightBrace :: _ => .error .noValue
  | token :: rest =>
    match token.key with
    | .error fault => .error fault
    | .ok name =>
      match choose name with
      | .error fault => .error fault
      | .ok a => (readColon rest).map fun rest => (a, rest)

/-- Reads the value of a choice that carries nothing. -/
def readUnit : List Token → Except Fault (List Token)
  | [] => .error .cutValue
  | .null :: rest => .ok rest
  | token :: _ => .error (token.mismatch "unit")

/-- A choice that carries nothing: its name, or an object with its name and `null`. -/
def Format.choice {α : Type} (names : Names α) : Format α where
  read tokens :=
    match tokens with
    | [] => .error .cutValue
    | .text (.ok name) :: rest => (names.choose name).map fun a => (a, rest)
    | .text (.error fault) :: _ => .error fault
    | .broken .text read _ :: _ => .error read
    | .leftBrace :: rest =>
      match readChoiceName names.choose rest with
      | .error fault => .error fault
      | .ok (a, rest) =>
        match readUnit rest with
        | .error fault => .error fault
        | .ok rest => (readChoiceEnd rest).map fun rest => (a, rest)
    | _ => .error .noValue
  write a := [.text (.ok (names.name a))]

/-- The same format for a type with the same values. -/
def Format.imap {α β : Type} (forth : α → β) (back : β → α) (format : Format α) : Format β where
  read tokens := (format.read tokens).map fun (a, rest) => (forth a, rest)
  write b := format.write (back b)

/-! ## whole texts -/

/-- Reads a value that is the whole of a text. -/
def Format.parse {α : Type} (format : Format α) (text : Bytes) : Except Fault α :=
  match format.read (Token.scan text) with
  | .error fault => .error fault
  | .ok (a, []) => .ok a
  | .ok (_, _ :: _) => .error .trailingCharacters

/-- Writes a value as a text. -/
def Format.print {α : Type} (format : Format α) (a : α) : String :=
  String.ofList (Token.render (format.write a))

end RaftJournal.Json
