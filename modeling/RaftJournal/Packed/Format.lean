import RaftJournal.Layout
import RaftJournal.Packed.Varint

/-! # Reading and writing packed values

A packed **`Format`** writes the values of a type as bytes without any names and reads them back:
words of variable length, flags and the tags of optional values in one byte, texts and lists after
their lengths, choices by index, and records as their fields in order. -/

namespace RaftJournal.Packed

/-- How the values of a type stand in packed bytes. -/
structure Format (α : Type) where
  /-- Reads a value from the front. -/
  read : Bytes → Except Fault (α × Bytes)
  /-- Writes a value. -/
  write : α → Bytes

namespace Format

/-- Unsigned words of 64 bits. -/
def word64 : Format UInt64 where
  read bytes := (Varint.read .word64 bytes).map fun (n, rest) => (UInt64.ofNat n, rest)
  write w := Varint.write w.toNat

/-- Unsigned words of 32 bits. -/
def word32 : Format UInt32 where
  read bytes := (Varint.read .word32 bytes).map fun (n, rest) => (UInt32.ofNat n, rest)
  write w := Varint.write w.toNat

/-- Signed words of 64 bits. -/
def int64 : Format Int64 where
  read bytes :=
    match Varint.read .word64 bytes with
    | .error fault => .error (Varint.signedFault fault)
    | .ok (n, rest) => .ok (Int64.ofInt (Varint.unzigzag n), rest)
  write w := Varint.write (Varint.zigzag w.toInt)

/-- Flags. -/
def flag : Format Bool where
  read bytes :=
    match readByte bytes with
    | .error fault => .error fault
    | .ok (0, rest) => .ok (false, rest)
    | .ok (1, rest) => .ok (true, rest)
    | .ok (b, _) => .error (.flag b)
  write b := [if b then 1 else 0]

/-- Texts: the number of bytes, and the bytes. -/
def text : Format String where
  read bytes :=
    match Varint.read .word64 bytes with
    | .error fault => .error fault
    | .ok (length, rest) =>
      match readBytes length rest with
      | .error fault => .error fault
      | .ok (content, rest) =>
        match Utf8.decode content with
        | .error malformed => .error (.text malformed)
        | .ok chars => .ok (String.ofList chars, rest)
  write s := Varint.write (Utf8.ofString s).length ++ Utf8.ofString s

/-- Optional values: 0, or 1 and the value. -/
def option {α : Type} (format : Format α) : Format (Option α) where
  read bytes :=
    match readByte bytes with
    | .error fault => .error fault
    | .ok (0, rest) => .ok (none, rest)
    | .ok (1, rest) => (format.read rest).map fun (a, rest) => (some a, rest)
    | .ok (b, _) => .error (.optionTag b)
  write a? :=
    match a? with
    | none => [0]
    | some a => 1 :: format.write a

end Format

/-- Reads a number of elements. -/
def readElements {α : Type} (read : Bytes → Except Fault (α × Bytes)) :
    (count : Nat) → Bytes → Except Fault (List α × Bytes)
  | 0, bytes => .ok ([], bytes)
  | count + 1, bytes =>
    match read bytes with
    | .error fault => .error fault
    | .ok (a, rest) => (readElements read count rest).map fun (more, rest) => (a :: more, rest)

namespace Format

/-- Lists: the number of elements, and the elements. -/
def list {α : Type} (format : Format α) : Format (List α) where
  read bytes :=
    match Varint.read .size bytes with
    | .error fault => .error fault
    | .ok (count, rest) => readElements format.read count rest
  write l := Varint.write l.length ++ l.flatMap format.write

/-- Choices from a list of members, by their index. -/
def choice {α : Type} [DecidableEq α] (members : List α) : Format α where
  read bytes :=
    match Varint.read .word32 bytes with
    | .error fault => .error fault
    | .ok (index, rest) =>
      match members[index]? with
      | some a => .ok (a, rest)
      | none => .error (.choiceIndex index members.length)
  write a := Varint.write (members.idxOf a)

/-- The same format for a type with the same values. -/
def imap {α β : Type} (forth : α → β) (back : β → α) (format : Format α) : Format β where
  read bytes := (format.read bytes).map fun (a, rest) => (forth a, rest)
  write b := format.write (back b)

end Format

/-- Reads the fields of a layout in order. -/
def readRow : {ρ : Type} → Layout Format ρ → Bytes → Except Fault (ρ × Bytes)
  | _, .nil, bytes => .ok ((), bytes)
  | _, .cons field rest, bytes =>
    match field.format.read bytes with
    | .error fault => .error fault
    | .ok (a, bytes) => (readRow rest bytes).map fun (row, bytes) => ((a, row), bytes)

/-- Writes the fields of a layout in order. -/
def writeRow : {ρ : Type} → Layout Format ρ → ρ → Bytes
  | _, .nil, () => []
  | _, .cons field rest, (a, row) => field.format.write a ++ writeRow rest row

/-- The rows of a layout, field by field. -/
def Format.record {ρ : Type} (layout : Layout Format ρ) : Format ρ where
  read := readRow layout
  write := writeRow layout

/-- Reads a value that is the whole of a run of bytes. -/
def Format.parse {α : Type} (format : Format α) (bytes : Bytes) : Except Fault α :=
  match format.read bytes with
  | .error fault => .error fault
  | .ok (a, []) => .ok a
  | .ok (_, rest) => .error (.trailingBytes rest.length)

end RaftJournal.Packed
