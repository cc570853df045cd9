import RaftJournal.Packed.Fault

/-! # Words of variable length

A packed word below 251 is one byte. A larger one is a marker and then two, four or eight bytes, low
byte first; **`Varint.write`** takes the shortest of these, **`Varint.read`** takes any. A marker
that announces more bytes than the word can have is refused. -/

namespace RaftJournal.Packed

/-- Takes a number of bytes off the front. -/
def readBytes (count : Nat) (bytes : Bytes) : Except Fault (Bytes × Bytes) :=
  if bytes.length < count then .error (.unexpectedEnd (count - bytes.length))
  else .ok (bytes.take count, bytes.drop count)

/-- Takes one byte off the front. -/
def readByte : Bytes → Except Fault (UInt8 × Bytes)
  | [] => .error (.unexpectedEnd 1)
  | b :: rest => .ok (b, rest)

namespace Varint

/-- What a word is for. -/
inductive Role
  /-- A word of 32 bits. -/
  | word32
  /-- A word of 64 bits. -/
  | word64
  /-- A number of elements, of 64 bits. -/
  | size
  deriving DecidableEq, Repr

/-- The width that an error expects. A word of 64 bits is first looked for in a window of nine
bytes; where there are so many, its faults are reported as those of a word of 32 bits. -/
def Role.expected (role : Role) (available : Nat) : Width :=
  match role with
  | .word32 => .u32
  | .word64 => if 9 ≤ available then .u32 else .u64
  | .size => .size

/-- A word in its shortest form. -/
def write (n : Nat) : Bytes :=
  if n < 251 then [UInt8.ofNat n]
  else if n < UInt16.size then 251 :: Bytes.ofNat 2 n
  else if n < UInt32.size then 252 :: Bytes.ofNat 4 n
  else 253 :: Bytes.ofNat 8 n

/-- Reads a word of so many bytes. -/
def readWord (count : Nat) (bytes : Bytes) : Except Fault (Nat × Bytes) :=
  (readBytes count bytes).map fun (word, rest) => (Bytes.toNat word, rest)

/-- Reads a word in any of its forms. -/
def read (role : Role) (bytes : Bytes) : Except Fault (Nat × Bytes) :=
  match bytes with
  | [] => .error (.unexpectedEnd 1)
  | marker :: rest =>
    if marker < 251 then .ok (marker.toNat, rest)
    else if marker = 251 then readWord 2 rest
    else if marker = 252 then readWord 4 rest
    else if marker = 253 then
      if role = .word32 then .error (.integerType .u32 .u64) else readWord 8 rest
    else if marker = 254 then .error (.integerType (role.expected bytes.length) .u128)
    else .error (.integerType (role.expected bytes.length) .reserved)

/-! ## signed words -/

/-- A signed word as an unsigned one: 0, −1, 1, −2, 2, … become 0, 1, 2, 3, 4, …. -/
def zigzag (i : Int) : Nat := if i < 0 then (-2 * i - 1).toNat else (2 * i).toNat

/-- The signed word that an unsigned one stands for. -/
def unzigzag (n : Nat) : Int := if n % 2 = 0 then (n / 2 : Nat) else -((n / 2 : Nat) : Int) - 1

@[simp] theorem unzigzag_zigzag (i : Int) : unzigzag (zigzag i) = i := by
  unfold zigzag unzigzag
  split <;> split <;> omega

/-- A fault of an unsigned word as the fault of a signed one. -/
def signedFault : Fault → Fault
  | .integerType expected found => .integerType expected.signed found.signed
  | fault => fault

end Varint

end RaftJournal.Packed
