import RaftJournal.Bytes.Word

/-! # CRC-32

The checksum of a record is the IEEE CRC-32 of its body: the remainder starts as all ones, takes in
each byte with its low bit first, and is complemented at the end. **`Crc32.shift`** is one bit of the
division by the reflected polynomial, **`Crc32.absorb`** one byte, **`crc32`** a whole run. -/

namespace RaftJournal

namespace Crc32

/-- The reflected IEEE polynomial. -/
def polynomial : UInt32 := 0xEDB88320

/-- One step of the division: the low bit leaves, and when it is set the polynomial is taken off. -/
def shift (r : UInt32) : UInt32 :=
  if r &&& 1 = 1 then (r >>> 1) ^^^ polynomial else r >>> 1

/-- The remainder after `count` steps. -/
def shifts : (count : Nat) → UInt32 → UInt32
  | 0, r => r
  | count + 1, r => shifts count (shift r)

/-- The remainder after one more byte. -/
def absorb (r : UInt32) (b : UInt8) : UInt32 := shifts 8 (r ^^^ b.toUInt32)

/-- The remainder after the bytes of a run. -/
def remainder (r : UInt32) (bytes : Bytes) : UInt32 := bytes.foldl absorb r

end Crc32

/-- The IEEE CRC-32 of a run of bytes. -/
def crc32 (bytes : Bytes) : UInt32 := Crc32.remainder 0xFFFFFFFF bytes ^^^ 0xFFFFFFFF

-- the check value of this checksum is that of the digits from 1 to 9
example : crc32 [0x31, 0x32, 0x33, 0x34, 0x35, 0x36, 0x37, 0x38, 0x39] = 0xCBF43926 := by
  decide +kernel

end RaftJournal
