/-! # Bytes and little-endian words

The journal's files, and the compact form of its batches, keep every word with its low byte first.
**`Bytes.ofNat`** writes the low bytes of a number and **`Bytes.toNat`** reads a number back;
`toNat_ofNat` says that reading returns what was written, modulo the width. -/

namespace RaftJournal

/-- A run of bytes: a file's contents, a payload or a text in UTF-8. -/
abbrev Bytes := List UInt8

namespace Bytes

/-- The `width` low bytes of `value`, low byte first. -/
def ofNat : (width : Nat) → (value : Nat) → Bytes
  | 0, _ => []
  | width + 1, value => UInt8.ofNat value :: ofNat width (value / 256)

/-- The number whose bytes, low byte first, are given. -/
def toNat : Bytes → Nat
  | [] => 0
  | b :: rest => b.toNat + 256 * toNat rest

@[simp] theorem length_ofNat (width value : Nat) : (ofNat width value).length = width := by
  induction width generalizing value with
  | zero => rfl
  | succ width ih => simp [ofNat, ih]

/-- One byte more makes room for 256 times as many values. -/
theorem shiftLeft_byte (width : Nat) : 1 <<< (8 * (width + 1)) = 256 * 1 <<< (8 * width) := by
  simp only [Nat.shiftLeft_eq, Nat.mul_add, Nat.pow_add]
  omega

@[simp] theorem toNat_ofNat (width value : Nat) :
    toNat (ofNat width value) = value % 1 <<< (8 * width) := by
  induction width generalizing value with
  | zero => simp [ofNat, toNat, Nat.mod_one]
  | succ width ih =>
    rw [ofNat, toNat, ih, shiftLeft_byte, Nat.mod_mul]
    simp

/-- A run of bytes stands for a number of as many bits as the bytes have. -/
theorem toNat_lt (b : Bytes) : toNat b < 1 <<< (8 * b.length) := by
  induction b with
  | nil => decide
  | cons x rest ih =>
    have := x.toNat_lt
    rw [toNat, List.length_cons, shiftLeft_byte]
    omega

/-- Writing what was read from as many bytes gives these bytes. -/
theorem ofNat_toNat (b : Bytes) : ofNat b.length (toNat b) = b := by
  induction b with
  | nil => rfl
  | cons x rest ih =>
    have bound := x.toNat_lt
    have low : UInt8.ofNat (x.toNat + 256 * toNat rest) = x := by
      apply UInt8.toNat_inj.mp
      simp
    have high : (x.toNat + 256 * toNat rest) / 256 = toNat rest := by omega
    rw [List.length_cons, toNat, ofNat, low, high, ih]

/-- A 32-bit word in four bytes. -/
def ofWord32 (w : UInt32) : Bytes := ofNat 4 w.toNat

/-- A 64-bit word in eight bytes. -/
def ofWord64 (w : UInt64) : Bytes := ofNat 8 w.toNat

/-- The 32-bit word in the given bytes. -/
def toWord32 (b : Bytes) : UInt32 := UInt32.ofNat (toNat b)

/-- The 64-bit word in the given bytes. -/
def toWord64 (b : Bytes) : UInt64 := UInt64.ofNat (toNat b)

@[simp] theorem toWord32_ofWord32 (w : UInt32) : toWord32 (ofWord32 w) = w := by
  apply UInt32.toNat_inj.mp
  have := w.toNat_lt
  simp [toWord32, ofWord32]

@[simp] theorem toWord64_ofWord64 (w : UInt64) : toWord64 (ofWord64 w) = w := by
  apply UInt64.toNat_inj.mp
  have := w.toNat_lt
  simp [toWord64, ofWord64]

theorem ofWord32_toWord32 {b : Bytes} (h : b.length = 4) : ofWord32 (toWord32 b) = b := by
  have bound := toNat_lt b
  rw [h] at bound
  rw [ofWord32, toWord32, UInt32.toNat_ofNat_of_lt' (by simpa using bound), ← h, ofNat_toNat]

theorem ofWord64_toWord64 {b : Bytes} (h : b.length = 8) : ofWord64 (toWord64 b) = b := by
  have bound := toNat_lt b
  rw [h] at bound
  rw [ofWord64, toWord64, UInt64.toNat_ofNat_of_lt' (by simpa using bound), ← h, ofNat_toNat]

end Bytes

end RaftJournal
