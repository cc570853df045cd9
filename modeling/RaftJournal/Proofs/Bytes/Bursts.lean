import Mathlib.Data.Nat.Bitwise
import RaftJournal.Bytes.Crc32

/-! # Bursts change the checksum

One step of the division is linear (**`Crc32.shift_xor`**) and loses nothing
(**`Crc32.shift_injective`**): the low bit that leaves can be told from the high bit of the polynomial
that comes in for it. So up to four bytes go into the remainder as one word of 32 bits
(**`Crc32.remainder_eq_shifts`**), different words leave different remainders, and the bytes behind
them keep these apart. Two runs of bytes that differ only within four bytes in a row have different
checksums: **`crc32_ne_of_burst`**. -/

namespace RaftJournal

namespace Crc32

/-! ## one step -/

/-- The bit that leaves in a step is that of an odd number. -/
theorem low_bit_iff (r : UInt32) : r &&& 1 = 1 ↔ r.toNat % 2 = 1 := by
  rw [← UInt32.toNat_inj, UInt32.toNat_and]
  show r.toNat &&& 1 = 1 ↔ _
  rw [Nat.and_one_is_mod]

/-- Without its low bit a remainder is halved. -/
theorem toNat_half (r : UInt32) : (r >>> 1).toNat = r.toNat / 2 := by
  rw [UInt32.toNat_shiftRight]
  exact Nat.shiftRight_eq_div_pow r.toNat 1

/-- A bit that leaves brings in the polynomial. -/
theorem shift_of_odd {r : UInt32} (h : r.toNat % 2 = 1) : shift r = r >>> 1 ^^^ polynomial :=
  if_pos ((low_bit_iff r).mpr h)

/-- Where no bit leaves, the remainder is only shifted. -/
theorem shift_of_even {r : UInt32} (h : ¬ r.toNat % 2 = 1) : shift r = r >>> 1 :=
  if_neg fun odd => h ((low_bit_iff r).mp odd)

/-- A step is linear. -/
theorem shift_xor (a b : UInt32) : shift (a ^^^ b) = shift a ^^^ shift b := by
  have parity : (a ^^^ b).toNat % 2 = (a.toNat + b.toNat) % 2 := by
    rw [UInt32.toNat_xor, Nat.xor_mod_two_eq]
  -- one case for each pair of low bits; when both are set the polynomial is taken off twice
  by_cases ha : a.toNat % 2 = 1
  · by_cases hb : b.toNat % 2 = 1
    · rw [shift_of_even (by omega), shift_of_odd ha, shift_of_odd hb]
      calc (a ^^^ b) >>> 1
          = a >>> 1 ^^^ b >>> 1 ^^^ (polynomial ^^^ polynomial) := by
            rw [UInt32.xor_self, UInt32.xor_zero, UInt32.shiftRight_xor]
        _ = (a >>> 1 ^^^ polynomial) ^^^ (b >>> 1 ^^^ polynomial) := by ac_rfl
    · rw [shift_of_odd (by omega), shift_of_odd ha, shift_of_even hb, UInt32.shiftRight_xor]
      ac_rfl
  · by_cases hb : b.toNat % 2 = 1
    · rw [shift_of_odd (by omega), shift_of_even ha, shift_of_odd hb, UInt32.shiftRight_xor]
      ac_rfl
    · rw [shift_of_even (by omega), shift_of_even ha, shift_of_even hb, UInt32.shiftRight_xor]

/-- Only zero becomes zero: a bit that leaves brings in the high bit of the polynomial. -/
theorem eq_zero_of_shift {r : UInt32} (h : shift r = 0) : r = 0 := by
  have size := r.toNat_lt
  apply UInt32.toNat_inj.mp
  by_cases odd : r.toNat % 2 = 1
  · rw [shift_of_odd odd, UInt32.xor_eq_zero_iff] at h
    have half : r.toNat / 2 = polynomial.toNat := (toNat_half r).symm.trans (congrArg _ h)
    rw [show polynomial.toNat = 3988292384 from rfl] at half
    omega
  · rw [shift_of_even odd] at h
    have half : r.toNat / 2 = 0 := (toNat_half r).symm.trans (congrArg UInt32.toNat h)
    rw [UInt32.toNat_zero]
    omega

/-- A step loses nothing. -/
theorem shift_injective : Function.Injective shift := by
  intro a b same
  have difference : shift (a ^^^ b) = 0 := by
    rw [shift_xor, same, UInt32.xor_self]
  exact UInt32.xor_eq_zero_iff.mp (eq_zero_of_shift difference)

/-! ## several steps -/

/-- Different remainders stay different over any number of steps. -/
theorem shifts_injective (count : Nat) : Function.Injective (shifts count) := by
  induction count with
  | zero => exact fun _ _ same => same
  | succ count ih => exact ih.comp shift_injective

/-- Steps are linear, any number of them. -/
theorem shifts_xor (count : Nat) (a b : UInt32) :
    shifts count (a ^^^ b) = shifts count a ^^^ shifts count b := by
  induction count generalizing a b with
  | zero => rfl
  | succ count ih => rw [shifts, shifts, shifts, shift_xor, ih]

/-- Steps after steps are steps. -/
theorem shifts_add (first later : Nat) (r : UInt32) :
    shifts (first + later) r = shifts later (shifts first r) := by
  induction first generalizing r with
  | zero => rw [Nat.zero_add, shifts]
  | succ first ih => rw [Nat.add_right_comm, shifts, shifts, ih]

/-- As long as only zeros leave, a step halves. -/
theorem shifts_of_mul {count n : Nat} (fits : n * 2 ^ count < UInt32.size) :
    shifts count (UInt32.ofNat (n * 2 ^ count)) = UInt32.ofNat n := by
  induction count with
  | zero => rw [shifts, Nat.pow_zero, Nat.mul_one]
  | succ count ih =>
    have double : n * 2 ^ (count + 1) = 2 * (n * 2 ^ count) := by
      rw [Nat.pow_succ]
      ac_rfl
    rw [double] at fits ⊢
    have value : (UInt32.ofNat (2 * (n * 2 ^ count))).toNat = 2 * (n * 2 ^ count) :=
      UInt32.toNat_ofNat_of_lt' fits
    have half : shift (UInt32.ofNat (2 * (n * 2 ^ count))) = UInt32.ofNat (n * 2 ^ count) := by
      apply UInt32.toNat_inj.mp
      rw [shift_of_even (by omega), toNat_half, value, UInt32.toNat_ofNat_of_lt' (by omega)]
      omega
    rw [shifts, half, ih (by omega)]

/-! ## bytes -/

/-- The remainder of bytes goes on over the bytes behind them. -/
theorem remainder_append (r : UInt32) (first later : Bytes) :
    remainder r (first ++ later) = remainder (remainder r first) later :=
  List.foldl_append

/-- The same bytes keep remainders apart. -/
theorem remainder_injective (bytes : Bytes) : Function.Injective fun r => remainder r bytes := by
  induction bytes with
  | nil => exact fun _ _ same => same
  | cons b rest ih =>
    intro r r' same
    exact (UInt32.xor_left_inj _).mp (shifts_injective 8 (ih same))

/-- The lowest byte of a word and those above it share no bits. -/
theorem toWord32_cons (b : UInt8) (rest : Bytes) :
    Bytes.toWord32 (b :: rest) = b.toUInt32 ^^^ UInt32.ofNat (Bytes.toNat rest * 2 ^ 8) := by
  have low := b.toNat_lt
  have parts : b.toNat + 256 * Bytes.toNat rest = b.toNat ^^^ (Bytes.toNat rest * 2 ^ 8) := by
    apply Nat.eq_of_testBit_eq
    intro i
    rw [Nat.add_comm, Nat.testBit_two_pow_mul_add (Bytes.toNat rest) low, Nat.testBit_xor,
      Nat.testBit_mul_two_pow]
    by_cases below : i < 8
    · rw [if_pos below, decide_eq_false (by omega), Bool.false_and, Bool.xor_false]
    · have clear : b.toNat.testBit i = false :=
        Nat.testBit_lt_two_pow
          (Nat.lt_of_lt_of_le low (Nat.pow_le_pow_right (by decide) (Nat.not_lt.mp below)))
      rw [if_neg below, decide_eq_true (by omega), Bool.true_and, clear, Bool.false_xor]
  rw [Bytes.toWord32, Bytes.toNat, parts, UInt32.ofNat_xor, UInt32.ofNat_uInt8ToNat]

/-- Up to four bytes go into the remainder as one word. -/
theorem remainder_eq_shifts (r : UInt32) {bytes : Bytes} (short : bytes.length ≤ 4) :
    remainder r bytes = shifts (8 * bytes.length) (r ^^^ Bytes.toWord32 bytes) := by
  induction bytes generalizing r with
  | nil => exact (UInt32.xor_zero).symm
  | cons b rest ih =>
    rw [List.length_cons] at short
    have room : Bytes.toNat rest * 2 ^ 8 < UInt32.size := by
      have bound := Bytes.toNat_lt rest
      have most : 2 ^ (8 * rest.length) ≤ 2 ^ (8 * 3) :=
        Nat.pow_le_pow_right Nat.two_pos (by omega)
      have size : UInt32.size = 2 ^ (8 * 3) * 2 ^ 8 := rfl
      rw [Nat.one_shiftLeft] at bound
      omega
    -- the later bytes could as well have gone in above the first one
    calc remainder r (b :: rest)
        = shifts (8 * rest.length) (shifts 8 (r ^^^ b.toUInt32) ^^^ Bytes.toWord32 rest) :=
          ih (absorb r b) (by omega)
      _ = shifts (8 * rest.length) (shifts 8 (r ^^^ b.toUInt32) ^^^
            shifts 8 (UInt32.ofNat (Bytes.toNat rest * 2 ^ 8))) := by
          rw [shifts_of_mul room]
          rfl
      _ = shifts (8 + 8 * rest.length) (r ^^^ Bytes.toWord32 (b :: rest)) := by
          rw [← shifts_xor, shifts_add, toWord32_cons, UInt32.xor_assoc]
      _ = shifts (8 * (b :: rest).length) (r ^^^ Bytes.toWord32 (b :: rest)) := by
          rw [List.length_cons, Nat.mul_add, Nat.add_comm]

/-- Different bytes, up to four of them, leave different remainders. -/
theorem eq_of_remainder_eq {r : UInt32} {bytes bytes' : Bytes} (short : bytes.length ≤ 4)
    (length : bytes'.length = bytes.length) (same : remainder r bytes' = remainder r bytes) :
    bytes' = bytes := by
  rw [remainder_eq_shifts r short, remainder_eq_shifts r (length ▸ short), length] at same
  have words := (UInt32.xor_right_inj r).mp (shifts_injective _ same)
  have bound {b : Bytes} (few : b.length ≤ 4) : Bytes.toNat b < UInt32.size := by
    refine Nat.lt_of_lt_of_le (Bytes.toNat_lt b) ?_
    rw [Nat.one_shiftLeft, show UInt32.size = 2 ^ (8 * 4) from rfl]
    exact Nat.pow_le_pow_right Nat.two_pos (Nat.mul_le_mul_left 8 few)
  have numbers := congrArg UInt32.toNat words
  rw [Bytes.toWord32, Bytes.toWord32, UInt32.toNat_ofNat_of_lt' (bound (length ▸ short)),
    UInt32.toNat_ofNat_of_lt' (bound short)] at numbers
  rw [← Bytes.ofNat_toNat bytes', numbers, length, Bytes.ofNat_toNat]

end Crc32

/-- Runs of bytes that differ only within four bytes in a row have different checksums. -/
theorem crc32_ne_of_burst {front part part' back : Bytes} (short : part.length ≤ 4)
    (length : part'.length = part.length) (changed : part' ≠ part) :
    crc32 (front ++ (part' ++ back)) ≠ crc32 (front ++ (part ++ back)) := by
  intro same
  rw [crc32, crc32, UInt32.xor_left_inj, Crc32.remainder_append, Crc32.remainder_append,
    Crc32.remainder_append, Crc32.remainder_append] at same
  exact changed (Crc32.eq_of_remainder_eq short length (Crc32.remainder_injective back same))

end RaftJournal
