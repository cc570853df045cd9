import RaftJournal.Text.Utf8

/-! # Characters and their bytes

A character is read back from its bytes, whatever follows them (**`Utf8.decodeFrom_append`**), and so
a text is read back from its own (**`Utf8.decode_encode`**). -/

namespace RaftJournal.Utf8

/-- The empty text has no bytes. -/
@[simp] theorem encode_nil : encode [] = [] := rfl

/-- The bytes of a text are those of its characters, one after the other. -/
@[simp] theorem encode_cons (c : Char) (text : List Char) :
    encode (c :: text) = String.utf8EncodeChar c ++ encode text := rfl

/-- The bytes of two texts one behind the other are those of the first and then those of the second. -/
theorem encode_append (a b : List Char) : encode (a ++ b) = encode a ++ encode b :=
  List.flatMap_append

/-- The bytes of a text made from characters are those of the characters. -/
@[simp] theorem ofString_ofList (text : List Char) : ofString (String.ofList text) = encode text := by
  rw [ofString, String.toList_ofList]

/-! ## sequences of each length -/

/-- A byte below `0x80` is a character of its own. -/
theorem decodeFrom_one {a : UInt8} (read : Nat) (rest : Bytes) (lead : a < 0x80) :
    decodeFrom read (a :: rest) =
      (decodeFrom (read + 1) rest).map (Char.ofNat a.toNat :: ·) := by
  rw [decodeFrom.eq_def]
  exact if_pos lead

/-- Two bytes are a character if the first announces two and the second may continue it. The leads
`0xC0` and `0xC1` are left out: what they would spell fits in one byte. -/
theorem decodeFrom_two {a b : UInt8} (read : Nat) (rest : Bytes)
    (lead : 0xC2 ≤ a.toNat ∧ a.toNat ≤ 0xDF) (second : isContinuation b) :
    decodeFrom read (a :: b :: rest) =
      (decodeFrom (read + 2) rest).map
        (Char.ofNat (a.toNat % 32 * 64 + bits b) :: ·) := by
  have above : ¬ a < 0x80 := by rw [UInt8.lt_iff_toNat_lt]; simp; omega
  have two : 0xC2 ≤ a && a ≤ 0xDF := by simp [UInt8.le_iff_toNat_le]; omega
  rw [decodeFrom.eq_def]
  simp only
  rw [if_neg above, if_pos two, if_pos second]

/-- Three bytes are a character if the first announces three and the others may follow. The second
is bounded so that neither a shorter spelling nor a surrogate is read. -/
theorem decodeFrom_three {a b c : UInt8} (read : Nat) (rest : Bytes)
    (lead : 0xE0 ≤ a.toNat ∧ a.toNat ≤ 0xEF) (second : mayFollowThree a b)
    (third : isContinuation c) :
    decodeFrom read (a :: b :: c :: rest) =
      (decodeFrom (read + 3) rest).map
        (Char.ofNat ((a.toNat % 16 * 64 + bits b) * 64 + bits c) :: ·) := by
  have above : ¬ a < 0x80 := by rw [UInt8.lt_iff_toNat_lt]; simp; omega
  have two : ¬ (0xC2 ≤ a && a ≤ 0xDF) := by simp [UInt8.le_iff_toNat_le]; omega
  have three : 0xE0 ≤ a && a ≤ 0xEF := by simp [UInt8.le_iff_toNat_le]; omega
  rw [decodeFrom.eq_def]
  simp only
  rw [if_neg above, if_neg two, if_pos three, if_pos second, if_pos third]

/-- Four bytes are a character if the first announces four and the others may follow. The second is
bounded so that neither a shorter spelling nor a number past the last character is read. -/
theorem decodeFrom_four {a b c d : UInt8} (read : Nat) (rest : Bytes)
    (lead : 0xF0 ≤ a.toNat ∧ a.toNat ≤ 0xF4) (second : mayFollowFour a b)
    (third : isContinuation c) (fourth : isContinuation d) :
    decodeFrom read (a :: b :: c :: d :: rest) =
      (decodeFrom (read + 4) rest).map
        (Char.ofNat (((a.toNat % 8 * 64 + bits b) * 64 + bits c) * 64 + bits d) :: ·) := by
  have above : ¬ a < 0x80 := by rw [UInt8.lt_iff_toNat_lt]; simp; omega
  have two : ¬ (0xC2 ≤ a && a ≤ 0xDF) := by simp [UInt8.le_iff_toNat_le]; omega
  have three : ¬ (0xE0 ≤ a && a ≤ 0xEF) := by simp [UInt8.le_iff_toNat_le]; omega
  have four : 0xF0 ≤ a && a ≤ 0xF4 := by simp [UInt8.le_iff_toNat_le]; omega
  rw [decodeFrom.eq_def]
  simp only
  rw [if_neg above, if_neg two, if_neg three, if_pos four, if_pos second, if_pos third,
    if_pos fourth]

/-! ## characters -/

/-- A number below 256 is kept by the byte made from it. -/
theorem toNat_ofNat {n : Nat} (h : n < 256) : (UInt8.ofNat n).toNat = n :=
  UInt8.toNat_ofNat_of_lt' h

/-- Which number a byte was made from is read off the byte. -/
theorem eq_toNat_of_ofNat_eq {n : Nat} {b : UInt8} (small : n < 256) (h : UInt8.ofNat n = b) :
    n = b.toNat := by
  rw [← h, toNat_ofNat small]

/-- A byte is in a range if its number is. -/
theorem between_ofNat {n : Nat} {least most : UInt8} (small : n < 256) (low : least.toNat ≤ n)
    (high : n ≤ most.toNat) : least ≤ UInt8.ofNat n && UInt8.ofNat n ≤ most := by
  rw [Bool.and_eq_true, decide_eq_true_eq, decide_eq_true_eq, UInt8.le_iff_toNat_le,
    UInt8.le_iff_toNat_le, toNat_ofNat small]
  exact ⟨low, high⟩

/-- Six bits under the mark of continuation bytes are a continuation byte. -/
theorem isContinuation_ofNat (n : Nat) : isContinuation (UInt8.ofNat (n % 64 + 128)) :=
  between_ofNat (by omega) (show 0x80 ≤ _ by omega) (show _ ≤ 0xBF by omega)

/-- A continuation byte gives back the six bits that were put under its mark. -/
@[simp] theorem bits_ofNat (n : Nat) : bits (UInt8.ofNat (n % 64 + 128)) = n % 64 := by
  rw [bits, toNat_ofNat (by omega)]
  omega

/-- The first two bytes of a character that takes three may stand together. -/
theorem mayFollowThree_ofNat {v : Nat} (low : 0x7FF < v) (high : v ≤ 0xFFFF)
    (noSurrogate : v < 0xD800 ∨ 0xDFFF < v) :
    mayFollowThree (UInt8.ofNat (v / 4096 % 16 + 0xE0)) (UInt8.ofNat (v / 64 % 64 + 128)) := by
  rw [mayFollowThree]
  split
  next least =>
    have lead : v / 4096 % 16 + 0xE0 = 0xE0 := eq_toNat_of_ofNat_eq (by omega) least
    exact between_ofNat (by omega) (show 0xA0 ≤ _ by omega) (show _ ≤ 0xBF by omega)
  next =>
    split
    next surrogate =>
      have lead : v / 4096 % 16 + 0xE0 = 0xED := eq_toNat_of_ofNat_eq (by omega) surrogate
      exact between_ofNat (by omega) (show 0x80 ≤ _ by omega) (show _ ≤ 0x9F by omega)
    next => exact isContinuation_ofNat (v / 64)

/-- The first two bytes of a character that takes four may stand together. -/
theorem mayFollowFour_ofNat {v : Nat} (low : 0xFFFF < v) (high : v < 0x110000) :
    mayFollowFour (UInt8.ofNat (v / 262144 % 8 + 0xF0)) (UInt8.ofNat (v / 4096 % 64 + 128)) := by
  rw [mayFollowFour]
  split
  next least =>
    have lead : v / 262144 % 8 + 0xF0 = 0xF0 := eq_toNat_of_ofNat_eq (by omega) least
    exact between_ofNat (by omega) (show 0x90 ≤ _ by omega) (show _ ≤ 0xBF by omega)
  next =>
    split
    next most =>
      have lead : v / 262144 % 8 + 0xF0 = 0xF4 := eq_toNat_of_ofNat_eq (by omega) most
      exact between_ofNat (by omega) (show 0x80 ≤ _ by omega) (show _ ≤ 0x8F by omega)
    next => exact isContinuation_ofNat (v / 4096)

/-- A character is read from its bytes, whatever follows them. -/
theorem decodeFrom_append (read : Nat) (c : Char) (rest : Bytes) :
    decodeFrom read (String.utf8EncodeChar c ++ rest) =
      (decodeFrom (read + c.utf8Size) rest).map (c :: ·) := by
  have valid := c.valid
  have size := String.length_utf8EncodeChar c
  have self : Char.ofNat c.val.toNat = c := Char.ofNat_toNat c
  have range : c.val.toNat < 0xD800 ∨ 0xDFFF < c.val.toNat ∧ c.val.toNat < 0x110000 := valid
  unfold String.utf8EncodeChar at size ⊢
  simp only at size ⊢
  generalize c.val.toNat = v at self range size ⊢
  -- one case for each length of the encoding
  by_cases one : v ≤ 0x7F
  · rw [if_pos one] at size ⊢
    have lead : (UInt8.ofNat v).toNat = v := toNat_ofNat (by omega)
    rw [← size, List.cons_append, List.nil_append, decodeFrom_one read rest, lead, self]
    · rfl
    · rw [UInt8.lt_iff_toNat_lt, lead]; simp; omega
  rw [if_neg one] at size ⊢
  by_cases two : v ≤ 0x7FF
  · rw [if_pos two] at size ⊢
    have lead : (UInt8.ofNat (v / 64 % 0x20 + 0xC0)).toNat = v / 64 % 0x20 + 0xC0 :=
      toNat_ofNat (by omega)
    have value : (v / 64 % 0x20 + 0xC0) % 32 * 64 + v % 64 = v := by omega
    rw [← size]
    simp only [List.cons_append, List.nil_append]
    rw [decodeFrom_two read rest (by rw [lead]; omega) (isContinuation_ofNat v), lead, bits_ofNat,
      value, self]
    rfl
  rw [if_neg two] at size ⊢
  by_cases three : v ≤ 0xFFFF
  · rw [if_pos three] at size ⊢
    have lead : (UInt8.ofNat (v / 4096 % 0x10 + 0xE0)).toNat = v / 4096 % 0x10 + 0xE0 :=
      toNat_ofNat (by omega)
    have value : ((v / 4096 % 0x10 + 0xE0) % 16 * 64 + v / 64 % 64) * 64 + v % 64 = v := by omega
    rw [← size]
    simp only [List.cons_append, List.nil_append]
    rw [decodeFrom_three read rest (by rw [lead]; omega)
      (mayFollowThree_ofNat (by omega) three (by omega)) (isContinuation_ofNat v), lead, bits_ofNat,
      bits_ofNat, value, self]
    rfl
  rw [if_neg three] at size ⊢
  have lead : (UInt8.ofNat (v / 262144 % 0x08 + 0xF0)).toNat = v / 262144 % 0x08 + 0xF0 :=
    toNat_ofNat (by omega)
  have value : (((v / 262144 % 0x08 + 0xF0) % 8 * 64 + v / 4096 % 64) * 64 + v / 64 % 64) * 64 +
      v % 64 = v := by omega
  rw [← size]
  simp only [List.cons_append, List.nil_append]
  rw [decodeFrom_four read rest (by rw [lead]; omega) (mayFollowFour_ofNat (by omega) (by omega))
    (isContinuation_ofNat (v / 64)) (isContinuation_ofNat v), lead, bits_ofNat, bits_ofNat, bits_ofNat,
    value, self]
  rfl

/-- A text is read back from its bytes, wherever the reader counts from. -/
theorem decodeFrom_encode (read : Nat) (text : List Char) :
    decodeFrom read (encode text) = .ok text := by
  induction text generalizing read with
  | nil => rw [encode_nil, decodeFrom]
  | cons c text ih =>
    rw [encode_cons, decodeFrom_append, ih]
    rfl

/-- **A text is read back from its bytes.** -/
@[simp] theorem decode_encode (text : List Char) : decode (encode text) = .ok text :=
  decodeFrom_encode 0 text

/-! ## ASCII -/

/-- An ASCII character is one byte. -/
theorem utf8EncodeChar_of_ascii {c : Char} (h : c.toNat < 128) :
    String.utf8EncodeChar c = [UInt8.ofNat c.toNat] := by
  unfold String.utf8EncodeChar
  exact if_pos (show c.val.toNat ≤ 127 by have : c.val.toNat < 128 := h; omega)

/-- All bytes of a character beyond ASCII are beyond ASCII. -/
theorem le_of_mem_utf8EncodeChar {c : Char} (h : 128 ≤ c.toNat) {b : UInt8}
    (mem : b ∈ String.utf8EncodeChar c) : 128 ≤ b.toNat := by
  have beyond : ¬ c.val.toNat ≤ 127 := by have : 128 ≤ c.val.toNat := h; omega
  unfold String.utf8EncodeChar at mem
  simp only [if_neg beyond] at mem
  split at mem
  · simp only [List.mem_cons, List.not_mem_nil, or_false] at mem
    rcases mem with rfl | rfl <;> rw [toNat_ofNat (by omega)] <;> omega
  · split at mem
    · simp only [List.mem_cons, List.not_mem_nil, or_false] at mem
      rcases mem with rfl | rfl | rfl <;> rw [toNat_ofNat (by omega)] <;> omega
    · simp only [List.mem_cons, List.not_mem_nil, or_false] at mem
      rcases mem with rfl | rfl | rfl | rfl <;> rw [toNat_ofNat (by omega)] <;> omega

end RaftJournal.Utf8
