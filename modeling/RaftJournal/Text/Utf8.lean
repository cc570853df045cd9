import RaftJournal.Bytes.Word

/-! # Text in UTF-8

**`Utf8.encode`** writes characters and **`Utf8.decode`** reads them back. A run that is no UTF-8 is
refused with the place where the good text ends and with the length of the bad sequence there; a
sequence that the run merely cuts short has no length. -/

namespace RaftJournal.Utf8

/-- Where a run of bytes stops being UTF-8. -/
structure Malformed where
  /-- The number of bytes before the bad sequence. -/
  validUpTo : Nat
  /-- The length of the bad sequence, or nothing when the run ends inside a good one. -/
  badLength : Option Nat
  deriving DecidableEq, Repr

/-- The UTF-8 bytes of a run of characters. -/
def encode (text : List Char) : Bytes := text.flatMap String.utf8EncodeChar

/-- The UTF-8 bytes of a text. -/
def ofString (text : String) : Bytes := encode text.toList

/-- A continuation byte holds six bits of a character. -/
def isContinuation (b : UInt8) : Bool := 0x80 ≤ b && b ≤ 0xBF

/-- The six bits that a continuation byte holds. -/
def bits (b : UInt8) : Nat := b.toNat % 64

/-- Whether `b` may follow the lead byte of a three byte sequence: no long forms, no surrogates. -/
def mayFollowThree (lead b : UInt8) : Bool :=
  if lead = 0xE0 then 0xA0 ≤ b && b ≤ 0xBF
  else if lead = 0xED then 0x80 ≤ b && b ≤ 0x9F
  else isContinuation b

/-- Whether `b` may follow the lead byte of a four byte sequence: no long forms, nothing past the
last code point. -/
def mayFollowFour (lead b : UInt8) : Bool :=
  if lead = 0xF0 then 0x90 ≤ b && b ≤ 0xBF
  else if lead = 0xF4 then 0x80 ≤ b && b ≤ 0x8F
  else isContinuation b

/-- Reads characters to the end of the run; `read` counts the bytes before it. -/
def decodeFrom (read : Nat) : Bytes → Except Malformed (List Char)
  | [] => .ok []
  | a :: rest =>
    if a < 0x80 then
      (decodeFrom (read + 1) rest).map (Char.ofNat a.toNat :: ·)
    else if 0xC2 ≤ a && a ≤ 0xDF then
      match rest with
      | [] => .error ⟨read, none⟩
      | b :: rest =>
        if isContinuation b then
          (decodeFrom (read + 2) rest).map (Char.ofNat (a.toNat % 32 * 64 + bits b) :: ·)
        else .error ⟨read, some 1⟩
    else if 0xE0 ≤ a && a ≤ 0xEF then
      match rest with
      | [] => .error ⟨read, none⟩
      | b :: rest =>
        if mayFollowThree a b then
          match rest with
          | [] => .error ⟨read, none⟩
          | c :: rest =>
            if isContinuation c then
              (decodeFrom (read + 3) rest).map
                (Char.ofNat ((a.toNat % 16 * 64 + bits b) * 64 + bits c) :: ·)
            else .error ⟨read, some 2⟩
        else .error ⟨read, some 1⟩
    else if 0xF0 ≤ a && a ≤ 0xF4 then
      match rest with
      | [] => .error ⟨read, none⟩
      | b :: rest =>
        if mayFollowFour a b then
          match rest with
          | [] => .error ⟨read, none⟩
          | c :: rest =>
            if isContinuation c then
              match rest with
              | [] => .error ⟨read, none⟩
              | d :: rest =>
                if isContinuation d then
                  (decodeFrom (read + 4) rest).map
                    (Char.ofNat
                      (((a.toNat % 8 * 64 + bits b) * 64 + bits c) * 64 + bits d) :: ·)
                else .error ⟨read, some 3⟩
            else .error ⟨read, some 2⟩
        else .error ⟨read, some 1⟩
    else .error ⟨read, some 1⟩

/-- The characters of a run of UTF-8 bytes. -/
def decode (bytes : Bytes) : Except Malformed (List Char) := decodeFrom 0 bytes

end RaftJournal.Utf8
