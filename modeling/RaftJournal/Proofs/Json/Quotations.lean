import RaftJournal.Json.Quotation
import RaftJournal.Proofs.Text.Utf8

/-! # Strings in JSON texts

A character inside a string is written as itself, by a short escape or by its number, and each of the
three is read back (**`Quotation.exists_spells`**). So a string is read back up to its closing quote:
**`Quotation.scan_quoted`**.

There are more ways to spell a string than the one that is written, and some that stand for no string:
**`Quotation.Spelling`** has all of them, each with the pieces that are read of it
(**`Quotation.scan_spelling`**). -/

namespace RaftJournal.Json.Quotation

/-- Puts pieces in front. -/
def prepend (pieces : List Piece) (q : Quotation) : Quotation :=
  { q with pieces := pieces ++ q.pieces }

/-! ## runs of bytes -/

/-- A byte that stands for itself inside a string. -/
def IsPlain (b : UInt8) : Prop := b ≠ 34 ∧ b ≠ 92 ∧ ¬ b < 32

theorem scan_plain {bytes : Bytes} (h : ∀ b ∈ bytes, IsPlain b) (rest : Bytes) :
    scan (bytes ++ rest) = prepend (bytes.map .byte) (scan rest) := by
  induction bytes with
  | nil => rfl
  | cons b bytes ih =>
    obtain ⟨noQuote, noEscape, noControl⟩ := h b List.mem_cons_self
    rw [List.cons_append, scan.eq_def]
    simp only
    rw [if_neg noQuote, if_neg noEscape, if_neg noControl,
      ih fun c mem => h c (List.mem_cons_of_mem _ mem)]
    rfl

theorem join_bytes (ending : Ending) (bytes : Bytes) (more : List Piece) :
    join ending (bytes.map .byte ++ more) = (join ending more).map (bytes ++ ·) := by
  induction bytes with
  | nil => cases h : join ending more <;> simp [h, Except.map]
  | cons b bytes ih =>
    rw [List.map_cons, List.cons_append, join, ih]
    cases join ending more <;> rfl

/-! ## characters -/

/-- The pieces are what is read of a character, and they stand for it. -/
def Spells (pieces : List Piece) (c : Char) : Prop :=
  (∀ rest, scan (Utf8.encode (escape c) ++ rest) = prepend pieces (scan rest)) ∧
    ∀ more, join .closed (pieces ++ more) =
      (join .closed more).map (String.utf8EncodeChar c ++ ·)

/-- The bytes of a character that is not escaped stand for themselves. -/
theorem isPlain_of_mem {c : Char} (noQuote : c ≠ '"') (noEscape : c ≠ '\\')
    (noControl : ¬ c.toNat < 32) {b : UInt8} (mem : b ∈ String.utf8EncodeChar c) : IsPlain b := by
  -- a character of one byte is that byte, and the bytes of all others are beyond what is escaped
  by_cases ascii : c.toNat < 128
  · rw [Utf8.utf8EncodeChar_of_ascii ascii] at mem
    obtain rfl := List.mem_singleton.mp mem
    have code : (UInt8.ofNat c.toNat).toNat = c.toNat :=
      UInt8.toNat_ofNat_of_lt' (Nat.lt_trans ascii (by decide))
    refine ⟨fun eq => noQuote ?_, fun eq => noEscape ?_, fun low => noControl ?_⟩
    · have := congrArg UInt8.toNat eq
      rw [code] at this
      exact Char.ext (UInt32.toNat_inj.mp this)
    · have := congrArg UInt8.toNat eq
      rw [code] at this
      exact Char.ext (UInt32.toNat_inj.mp this)
    · rw [UInt8.lt_iff_toNat_lt, code] at low
      exact low
  · have beyond := Utf8.le_of_mem_utf8EncodeChar (by omega) mem
    refine ⟨?_, ?_, ?_⟩
    · rintro rfl
      exact absurd beyond (by decide)
    · rintro rfl
      exact absurd beyond (by decide)
    · rw [UInt8.lt_iff_toNat_lt]
      simp only [UInt8.reduceToNat]
      omega

/-- A short escape is read as its byte. -/
theorem scan_short {e b : UInt8} (noUnit : e ≠ 117) (short : shortEscape? e = some b) (rest : Bytes) :
    scan (92 :: e :: rest) = push (.byte b) (scan rest) := by
  rw [scan.eq_def]
  simp only
  rw [if_neg (by decide), if_pos trivial, if_neg noUnit, short]

/-- An escape of four digits is read as its unit. -/
theorem scan_unit {h₁ h₂ h₃ h₄ : UInt8} {n : Nat} (digits : unit? h₁ h₂ h₃ h₄ = some n) (rest : Bytes) :
    scan (92 :: 117 :: h₁ :: h₂ :: h₃ :: h₄ :: rest) = push (.unit n) (scan rest) := by
  rw [scan.eq_def]
  simp only
  rw [if_neg (by decide), if_pos trivial, if_pos trivial, digits]

/-- A character that is written as itself. -/
theorem spells_self {c : Char} (self : escape c = [c]) (noQuote : c ≠ '"') (noEscape : c ≠ '\\')
    (noControl : ¬ c.toNat < 32) : Spells ((String.utf8EncodeChar c).map .byte) c := by
  refine ⟨fun rest => ?_, fun more => join_bytes .closed _ more⟩
  rw [self, Utf8.encode_cons, Utf8.encode_nil, List.append_nil]
  exact scan_plain (fun b mem => isPlain_of_mem noQuote noEscape noControl mem) rest

/-- A character that is written by a short escape. -/
theorem spells_short {c : Char} {e b : UInt8} (written : Utf8.encode (escape c) = [92, e])
    (noUnit : e ≠ 117) (short : shortEscape? e = some b) (meant : String.utf8EncodeChar c = [b]) :
    Spells [.byte b] c := by
  refine ⟨fun rest => ?_, fun more => ?_⟩
  · rw [written]
    exact scan_short noUnit short rest
  · rw [meant]
    exact join_bytes .closed [b] more

/-- The four digits of a control character. -/
theorem unit?_of_control : ∀ n < 32,
    unit? 48 48 (UInt8.ofNat (Nat.digitChar (n / 16)).toNat)
      (UInt8.ofNat (Nat.digitChar (n % 16)).toNat) = some n := by
  decide

theorem digitChar_ascii : ∀ n < 16, (Nat.digitChar n).toNat < 128 := by decide

/-- A character that is written by its number. -/
theorem spells_unit {c : Char} (control : c.toNat < 32)
    (written : escape c =
      ['\\', 'u', '0', '0', Nat.digitChar (c.toNat / 16), Nat.digitChar (c.toNat % 16)]) :
    Spells [.unit c.toNat] c := by
  have high := digitChar_ascii (c.toNat / 16) (by omega)
  have low := digitChar_ascii (c.toNat % 16) (by omega)
  have bytes : Utf8.encode (escape c) =
      [92, 117, 48, 48, UInt8.ofNat (Nat.digitChar (c.toNat / 16)).toNat,
        UInt8.ofNat (Nat.digitChar (c.toNat % 16)).toNat] := by
    rw [written]
    simp only [Utf8.encode_cons, Utf8.encode_nil, Utf8.utf8EncodeChar_of_ascii high,
      Utf8.utf8EncodeChar_of_ascii low]
    rfl
  refine ⟨fun rest => ?_, fun more => ?_⟩
  · rw [bytes]
    exact scan_unit (unit?_of_control c.toNat control) rest
  -- a control character is no half of a pair, so its number is taken by itself
  · have notLow : isLow c.toNat = false := by
      rw [isLow, decide_eq_false (by omega)]
      rfl
    have notHigh : isHigh c.toNat = false := by
      rw [isHigh, decide_eq_false (by omega)]
      rfl
    rw [List.singleton_append, join.eq_def]
    simp only
    rw [notLow, notHigh, Char.ofNat_toNat]
    rfl

/-- Every character is read back from what is written for it. -/
theorem exists_spells (c : Char) : ∃ pieces, Spells pieces c := by
  -- the short escapes first, then the other controls by number; what is left stands for itself
  by_cases quote : c = '"'
  · exact ⟨_, spells_short (e := 34) (b := 34) (by rw [quote]; decide) (by decide) rfl
      (by rw [quote]; decide)⟩
  by_cases backslash : c = '\\'
  · exact ⟨_, spells_short (e := 92) (b := 92) (by rw [backslash]; decide) (by decide) rfl
      (by rw [backslash]; decide)⟩
  by_cases control : c.toNat < 32
  · by_cases back : c = '\x08'
    · exact ⟨_, spells_short (e := 98) (b := 8) (by rw [back]; decide) (by decide) rfl
        (by rw [back]; decide)⟩
    by_cases feed : c = '\x0c'
    · exact ⟨_, spells_short (e := 102) (b := 12) (by rw [feed]; decide) (by decide) rfl
        (by rw [feed]; decide)⟩
    by_cases line : c = '\n'
    · exact ⟨_, spells_short (e := 110) (b := 10) (by rw [line]; decide) (by decide) rfl
        (by rw [line]; decide)⟩
    by_cases carriage : c = '\r'
    · exact ⟨_, spells_short (e := 114) (b := 13) (by rw [carriage]; decide) (by decide) rfl
        (by rw [carriage]; decide)⟩
    by_cases tab : c = '\t'
    · exact ⟨_, spells_short (e := 116) (b := 9) (by rw [tab]; decide) (by decide) rfl
        (by rw [tab]; decide)⟩
    refine ⟨_, spells_unit control ?_⟩
    rw [escape, if_pos control]
    all_goals assumption
  · refine ⟨_, spells_self ?_ quote backslash control⟩
    rw [escape, if_neg control]
    -- the characters with short escapes are the two above and controls
    all_goals first | assumption | (rintro rfl; exact control (by decide))

/-! ## strings -/

/-- The pieces of a string are what is read up to its closing quote, and they stand for it. -/
theorem exists_pieces (text : List Char) (rest : Bytes) :
    ∃ pieces, scan (Utf8.encode (text.flatMap escape) ++ 34 :: rest) = ⟨pieces, .closed, rest⟩ ∧
      join .closed pieces = .ok (Utf8.encode text) := by
  -- on the characters; the pieces of the first come before those of the others
  induction text with
  | nil =>
    refine ⟨[], ?_, rfl⟩
    show scan (34 :: rest) = _
    rw [scan.eq_def]
    exact if_pos rfl
  | cons c text ih =>
    obtain ⟨more, scanned, joined⟩ := ih
    obtain ⟨pieces, spelled, meant⟩ := exists_spells c
    refine ⟨pieces ++ more, ?_, ?_⟩
    · rw [List.flatMap_cons, Utf8.encode_append, List.append_assoc, spelled, scanned]
      rfl
    · rw [meant, joined]
      rfl

/-- **A string is read back** up to its closing quote. -/
theorem scan_quoted (s : String) (rest : Bytes) :
    ∃ q, scan (Utf8.encode (s.toList.flatMap escape) ++ 34 :: rest) = q ∧ q.ending = .closed ∧
      q.content = .ok s ∧ q.rest = rest := by
  obtain ⟨pieces, scanned, joined⟩ := exists_pieces s.toList rest
  refine ⟨_, scanned, rfl, ?_, rfl⟩
  rw [content]
  simp only
  rw [joined]
  simp only
  rw [Utf8.decode_encode]
  simp only
  rw [String.ofList_toList]

/-! ## all spellings -/

/-- The characters that are named by a short escape, with the characters that stand for them. -/
def shortEscapes : List (Char × UInt8) :=
  [('"', 34), ('\\', 92), ('/', 47), ('b', 8), ('f', 12), ('n', 10), ('r', 13), ('t', 9)]

/-- The hexadecimal digits with their values. -/
def hexDigits : List (Char × Nat) :=
  ("0123456789abcdef".toList.zip (List.range 16)) ++ ("ABCDEF".toList.zip (List.range' 10 6))

/-- The text between the quotes of a string, with its pieces. -/
inductive Spelling : List Char → List Piece → Prop
  | nil : Spelling [] []
  /-- A character that is neither a quote, a backslash nor a control. -/
  | plain {c : Char} {text : List Char} {pieces : List Piece} (noQuote : c ≠ '"')
    (noEscape : c ≠ '\\') (noControl : ¬ c.toNat < 32) (more : Spelling text pieces) :
    Spelling (c :: text) ((String.utf8EncodeChar c).map .byte ++ pieces)
  /-- A short escape. -/
  | short {e : Char} {b : UInt8} {text : List Char} {pieces : List Piece}
    (named : (e, b) ∈ shortEscapes) (more : Spelling text pieces) :
    Spelling ('\\' :: e :: text) (.byte b :: pieces)
  /-- A unit by its four digits, which may be half of a surrogate pair. -/
  | unit {c₁ c₂ c₃ c₄ : Char} {n₁ n₂ n₃ n₄ : Nat} {text : List Char} {pieces : List Piece}
    (h₁ : (c₁, n₁) ∈ hexDigits) (h₂ : (c₂, n₂) ∈ hexDigits) (h₃ : (c₃, n₃) ∈ hexDigits)
    (h₄ : (c₄, n₄) ∈ hexDigits) (more : Spelling text pieces) :
    Spelling ('\\' :: 'u' :: c₁ :: c₂ :: c₃ :: c₄ :: text)
      (.unit (((n₁ * 16 + n₂) * 16 + n₃) * 16 + n₄) :: pieces)

/-- Short escapes are bytes that the scanner knows. -/
theorem shortEscape?_of_mem : ∀ entry ∈ shortEscapes, entry.1.toNat < 128 ∧
    UInt8.ofNat entry.1.toNat ≠ 117 ∧ shortEscape? (UInt8.ofNat entry.1.toNat) = some entry.2 := by
  decide

theorem hexDigit?_of_mem : ∀ entry ∈ hexDigits, entry.1.toNat < 128 ∧
    hexDigit? (UInt8.ofNat entry.1.toNat) = some entry.2 := by
  decide

/-- A string is read up to its closing quote however it is spelled. -/
theorem scan_spelling {text : List Char} {pieces : List Piece} (h : Spelling text pieces)
    (rest : Bytes) : scan (Utf8.encode text ++ 34 :: rest) = ⟨pieces, .closed, rest⟩ := by
  induction h with
  | nil =>
    show scan (34 :: rest) = _
    rw [scan.eq_def]
    exact if_pos rfl
  | plain noQuote noEscape noControl more ih =>
    rw [Utf8.encode_cons, List.append_assoc,
      scan_plain fun b mem => isPlain_of_mem noQuote noEscape noControl mem, ih]
    rfl
  | short named more ih =>
    obtain ⟨ascii, noUnit, short⟩ := shortEscape?_of_mem _ named
    have backslash : String.utf8EncodeChar '\\' = [92] := by decide
    rw [Utf8.encode_cons, Utf8.encode_cons, backslash, Utf8.utf8EncodeChar_of_ascii ascii]
    exact (scan_short noUnit short _).trans (congrArg (push _) ih)
  | unit h₁ h₂ h₃ h₄ more ih =>
    obtain ⟨ascii₁, digit₁⟩ := hexDigit?_of_mem _ h₁
    obtain ⟨ascii₂, digit₂⟩ := hexDigit?_of_mem _ h₂
    obtain ⟨ascii₃, digit₃⟩ := hexDigit?_of_mem _ h₃
    obtain ⟨ascii₄, digit₄⟩ := hexDigit?_of_mem _ h₄
    have lead : String.utf8EncodeChar '\\' = [92] ∧ String.utf8EncodeChar 'u' = [117] := by decide
    simp only [Utf8.encode_cons, lead, Utf8.utf8EncodeChar_of_ascii ascii₁,
      Utf8.utf8EncodeChar_of_ascii ascii₂, Utf8.utf8EncodeChar_of_ascii ascii₃,
      Utf8.utf8EncodeChar_of_ascii ascii₄]
    refine (scan_unit ?_ _).trans (congrArg (push _) ih)
    rw [unit?, digit₁, digit₂, digit₃, digit₄]

end RaftJournal.Json.Quotation
