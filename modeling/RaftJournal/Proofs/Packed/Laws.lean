import RaftJournal.Proofs.Packed.Cuts
import RaftJournal.Proofs.Text.Utf8

/-! # Packed values are read back

A packed format is **`Format.Faithful`** when a value is read back from its bytes, whatever follows
them, and when none of these bytes can be missing. Lengths are written as words of 64 bits, so the law
is about values in fewer than 2⁶⁴ bytes. There is one lemma for each way to build a format; that of a
record is an induction on its layout. -/

namespace RaftJournal.Packed

/-! ## bytes and words -/

/-- So many bytes are taken off as there are before the rest. -/
theorem readBytes_append (front rest : Bytes) :
    readBytes front.length (front ++ rest) = .ok (front, rest) := by
  rw [readBytes, if_neg (by rw [List.length_append]; omega), List.take_left, List.drop_left]

namespace Varint

/-- A word is read back from its bytes, whatever follows them. -/
theorem readWord_append (width n : Nat) (rest : Bytes) (fits : n < 1 <<< (8 * width)) :
    readWord width (Bytes.ofNat width n ++ rest) = .ok (n, rest) := by
  have taken := readBytes_append (Bytes.ofNat width n) rest
  rw [Bytes.length_ofNat] at taken
  rw [readWord, taken]
  show Except.ok (Bytes.toNat (Bytes.ofNat width n), rest) = _
  rw [Bytes.toNat_ofNat, Nat.mod_eq_of_lt fits]

/-- A word is read back in any role that has room for it. -/
theorem read_write (role : Role) {n : Nat} (rest : Bytes) (fits : n < UInt64.size)
    (small : role = .word32 → n < UInt32.size) : read role (write n ++ rest) = .ok (n, rest) := by
  rw [write]
  -- one case for each width; the lead byte tells them apart
  by_cases one : n < 251
  · rw [if_pos one]
    have value : (UInt8.ofNat n).toNat = n := UInt8.toNat_ofNat_of_lt' (Nat.lt_trans one (by decide))
    show (if UInt8.ofNat n < 251 then _ else _) = _
    rw [if_pos (by rw [UInt8.lt_iff_toNat_lt, value]; exact one), value]
    rfl
  rw [if_neg one]
  by_cases two : n < UInt16.size
  · rw [if_pos two]
    exact readWord_append 2 n rest two
  rw [if_neg two]
  by_cases four : n < UInt32.size
  · rw [if_pos four]
    exact readWord_append 4 n rest four
  rw [if_neg four]
  have wide : ¬ role = .word32 := fun narrow => four (small narrow)
  show (if role = .word32 then _ else readWord 8 (Bytes.ofNat 8 n ++ rest)) = _
  rw [if_neg wide]
  exact readWord_append 8 n rest fits

/-- Every number has a byte at least. -/
theorem write_ne_nil (n : Nat) : write n ≠ [] := by
  rw [write]
  split
  · exact List.cons_ne_nil _ _
  · split
    · exact List.cons_ne_nil _ _
    · split <;> exact List.cons_ne_nil _ _

/-- A signed word of 64 bits is an unsigned one of 64 bits. -/
theorem zigzag_lt (i : Int64) : zigzag i.toInt < UInt64.size := by
  have low := i.le_toInt
  have high := i.toInt_lt
  have size : UInt64.size = 18446744073709551616 := rfl
  rw [zigzag]
  split <;> omega

end Varint

/-! ## formats -/

namespace Format

/-- Values are read back from their bytes, and from no fewer. -/
structure Faithful {α : Type} (format : Format α) : Prop where
  /-- A value is read back from its bytes, whatever follows them. -/
  read_write : ∀ (a : α) (rest : Bytes), (format.write a).length < UInt64.size →
    format.read (format.write a ++ rest) = .ok (a, rest)
  /-- A value is not read from its bytes when they are cut short. -/
  needsAll : ∀ a : α, (format.write a).length < UInt64.size →
    NeedsAll format.read (format.write a)

/-- No value is written without bytes. -/
def Filled {α : Type} (format : Format α) : Prop := ∀ a : α, format.write a ≠ []

/-- What follows the bytes of a value is too much. -/
theorem Faithful.parse_append {α : Type} {format : Format α} (h : format.Faithful) {a : α}
    (short : (format.write a).length < UInt64.size) {rest : Bytes} (more : rest ≠ []) :
    format.parse (format.write a ++ rest) = .error (.trailingBytes rest.length) := by
  rw [parse, h.read_write a rest short]
  cases rest with
  | nil => exact absurd rfl more
  | cons b rest => rfl

/-- A value is what a whole run of its bytes holds. -/
theorem Faithful.parse_write {α : Type} {format : Format α} (h : format.Faithful) {a : α}
    (short : (format.write a).length < UInt64.size) : format.parse (format.write a) = .ok a := by
  have back := h.read_write a [] short
  rw [List.append_nil] at back
  rw [parse, back]

/-- A run of bytes that breaks off within a value holds none. -/
theorem Faithful.needsAll_parse {α : Type} {format : Format α} (h : format.Faithful) {a : α}
    (short : (format.write a).length < UInt64.size) : NeedsAll format.parse (format.write a) :=
  (h.needsAll a short).of_fails fun bytes missing refused => by rw [parse, refused]

/-- Words of 64 bits are read back. -/
theorem faithful_word64 : word64.Faithful where
  read_write w rest _ := by
    show (Varint.read .word64 (Varint.write w.toNat ++ rest)).map _ = _
    rw [Varint.read_write .word64 rest w.toNat_lt (by rintro ⟨⟩)]
    show Except.ok (UInt64.ofNat w.toNat, rest) = _
    rw [UInt64.ofNat_toNat]
  needsAll _ _ := (Varint.needsAll_read .word64 (by rintro ⟨⟩)).map _

/-- Words of 32 bits are read back; no wider marker is written for them. -/
theorem faithful_word32 : word32.Faithful where
  read_write w rest _ := by
    have bound := w.toNat_lt
    have wide : w.toNat < UInt64.size := Nat.lt_trans bound (by decide)
    show (Varint.read .word32 (Varint.write w.toNat ++ rest)).map _ = _
    rw [Varint.read_write .word32 rest wide fun _ => bound]
    show Except.ok (UInt32.ofNat w.toNat, rest) = _
    rw [UInt32.ofNat_toNat]
  needsAll w _ := (Varint.needsAll_read .word32 fun _ => w.toNat_lt).map _

/-- Signed integers are read back through their zigzag numbers. -/
theorem faithful_int64 : int64.Faithful where
  read_write i rest _ := by
    simp only [int64]
    rw [Varint.read_write .word64 rest (Varint.zigzag_lt i) (by rintro ⟨⟩)]
    show Except.ok (Int64.ofInt (Varint.unzigzag (Varint.zigzag i.toInt)), rest) = _
    rw [Varint.unzigzag_zigzag, Int64.ofInt_toInt]
  needsAll i _ := by
    refine (Varint.needsAll_read .word64 (by rintro ⟨⟩)).of_fails fun bytes missing refused => ?_
    simp only [int64]
    rw [refused]
    rfl

/-- Flags are read back. -/
theorem faithful_flag : flag.Faithful where
  read_write b rest _ := by cases b <;> rfl
  needsAll b _ := by
    refine (needsAll_readByte _).of_fails fun bytes missing refused => ?_
    simp only [flag]
    rw [refused]

/-- Texts are read back, their length before their bytes. -/
theorem faithful_text : text.Faithful where
  read_write s rest short := by
    simp only [text] at short ⊢
    rw [List.length_append] at short
    have room : (Utf8.ofString s).length < UInt64.size := by omega
    rw [List.append_assoc, Varint.read_write .word64 _ room (by rintro ⟨⟩)]
    simp only
    rw [readBytes_append]
    simp only
    rw [Utf8.ofString, Utf8.decode_encode]
    simp only
    rw [String.ofList_toList]
  needsAll s short := by
    simp only [text] at short ⊢
    rw [List.length_append] at short
    have room : (Utf8.ofString s).length < UInt64.size := by omega
    -- the length is read first, and then as many bytes
    refine NeedsAll.append
      ((Varint.needsAll_read .word64 (by rintro ⟨⟩)).of_fails fun bytes missing refused => ?_)
      ((needsAll_readBytes (Utf8.ofString s)).of_fails fun bytes missing refused => ?_)
    · rw [refused]
    · rw [Varint.read_write .word64 bytes room (by rintro ⟨⟩)]
      simp only
      rw [refused]

/-- A value that may be absent is read back behind the byte that tells which. -/
theorem Faithful.option {α : Type} {format : Format α} (h : format.Faithful) :
    format.option.Faithful where
  read_write a? rest short := by
    cases a? with
    | none => rfl
    | some a =>
      have inner : (format.write a).length < UInt64.size := by
        simp only [Format.option, List.length_cons] at short
        omega
      show (format.read (format.write a ++ rest)).map _ = _
      rw [h.read_write a rest inner]
      rfl
  needsAll a? short := by
    have tag (b : UInt8) : NeedsAll format.option.read [b] := by
      refine (needsAll_readByte b).of_fails fun bytes missing refused => ?_
      simp only [Format.option]
      rw [refused]
    cases a? with
    | none => exact tag 0
    | some a =>
      have inner : (format.write a).length < UInt64.size := by
        simp only [Format.option, List.length_cons] at short
        omega
      refine (tag 1).append ((h.needsAll a inner).of_fails fun bytes missing refused => ?_)
      show (format.read bytes).map _ = _
      rw [refused]
      rfl

/-! ## lists -/

/-- As many elements are written as there are bytes at least. -/
theorem length_le_flatMap {α : Type} {format : Format α} (filled : format.Filled) (l : List α) :
    l.length ≤ (l.flatMap format.write).length := by
  induction l with
  | nil => exact Nat.le_refl 0
  | cons a l ih =>
    have := List.length_pos_iff.mpr (filled a)
    rw [List.flatMap_cons, List.length_append, List.length_cons]
    omega

/-- So many elements are read as have been written. -/
theorem Faithful.readElements_flatMap {α : Type} {format : Format α} (h : format.Faithful)
    (l : List α) (rest : Bytes) (short : (l.flatMap format.write).length < UInt64.size) :
    readElements format.read l.length (l.flatMap format.write ++ rest) = .ok (l, rest) := by
  induction l with
  | nil => rfl
  | cons a l ih =>
    rw [List.flatMap_cons, List.length_append] at short
    rw [List.flatMap_cons, List.append_assoc, List.length_cons, readElements,
      h.read_write a _ (by omega)]
    simp only
    rw [ih (by omega)]
    rfl

/-- So many elements need the bytes of all of them. -/
theorem Faithful.needsAll_flatMap {α : Type} {format : Format α} (h : format.Faithful)
    (l : List α) (short : (l.flatMap format.write).length < UInt64.size) :
    NeedsAll (readElements format.read l.length) (l.flatMap format.write) := by
  induction l with
  | nil => exact needsAll_nil _
  | cons a l ih =>
    rw [List.flatMap_cons, List.length_append] at short
    rw [List.flatMap_cons]
    refine NeedsAll.append
      ((h.needsAll a (by omega)).of_fails fun bytes missing refused => ?_)
      ((ih (by omega)).of_fails fun bytes missing refused => ?_)
    · rw [List.length_cons, readElements, refused]
    · rw [List.length_cons, readElements, h.read_write a bytes (by omega)]
      simp only
      rw [refused]
      rfl

/-- A list of values that are read back is read back, if every element has bytes. -/
theorem Faithful.list {α : Type} {format : Format α} (h : format.Faithful) (filled : format.Filled) :
    format.list.Faithful where
  read_write l rest short := by
    simp only [Format.list] at short ⊢
    rw [List.length_append] at short
    -- the number of elements fits because each of them has a byte
    have count := length_le_flatMap filled l
    rw [List.append_assoc, Varint.read_write .size _ (by omega) (by rintro ⟨⟩)]
    exact h.readElements_flatMap l rest (by omega)
  needsAll l short := by
    simp only [Format.list] at short ⊢
    rw [List.length_append] at short
    have count := length_le_flatMap filled l
    refine NeedsAll.append
      ((Varint.needsAll_read .size (by rintro ⟨⟩)).of_fails fun bytes missing refused => ?_)
      ((h.needsAll_flatMap l (by omega)).of_fails fun bytes missing refused => ?_)
    · rw [refused]
    · rw [Varint.read_write .size bytes (by omega) (by rintro ⟨⟩)]
      exact refused

/-! ## choices and records -/

/-- A choice is read back from the index of its member. -/
theorem faithful_choice {α : Type} [DecidableEq α] {members : List α} (all : ∀ a, a ∈ members)
    (few : members.length ≤ UInt32.size) : (choice members).Faithful where
  read_write a rest _ := by
    have inside : members.idxOf a < members.length := List.idxOf_lt_length_of_mem (all a)
    have wide : members.idxOf a < UInt64.size :=
      Nat.lt_of_lt_of_le inside (Nat.le_trans few (by decide))
    simp only [choice]
    rw [Varint.read_write .word32 rest wide fun _ => Nat.lt_of_lt_of_le inside few]
    simp only
    rw [List.getElem?_eq_getElem inside, List.getElem_idxOf inside]
  needsAll a _ := by
    have inside : members.idxOf a < members.length := List.idxOf_lt_length_of_mem (all a)
    refine (Varint.needsAll_read .word32 fun _ => Nat.lt_of_lt_of_le inside few).of_fails
      fun bytes missing refused => ?_
    simp only [choice]
    rw [refused]

/-- Values of another type are read back through a type with the same values. -/
theorem Faithful.imap {α β : Type} {format : Format α} (h : format.Faithful) {forth : α → β}
    {back : β → α} (inverse : ∀ b, forth (back b) = b) : (format.imap forth back).Faithful where
  read_write b rest short := by
    show (format.read (format.write (back b) ++ rest)).map _ = _
    rw [h.read_write (back b) rest short]
    show Except.ok (forth (back b), rest) = _
    rw [inverse]
  needsAll b short := (h.needsAll (back b) short).map _

/-- A row is read back if each of its fields is. -/
theorem faithful_record {ρ : Type} {layout : Layout Format ρ}
    (h : layout.Every fun format => format.Faithful) : (record layout).Faithful where
  read_write row rest short := by
    show readRow layout (writeRow layout row ++ rest) = _
    replace short : (writeRow layout row).length < UInt64.size := short
    -- on the fields; the bytes of each are among those of the row, so their lengths fit as well
    induction layout with
    | nil => rfl
    | cons field layout ih =>
      obtain ⟨a, row⟩ := row
      obtain ⟨first, others⟩ := h
      rw [writeRow, List.length_append] at short
      rw [writeRow, List.append_assoc, readRow, first.read_write a _ (by omega)]
      simp only
      rw [ih others row (by omega)]
      rfl
  needsAll row short := by
    show NeedsAll (readRow layout) (writeRow layout row)
    replace short : (writeRow layout row).length < UInt64.size := short
    -- on the fields again; a cut falls into the first one or into those after it
    induction layout with
    | nil => exact needsAll_nil _
    | cons field layout ih =>
      obtain ⟨a, row⟩ := row
      obtain ⟨first, others⟩ := h
      rw [writeRow, List.length_append] at short
      rw [writeRow]
      refine NeedsAll.append
        ((first.needsAll a (by omega)).of_fails fun bytes missing refused => ?_)
        ((ih others row (by omega)).of_fails fun bytes missing refused => ?_)
      · rw [readRow, refused]
      · rw [readRow, first.read_write a bytes (by omega)]
        simp only
        rw [refused]
        rfl

end Format

end RaftJournal.Packed
