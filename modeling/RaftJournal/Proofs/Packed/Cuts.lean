import RaftJournal.Packed.Format

/-! # Bytes that are cut short

A reader **`NeedsAll`** of some bytes when, wherever they are cut short, it refuses what is left for
the bytes that are missing. A reader that goes through several parts needs all of them together if it
needs all of each (**`NeedsAll.append`**): a cut falls into one of the parts, and those before it are
whole. -/

namespace RaftJournal.Packed

/-- Wherever the bytes are cut short, the reader refuses what is left for the bytes that are missing. -/
def NeedsAll {α : Type} (read : Bytes → Except Fault α) (bytes : Bytes) : Prop :=
  ∀ front back, bytes = front ++ back → back ≠ [] →
    ∃ missing, read front = .error (.unexpectedEnd missing)

section Parts

variable {α β : Type} {read : Bytes → Except Fault α} {before : Bytes → Except Fault β}
  {first second : Bytes}

/-- Nothing can be cut off where there are no bytes. -/
theorem needsAll_nil (read : Bytes → Except Fault α) : NeedsAll read [] :=
  fun _ _ eq more => absurd (List.append_eq_nil_iff.mp eq.symm).2 more

/-- A reader needs all that it needs for what it reads first. -/
theorem NeedsAll.of_fails (h : NeedsAll before first)
    (fails : ∀ bytes missing, before bytes = .error (.unexpectedEnd missing) →
      read bytes = .error (.unexpectedEnd missing)) : NeedsAll read first := by
  intro front back eq more
  obtain ⟨missing, refused⟩ := h front back eq more
  exact ⟨missing, fails front missing refused⟩

/-- A reader that needs all of a first part and, behind it, all of a second part needs all of both. -/
theorem NeedsAll.append (h : NeedsAll read first)
    (h' : NeedsAll (fun rest => read (first ++ rest)) second) : NeedsAll read (first ++ second) := by
  intro front back eq more
  rcases List.append_eq_append_iff.mp eq with ⟨front', rfl, eq'⟩ | ⟨back', eq', rfl⟩
  · exact h' front' back eq' more
  · -- the cut is in the first part, or between the two
    by_cases between : back' = []
    · rw [between, List.append_nil] at eq'
      rw [between, List.nil_append] at more
      rw [← eq', ← List.append_nil first]
      exact h' [] second rfl more
    · exact h front back' eq' between

/-- A reader needs as much whatever becomes of its value. -/
theorem NeedsAll.map (h : NeedsAll before first) (f : β → α) :
    NeedsAll (fun bytes => (before bytes).map f) first :=
  h.of_fails fun bytes missing refused => by rw [refused]; rfl

end Parts

/-! ## bytes and words -/

/-- A run of bytes of known length is needed as a whole. -/
theorem needsAll_readBytes (bytes : Bytes) : NeedsAll (readBytes bytes.length) bytes := by
  rintro front back rfl more
  have room := List.length_pos_iff.mpr more
  rw [readBytes, if_pos (by rw [List.length_append]; omega)]
  exact ⟨_, rfl⟩

/-- A byte is needed where one is read. -/
theorem needsAll_readByte (b : UInt8) : NeedsAll readByte [b] := by
  intro front back eq more
  cases front with
  | nil => exact ⟨1, rfl⟩
  | cons c front =>
    have rest := (List.cons.inj eq).2
    exact absurd (List.append_eq_nil_iff.mp rest.symm).2 more

namespace Varint

/-- A word is needed in its full width. -/
theorem needsAll_readWord (width n : Nat) : NeedsAll (readWord width) (Bytes.ofNat width n) := by
  have whole := needsAll_readBytes (Bytes.ofNat width n)
  rw [Bytes.length_ofNat] at whole
  exact whole.map _

/-- A word needs its marker and the bytes that this one announces. -/
theorem needsAll_read (role : Role) {n : Nat} (small : role = .word32 → n < UInt32.size) :
    NeedsAll (read role) (write n) := by
  have marker (b : UInt8) : NeedsAll (read role) [b] :=
    (needsAll_readByte b).of_fails fun bytes missing refused => by
      cases bytes <;> cases refused
      rfl
  rw [write]
  split
  · exact marker _
  split
  · exact (marker 251).append ((needsAll_readWord 2 n).of_fails fun _ _ refused => refused)
  split
  · exact (marker 252).append ((needsAll_readWord 4 n).of_fails fun _ _ refused => refused)
  · rename_i four
    have wide : ¬ role = .word32 := fun narrow => four (small narrow)
    refine (marker 253).append ((needsAll_readWord 8 n).of_fails fun rest missing refused => ?_)
    show (if role = .word32 then _ else readWord 8 rest) = _
    rw [if_neg wide, refused]

end Varint

end RaftJournal.Packed
