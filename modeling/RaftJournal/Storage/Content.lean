import RaftJournal.Bytes.Word

/-! # File contents

The file of an open segment is as long as a segment may be, and zero after its records. A file's
**`Content`** keeps such a tail as a number. **`Content.toList`** is all of its bytes, and each
operation is described by what it does to them. -/

namespace RaftJournal

/-- The bytes of a file: those written, and the number of zero bytes after them. -/
structure Content where
  written : Bytes
  padding : Nat
  deriving DecidableEq, Repr

namespace Content

/-- All bytes of a file. -/
def toList (c : Content) : Bytes := c.written ++ List.replicate c.padding 0

/-- A file with the given bytes. -/
def ofList (bytes : Bytes) : Content := ⟨bytes, 0⟩

/-- The number of bytes of a file. -/
def length (c : Content) : Nat := c.written.length + c.padding

/-- The first bytes of a file. -/
def take (n : Nat) (c : Content) : Bytes :=
  c.written.take n ++ List.replicate (min (n - c.written.length) c.padding) 0

/-- A file without its first bytes. -/
def drop (n : Nat) (c : Content) : Content :=
  ⟨c.written.drop n, c.padding - (n - c.written.length)⟩

/-- A file cut or filled with zeros to a length. -/
def resize (n : Nat) (c : Content) : Content :=
  if n ≤ c.written.length then ⟨c.written.take n, 0⟩ else ⟨c.written, n - c.written.length⟩

/-- Whether all bytes of a file are zero. -/
def isZero (c : Content) : Bool := c.written.all (· = 0)

@[simp] theorem toList_ofList (bytes : Bytes) : (ofList bytes).toList = bytes := by
  simp [ofList, toList]

@[simp] theorem length_toList (c : Content) : c.toList.length = c.length := by
  simp [toList, length]

theorem take_eq (n : Nat) (c : Content) : c.take n = c.toList.take n := by
  simp [take, toList, List.take_append, List.take_replicate]

@[simp] theorem toList_drop (n : Nat) (c : Content) : (c.drop n).toList = c.toList.drop n := by
  simp [drop, toList, List.drop_append, List.drop_replicate]

@[simp] theorem length_drop (n : Nat) (c : Content) : (c.drop n).length = c.length - n := by
  rw [← length_toList, toList_drop, List.length_drop, length_toList]

theorem isZero_iff (c : Content) : c.isZero ↔ ∀ b ∈ c.toList, b = 0 := by
  simp only [isZero, List.all_eq_true, decide_eq_true_eq, toList, List.mem_append,
    List.mem_replicate]
  constructor
  · rintro h b (hb | ⟨-, rfl⟩)
    · exact h b hb
    · rfl
  · exact fun h b hb => h b (.inl hb)

end Content

end RaftJournal
