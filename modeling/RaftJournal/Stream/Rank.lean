/-! # How much a stream still has

Streams are drained by loops whose number of turns no counter bounds in advance: segments may be
empty, records may be skipped, batches may hold no entries. What shrinks with every entry handed out
is the **`Rank`** of the stream: the segments not yet opened, then the bytes of the open one, then the
entries already taken from them, compared in this order. -/

namespace RaftJournal

/-- What a stream still has. -/
structure Rank where
  segments : Nat
  bytes : Nat
  entries : Nat
  deriving DecidableEq, Repr

namespace Rank

/-- Fewer segments, or as many and fewer bytes, or as many of both and fewer entries. -/
def Less (a b : Rank) : Prop :=
  a.segments < b.segments ∨
    (a.segments = b.segments ∧
      (a.bytes < b.bytes ∨ (a.bytes = b.bytes ∧ a.entries < b.entries)))

/-- Less, or nothing less. -/
def AtMost (a b : Rank) : Prop := a.Less b ∨ a = b

/-- The three counts as nested pairs. -/
def toPairs (a : Rank) : Nat × Nat × Nat := (a.segments, a.bytes, a.entries)

theorem wellFounded_less : WellFounded Less := by
  have lex : WellFounded (Prod.Lex (· < ·) (Prod.Lex (· < ·) (· < ·)) :
      Nat × Nat × Nat → Nat × Nat × Nat → Prop) :=
    (Prod.lex Nat.lt_wfRel (Prod.lex Nat.lt_wfRel Nat.lt_wfRel)).wf
  refine Subrelation.wf ?_ (InvImage.wf toPairs lex)
  rintro ⟨a, b, c⟩ ⟨x, y, z⟩ h
  rcases h with h | ⟨h, h' | ⟨h', h''⟩⟩
  · exact .left _ _ h
  · cases h
    exact .right _ (.left _ _ h')
  · cases h
    cases h'
    exact .right _ (.right _ h'')

instance : WellFoundedRelation Rank := ⟨Less, wellFounded_less⟩

/-- The rank with so many more entries. -/
def withEntries (a : Rank) (n : Nat) : Rank := { a with entries := a.entries + n }

theorem AtMost.refl (a : Rank) : a.AtMost a := .inr rfl

theorem Less.trans_atMost {a b c : Rank} (h : a.Less b) (h' : b.AtMost c) : a.Less c := by
  rcases h' with h' | rfl
  · unfold Less at *
    omega
  · exact h

theorem AtMost.trans_less {a b c : Rank} (h : a.AtMost b) (h' : b.Less c) : a.Less c := by
  rcases h with h | rfl
  · unfold Less at *
    omega
  · exact h'

theorem AtMost.trans {a b c : Rank} (h : a.AtMost b) (h' : b.AtMost c) : a.AtMost c := by
  rcases h' with h' | rfl
  · exact .inl (h.trans_less h')
  · exact h

/-- An entry taken from the rest may be kept: the rank is no larger than before. -/
theorem Less.withEntries_succ {a b : Rank} {n : Nat} (h : a.Less b) :
    (a.withEntries (n + 1)).AtMost (b.withEntries n) := by
  obtain ⟨s, y, e⟩ := a
  obtain ⟨s', y', e'⟩ := b
  unfold AtMost Less Rank.withEntries at *
  simp only [Rank.mk.injEq] at *
  omega

theorem AtMost.withEntries {a b : Rank} {n m : Nat} (h : a.AtMost b) (le : n ≤ m) :
    (a.withEntries n).AtMost (b.withEntries m) := by
  obtain ⟨s, y, e⟩ := a
  obtain ⟨s', y', e'⟩ := b
  unfold AtMost Less Rank.withEntries at *
  simp only [Rank.mk.injEq] at *
  omega

end Rank

end RaftJournal
