import RaftJournal.Writer.Basic

/-! # What counters show

Counters are words. Those of the streams and of the writer stay at the largest word instead of
overflowing: such a counter has **`Counted`** so many events when it shows their number, or the largest
word where there are more of them. Those of a disruptor go on from zero, and show the word of the number
(**`add_one_eq_ofNat`**). -/

namespace RaftJournal

/-- The counter shows the number of events, or the largest word if there are more. -/
def Counted (counter : UInt64) (events : Nat) : Prop :=
  counter.toNat = min events (UInt64.size - 1)

variable {counter : UInt64} {events : Nat}

/-- A counter starts at zero. -/
theorem counted_zero : Counted 0 0 := rfl

/-- One tick is one event more. -/
theorem Counted.tick (h : Counted counter events) : Counted (tick counter) (events + 1) := by
  unfold Counted at *
  rw [toNat_tick, h]
  omega

/-- Events may be counted all at once. -/
theorem Counted.tickBy (h : Counted counter events) (more : Nat) :
    Counted (tickBy counter more) (events + more) := by
  have largest : (0xFFFFFFFFFFFFFFFF : UInt64).toNat = UInt64.size - 1 := rfl
  unfold Counted at *
  unfold RaftJournal.tickBy
  by_cases fits : counter.toNat + more < UInt64.size
  · rw [if_pos fits, UInt64.toNat_ofNat_of_lt' fits]
    omega
  · rw [if_neg fits, largest]
    omega

/-- A counter shows the number of events, if a word can. -/
theorem Counted.toNat_eq (h : Counted counter events) (fits : events < UInt64.size) :
    counter.toNat = events := by
  unfold Counted at h
  omega

/-- Counters of as many events show the same. -/
theorem Counted.unique {other : UInt64} (h : Counted counter events) (h' : Counted other events) :
    counter = other :=
  UInt64.toNat_inj.mp (h.trans h'.symm)

/-- Two counters, one added to the other, show the events of both. -/
theorem Counted.add {other : UInt64} {more : Nat} (h : Counted counter events)
    (h' : Counted other more) : Counted (RaftJournal.tickBy counter other.toNat) (events + more) := by
  have both := h.tickBy other.toNat
  unfold Counted at *
  rw [both, h']
  omega

/-- A counter of fewer events does not show more. -/
theorem Counted.le {other : UInt64} {more : Nat} (h : Counted counter events)
    (h' : Counted other more) (fewer : events ≤ more) : counter ≤ other := by
  unfold Counted at *
  rw [UInt64.le_iff_toNat_le]
  omega

/-- One event more for a counter that goes on from zero. -/
theorem add_one_eq_ofNat (h : counter = UInt64.ofNat events) :
    counter + 1 = UInt64.ofNat (events + 1) := by
  rw [UInt64.ofNat_add, ← h]
  rfl

end RaftJournal
