import RaftJournal.Proofs.Counters
import RaftJournal.Stream.Disruptor

/-! # What a disruptor counts

Whatever its source answers, a disruptor has taken the entries that it has handed out and those that it
keeps, and its counters say so. In the middle of a call there may be one more, taken and not yet handed
out or kept: a disruptor is **`Tallied`** with such entries at hand, and each part of a call says how many
it takes in hand or out of it. **`Disruptor.tallied_next`** is what a whole call does. -/

namespace RaftJournal

/-- The number of entries in an answer. -/
def Pulled.size : Pulled → Nat
  | .ok (some _) => 1
  | .ok none | .error _ => 0

namespace Disruptor

variable {σ : Type} {d : Disruptor σ} {atHand emitted : Nat}

/-- So many entries have been handed out, and those taken are these, those kept and those at hand. The
counters show these numbers as far as a word can. -/
structure Tallied (d : Disruptor σ) (atHand emitted : Nat) : Prop where
  handedOut : d.stats.emitted = UInt64.ofNat emitted
  taken : d.stats.pulled = UInt64.ofNat (emitted + d.kept + atHand)

/-- At first nothing has been taken. -/
theorem tallied_ofSource (s : σ) (config : DisruptorConfig) : (ofSource s config).Tallied 0 0 :=
  ⟨rfl, rfl⟩

/-- An entry at hand is handed out. -/
theorem Tallied.emit (h : d.Tallied 1 emitted) (entry : Entry) :
    (d.emit entry).2.Tallied 0 (emitted + 1) := by
  refine ⟨add_one_eq_ofNat h.handedOut, ?_⟩
  have same : emitted + d.kept + 1 = emitted + 1 + d.kept + 0 := by omega
  exact same ▸ h.taken

/-- What is kept may change as long as no entry is gained or lost. -/
theorem Tallied.of_kept {d' : Disruptor σ} {atHand' : Nat} (h : d.Tallied atHand emitted)
    (handedOut : d'.stats.emitted = d.stats.emitted) (taken : d'.stats.pulled = d.stats.pulled)
    (kept : d'.kept + atHand' = d.kept + atHand) : d'.Tallied atHand' emitted := by
  have same : emitted + d'.kept + atHand' = emitted + d.kept + atHand := by omega
  refine ⟨?_, ?_⟩
  · rw [handedOut]
    exact h.handedOut
  · rw [taken, same]
    exact h.taken

/-- What is pulled is at hand, and the pending entry is no longer kept. -/
theorem tallied_pull (source : σ → Pulled × σ) (h : d.Tallied 0 emitted) :
    (d.pull source).2.Tallied (d.pull source).1.size emitted ∧
      (d.pull source).2.held = d.held ∧ (d.pull source).2.pending = none := by
  rw [pull]
  cases aside : d.pending with
  | some entry =>
    refine ⟨h.of_kept rfl rfl ?_, rfl, rfl⟩
    simp [kept, aside, Pulled.size]
  | none =>
    have same (s : σ) : (Disruptor.kept { d with source := s, pending := none }) = d.kept := by
      simp [kept, aside]
    simp only
    generalize source d.source = answered
    obtain ⟨pulled, s⟩ := answered
    rcases pulled with e | entry | entry
    · exact ⟨h.of_kept rfl rfl (by rw [same]; rfl), rfl, rfl⟩
    · exact ⟨h.of_kept rfl rfl (by rw [same]; rfl), rfl, rfl⟩
    · refine ⟨⟨h.handedOut, ?_⟩, rfl, rfl⟩
      have counted := add_one_eq_ofNat h.taken
      rw [← same s] at counted
      exact counted

/-- An entry at hand is kept as the held one. -/
theorem Tallied.hold (h : d.Tallied 1 emitted) (free : d.held = none) (entry : Entry) :
    (d.hold entry).Tallied 0 emitted := by
  refine h.of_kept rfl rfl ?_
  simp [kept, Disruptor.hold, free]
  omega

/-- With an entry held, the one at hand is handed out, or the held one instead. -/
theorem tallied_settle {pulled : Option Entry} (h : d.Tallied (Pulled.size (.ok pulled)) emitted)
    (holding : d.held.isSome) (free : d.pending = none) (held : Held) :
    (d.settle held pulled).2.Tallied 0 (emitted + 1) := by
  obtain ⟨own, holding⟩ := Option.isSome_iff_exists.mp holding
  cases pulled with
  | none =>
    apply Tallied.emit
    refine h.of_kept rfl rfl ?_
    simp [kept, holding, free, Pulled.size]
  | some entry =>
    rw [settle]
    by_cases steps : 0 < held.steps
    · simp only [if_pos steps]
      apply Tallied.emit
      refine h.of_kept rfl rfl ?_
      simp [kept, holding, free, Pulled.size]
    · simp only [if_neg steps]
      apply Tallied.emit
      refine h.of_kept rfl rfl ?_
      simp [kept, holding, free, Pulled.size]

theorem tallied_passBy (source : σ → Pulled × σ) (h : d.Tallied 0 emitted)
    (holding : d.held.isSome) (held : Held) :
    (d.passBy source held).2.Tallied 0 (emitted + (d.passBy source held).1.size) ∧
      (d.passBy source held).1 ≠ .ok none := by
  obtain ⟨tallied, same, free⟩ := tallied_pull source h
  rw [passBy]
  generalize d.pull source = answered at tallied same free
  obtain ⟨pulled, d'⟩ := answered
  cases pulled with
  | error e => exact ⟨tallied, by simp⟩
  | ok pulled =>
    have settled := tallied_settle tallied (same ▸ holding) free held
    obtain ⟨out, after, result⟩ : ∃ out after, d'.settle held pulled = (.ok (some out), after) := by
      rcases pulled with - | entry
      · exact ⟨_, _, rfl⟩
      · rw [settle]
        split
        · exact ⟨_, _, rfl⟩
        · exact ⟨_, _, rfl⟩
    rw [result] at settled
    simp only [result]
    exact ⟨settled, by simp⟩

/-- **A disruptor counts what it hands out**, and has taken this and what it keeps. Where it has nothing
to hand out, it keeps nothing. -/
theorem tallied_next (source : σ → Pulled × σ) (h : d.Tallied 0 emitted) :
    (d.next source).2.Tallied 0 (emitted + (d.next source).1.size) ∧
      ((d.next source).1 = .ok none → (d.next source).2.kept = 0) := by
  rw [next]
  cases holding : d.held with
  | some held =>
    obtain ⟨tallied, answer⟩ := tallied_passBy source h (holding ▸ rfl) held
    exact ⟨tallied, fun ended => absurd ended answer⟩
  | none =>
    obtain ⟨tallied, same, free⟩ := tallied_pull source h
    generalize d.pull source = answered at tallied same free
    obtain ⟨pulled, d'⟩ := answered
    rcases pulled with e | entry | entry
    · exact ⟨tallied, fun ended => by cases ended⟩
    · exact ⟨tallied, fun _ => by simp_all [kept]⟩
    · simp only
      by_cases target : entry.type = d'.config.target
      · rw [if_pos target]
        have held := Tallied.hold tallied (same.trans holding) entry
        obtain ⟨tallied, answer⟩ := tallied_passBy source held rfl
          ⟨entry, d'.config.step⟩
        exact ⟨tallied, fun ended => absurd ended answer⟩
      · rw [if_neg target]
        exact ⟨Tallied.emit tallied entry, fun ended => by cases ended⟩

end Disruptor

end RaftJournal
