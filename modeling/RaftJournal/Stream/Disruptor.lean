import RaftJournal.Json.Record
import RaftJournal.Stream.Config
import RaftJournal.Stream.Source

/-! # Delaying one type of entries

A **`Disruptor`** is a source that hands on the entries of another, except that an entry of its
target type is held back until a number of later entries, its step, have gone by:

* input `A B* C D E` with step 2 gives `A C D B E`.

At most one entry is held. While it is, entries of the target type go by like any others and count
towards its release. The entry that finds the count used up waits as the pending entry while the
held one is released, and is looked at again afterwards, so it may be held itself. At the end of the
other source the held entry is released. Every entry leaves without its sequence number, since a
writer stamps it anew. -/

namespace RaftJournal

/-! ## configuration -/

/-- What is delayed, and by how many entries. -/
structure DisruptorConfig where
  /-- The type of the entries that are held back. -/
  target : EntryType
  /-- The number of entries that go by a held one. -/
  step : UInt64
  deriving DecidableEq, Repr

namespace DisruptorConfig

/-- Why a configuration is refused. -/
inductive Fault
  /-- The step is zero. -/
  | invalidStep (step : UInt64)
  /-- No type has the code. -/
  | unknownEntryType (code : Int)
  deriving DecidableEq, Repr

/-- What an error says about the configuration. -/
def Fault.message : Fault → String
  | .invalidStep step => s!"disrupt step must be positive, got {step}"
  | .unknownEntryType code => s!"unknown entry type code: {code}"

/-- The usual configuration. -/
def default : DisruptorConfig := ⟨.of .updateInode, 1⟩

/-- Refuses a step of zero. -/
def validate (c : DisruptorConfig) : Except Fault Unit :=
  if c.step = 0 then .error (.invalidStep c.step) else .ok ()

/-- The configuration for the type with the given code. -/
def ofCode (code : Int) (step : UInt64) : Except Fault DisruptorConfig :=
  match EntryType.ofCode? code with
  | none => .error (.unknownEntryType code)
  | some target => (validate ⟨target, step⟩).map fun _ => ⟨target, step⟩

end DisruptorConfig

/-- The types with their names. -/
def EntryType.names : Json.Names EntryType := ⟨EntryType.all, EntryType.name⟩

/-- A type in a JSON text. -/
def EntryType.json : Json.Format EntryType := .choice EntryType.names

/-- The record of a configuration. -/
def DisruptorConfig.json : Json.Format DisruptorConfig :=
  (Json.Format.record "DisruptorConfig"
    (.cons (.required "target" EntryType.json) <|
     .cons (.required "step" .word64) <|
     .nil)).imap
    (fun (target, step, _) => ⟨target, step⟩)
    fun c => (c.target, c.step, ())

/-- The counters of a disruptor. After the largest word they go on from zero. -/
structure DisruptorStats where
  /-- Entries taken from the other source. -/
  pulled : UInt64
  /-- Entries handed out. -/
  emitted : UInt64
  /-- Times that an entry was held back. -/
  held : UInt64
  /-- Held entries released because the other source ended. -/
  flushedAtEnd : UInt64
  deriving DecidableEq, Repr

/-- The record of the counters. -/
def DisruptorStats.json : Json.Format DisruptorStats :=
  (Json.Format.record "DisruptorStats"
    (.cons (.required "pulled" .word64) <|
     .cons (.required "emitted" .word64) <|
     .cons (.required "held" .word64) <|
     .cons (.required "flushed_at_end" .word64) <|
     .nil)).imap
    (fun (pulled, emitted, held, flushedAtEnd, _) => ⟨pulled, emitted, held, flushedAtEnd⟩)
    fun s => (s.pulled, s.emitted, s.held, s.flushedAtEnd, ())

/-! ## the source -/

/-- An entry held back. -/
structure Held where
  entry : Entry
  /-- The number of entries that still go by. -/
  steps : UInt64
  deriving DecidableEq

/-- A source whose entries of one type are delayed. -/
structure Disruptor (σ : Type) where
  /-- The other source. -/
  source : σ
  config : DisruptorConfig
  /-- The entry that is held back. -/
  held : Option Held
  /-- The entry that was taken when the held one was due. -/
  pending : Option Entry
  stats : DisruptorStats
  deriving DecidableEq

namespace Disruptor

variable {σ : Type}

/-- A disruptor before its first entry. -/
def ofSource (source : σ) (config : DisruptorConfig) : Disruptor σ :=
  ⟨source, config, none, none, ⟨0, 0, 0, 0⟩⟩

/-- Delays the entries of a source, if the step is not zero. -/
def wrap (source : σ) (config : DisruptorConfig) :
    Except DisruptorConfig.Fault (Disruptor σ) :=
  config.validate.map fun _ => ofSource source config

/-- Whether an entry is held back. -/
def isHolding (d : Disruptor σ) : Bool := d.held.isSome

/-- Hands out an entry. -/
def emit (d : Disruptor σ) (entry : Entry) : Pulled × Disruptor σ :=
  (.ok (some entry.clear), { d with stats := { d.stats with emitted := d.stats.emitted + 1 } })

/-- Takes the pending entry, or one from the other source. -/
def pull (next : σ → Pulled × σ) (d : Disruptor σ) : Pulled × Disruptor σ :=
  match d.pending with
  | some entry => (.ok (some entry), { d with pending := none })
  | none =>
    match next d.source with
    | (.ok (some entry), source) =>
      (.ok (some entry),
        { d with source, stats := { d.stats with pulled := d.stats.pulled + 1 } })
    | (pulled, source) => (pulled, { d with source })

/-- Goes on with what was pulled while an entry is held: hands it on, or releases the held one. -/
def settle (d : Disruptor σ) (held : Held) (pulled : Option Entry) : Pulled × Disruptor σ :=
  match pulled with
  | none =>
    { d with
      held := none, stats := { d.stats with flushedAtEnd := d.stats.flushedAtEnd + 1 } }.emit
      held.entry
  | some entry =>
    if 0 < held.steps then
      { d with held := some { held with steps := held.steps - 1 } }.emit entry
    -- the held entry is due: what was pulled is set aside for the next call
    else { d with held := none, pending := some entry }.emit held.entry

/-- Holds an entry back. -/
def hold (d : Disruptor σ) (entry : Entry) : Disruptor σ :=
  { d with
    held := some ⟨entry, d.config.step⟩,
    stats := { d.stats with held := d.stats.held + 1 } }

/-- Pulls while an entry is held. -/
def passBy (next : σ → Pulled × σ) (d : Disruptor σ) (held : Held) : Pulled × Disruptor σ :=
  match d.pull next with
  | (.error e, d) => (.error e, d)
  | (.ok pulled, d) => d.settle held pulled

/-- The next entry, nothing at the end, or the error of the other source. -/
def next (source : σ → Pulled × σ) (d : Disruptor σ) : Pulled × Disruptor σ :=
  match d.held with
  | some held => d.passBy source held
  | none =>
    match d.pull source with
    | (.error e, d) => (.error e, d)
    | (.ok none, d) => (.ok none, d)
    | (.ok (some entry), d) =>
      if entry.type = d.config.target then
        -- the call goes on: an entry that follows is handed out before the one held
        (d.hold entry).passBy source ⟨entry, d.config.step⟩
      else d.emit entry

/-! ## progress -/

/-- The number of entries that the disruptor has taken and not handed out. -/
def kept (d : Disruptor σ) : Nat := d.held.toList.length + d.pending.toList.length

variable [EntrySource σ]

/-- What the disruptor still has: what the other source has, and the entries that it keeps. -/
def rank (d : Disruptor σ) : Rank := (EntrySource.rank d.source).withEntries d.kept

theorem rank_emit (d : Disruptor σ) (entry : Entry) : (d.emit entry).2.rank = d.rank := rfl

/-- A pulled entry makes room for keeping one; nothing else changes what is held. -/
theorem rank_pull (tree : FileTree) (d : Disruptor σ) :
    (d.pull (EntrySource.next tree)).2.rank.AtMost d.rank ∧
      (∀ entry, (d.pull (EntrySource.next tree)).1 = .ok (some entry) →
        ((d.pull (EntrySource.next tree)).2.rank.withEntries 1).AtMost d.rank) ∧
      (d.pull (EntrySource.next tree)).2.held = d.held ∧
      (d.pull (EntrySource.next tree)).2.pending = none := by
  have le := EntrySource.rank_next tree d.source
  have lt := EntrySource.rank_next_some tree d.source
  unfold pull
  split
  · rename_i entry hp
    have : ({ d with pending := none }.rank.withEntries 1) = d.rank := by
      simp [rank, kept, hp, Rank.withEntries]
      omega
    refine ⟨this ▸ ?_, fun _ _ => this ▸ .refl _, rfl, rfl⟩
    exact .inl (.inr ⟨rfl, .inr ⟨rfl, by simp [Rank.withEntries]⟩⟩)
  · rename_i hp
    split
    · rename_i entry source hn
      rw [hn] at le lt
      have := (lt entry rfl).withEntries_succ (n := d.kept)
      refine ⟨?_, fun _ _ => ?_, rfl, hp⟩
      · exact (Rank.AtMost.withEntries le (Nat.le_refl _))
      · simpa [rank, kept, Rank.withEntries, Nat.add_assoc] using this
    · rename_i pulled source hne hn
      rw [hn] at le
      refine ⟨Rank.AtMost.withEntries le (Nat.le_refl _), fun entry h => ?_, rfl, hp⟩
      exact absurd h (by rintro rfl; exact hne entry rfl)

/-- An entry that is handed out while one is held leaves the disruptor with as much as before when
it was pulled for that, and with less when it is the held one at the end. -/
theorem rank_settle (d : Disruptor σ) (held : Held) (pulled : Option Entry)
    (hd : d.held.isSome) (hp : d.pending = none) :
    (pulled = none → (d.settle held pulled).2.rank.Less d.rank) ∧
      (pulled ≠ none → (d.settle held pulled).2.rank = d.rank) := by
  obtain ⟨own, hd⟩ := Option.isSome_iff_exists.mp hd
  unfold settle
  split
  · refine ⟨fun _ => ?_, fun h => absurd rfl h⟩
    rw [rank_emit]
    exact .inr ⟨rfl, .inr ⟨rfl, by simp [rank, kept, hd, hp, Rank.withEntries]⟩⟩
  · refine ⟨fun h => absurd h (by simp), fun _ => ?_⟩
    split <;> rw [rank_emit] <;> simp [rank, kept, hd, hp]

/-- Pulling while an entry is held adds nothing, and handing on what was pulled takes away. -/
theorem rank_passBy (tree : FileTree) (d : Disruptor σ) (held : Held) (hd : d.held.isSome) :
    (d.passBy (EntrySource.next tree) held).2.rank.AtMost d.rank ∧
      ∀ entry, (d.passBy (EntrySource.next tree) held).1 = .ok (some entry) →
        (d.passBy (EntrySource.next tree) held).2.rank.Less d.rank := by
  obtain ⟨le, lt, hh, hp⟩ := rank_pull tree d
  unfold passBy
  split
  · rename_i e d₁ h₁
    rw [h₁] at le
    exact ⟨le, by simp⟩
  · rename_i pulled d₁ h₁
    rw [h₁] at le lt hh hp
    have settled := rank_settle d₁ held pulled (by rw [← hh] at hd; exact hd) hp
    have : (d₁.settle held pulled).2.rank.Less d.rank := by
      cases pulled with
      | none => exact (settled.1 rfl).trans_atMost le
      | some entry =>
        rw [settled.2 (by simp)]
        refine Rank.Less.trans_atMost ?_ (lt entry rfl)
        exact .inr ⟨rfl, .inr ⟨rfl, by simp [Rank.withEntries]⟩⟩
    exact ⟨.inl this, fun _ _ => this⟩

theorem rank_hold (d : Disruptor σ) (entry : Entry) (h : d.held = none) :
    (d.hold entry).rank = d.rank.withEntries 1 := by
  simp [rank, kept, hold, h, Rank.withEntries]
  omega

theorem rank_next (tree : FileTree) (d : Disruptor σ) :
    (d.next (EntrySource.next tree)).2.rank.AtMost d.rank ∧
      ∀ entry, (d.next (EntrySource.next tree)).1 = .ok (some entry) →
        (d.next (EntrySource.next tree)).2.rank.Less d.rank := by
  unfold next
  split
  · rename_i held hd
    exact rank_passBy tree d held (by simp [hd])
  · rename_i hd
    obtain ⟨le, lt, hh, hp⟩ := rank_pull tree d
    split
    · rename_i e d₁ h₁
      rw [h₁] at le
      exact ⟨le, by simp⟩
    · rename_i d₁ h₁
      rw [h₁] at le
      exact ⟨le, by simp⟩
    · rename_i entry d₁ h₁
      rw [h₁] at lt hh
      have kept := lt entry rfl
      split
      · rw [← rank_hold d₁ entry (hh.trans hd)] at kept
        have := rank_passBy tree (d₁.hold entry) ⟨entry, d₁.config.step⟩ rfl
        exact ⟨this.1.trans kept, fun e h => (this.2 e h).trans_atMost kept⟩
      · rw [rank_emit]
        have : d₁.rank.Less d.rank := by
          refine Rank.Less.trans_atMost ?_ kept
          exact .inr ⟨rfl, .inr ⟨rfl, by simp [Rank.withEntries]⟩⟩
        exact ⟨.inl this, fun _ _ => this⟩

instance : EntrySource (Disruptor σ) where
  next tree d := d.next (EntrySource.next tree)
  rank := rank
  rank_next tree d := (d.rank_next tree).1
  rank_next_some tree d := (d.rank_next tree).2

end Disruptor

end RaftJournal
