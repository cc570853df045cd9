import RaftJournal.Proofs.Answers
import RaftJournal.Stream.Disruptor

/-! # A disruptor round by round

A call to a disruptor goes through rounds. Each **`Round`** pulls, which takes the entry that is set
aside or asks the source, and does one thing with what it pulled. Only a round that begins to hold an
entry hands out nothing, and then the call goes on to one more.

What is shown of every round holds after a run of **`Rounds`**, and any number of calls is such a run
(**`exists_rounds`**), in which the source was asked again and again (**`Rounds.source_eq`**). -/

namespace RaftJournal

/-- A source that answers as it is told to, and then has nothing more. -/
def scripted : List Pulled → Pulled × List Pulled
  | [] => (.ok none, [])
  | answer :: rest => (answer, rest)

/-- What it gives when it is told entries and an error. -/
theorem gives_scripted (entries : List Entry) (e : JournalError) :
    Gives scripted entries (some e) (entries.map (fun entry => .ok (some entry)) ++ [.error e]) := by
  have spent : Gives scripted [] none [] :=
    Gives.of_simulation (fun s items fault => s = [] ∧ items = [] ∧ fault = none)
      (by simp) (by simp) (by rintro s ⟨rfl, -⟩; exact ⟨rfl, rfl, rfl, rfl⟩) ⟨rfl, rfl, rfl⟩
  induction entries with
  | nil => exact gives_fault_iff.mpr ⟨rfl, spent⟩
  | cons entry rest ih => exact gives_cons_iff.mpr ⟨rfl, ih⟩

/-- The error of a record that cannot be unpacked. -/
def unpackable : JournalError := .deserialization 1 "expected value"

namespace Disruptor

variable {σ : Type} {source : σ → Pulled × σ} {d d' : Disruptor σ} {s : σ}
  {asked taken given now : List Pulled} {pulled : Pulled} {config : DisruptorConfig}

/-- A disruptor that moves entries at all is set up before its source. -/
theorem wrap_of_step (s : σ) {config : DisruptorConfig} (step : 1 ≤ config.step) :
    wrap s config = .ok (ofSource s config) := by
  have valid : config.step ≠ 0 := by
    rintro zero
    rw [zero] at step
    exact absurd step (by decide)
  rw [wrap, DisruptorConfig.validate, if_neg valid]
  rfl

/-! ## pulling -/

/-- Handing out an entry changes only its counter. -/
@[simp] theorem emit_held (d : Disruptor σ) (entry : Entry) : (d.emit entry).2.held = d.held := rfl

@[simp] theorem emit_pending (d : Disruptor σ) (entry : Entry) :
    (d.emit entry).2.pending = d.pending := rfl

/-- The entry that is held has the whole step to go. -/
@[simp] theorem hold_held (d : Disruptor σ) (entry : Entry) :
    (d.hold entry).held = some ⟨entry, d.config.step⟩ := rfl

@[simp] theorem hold_pending (d : Disruptor σ) (entry : Entry) :
    (d.hold entry).pending = d.pending := rfl

/-- A disruptor pulls, and these are the answers for which it asks its source. -/
inductive Takes (source : σ → Pulled × σ) (d : Disruptor σ) :
    (asked : List Pulled) → Pulled → Disruptor σ → Prop
  /-- An entry was set aside. -/
  | aside {entry : Entry} (pending : d.pending = some entry) :
      Takes source d [] (.ok (some entry)) { d with pending := none }
  /-- The source has an entry. -/
  | finds {entry : Entry} {s : σ} (pending : d.pending = none)
      (answer : source d.source = (.ok (some entry), s)) :
      Takes source d [.ok (some entry)] (.ok (some entry))
        { d with
          source := s, pending := none
          stats := { d.stats with pulled := d.stats.pulled + 1 } }
  /-- The source has come to its end. -/
  | ends {s : σ} (pending : d.pending = none) (answer : source d.source = (.ok none, s)) :
      Takes source d [.ok none] (.ok none) { d with source := s, pending := none }
  /-- The source fails. -/
  | fails {e : JournalError} {s : σ} (pending : d.pending = none)
      (answer : source d.source = (.error e, s)) :
      Takes source d [.error e] (.error e) { d with source := s, pending := none }

/-- What a disruptor pulls it takes so. -/
theorem exists_takes (source : σ → Pulled × σ) (d : Disruptor σ) :
    ∃ asked, Takes source d asked (d.pull source).1 (d.pull source).2 := by
  rw [pull]
  cases pending : d.pending with
  | some entry => exact ⟨_, .aside pending⟩
  | none =>
    cases answer : source d.source with
    | mk pulled s =>
      rcases pulled with e | - | entry
      · exact ⟨_, .fails pending answer⟩
      · exact ⟨_, .ends pending answer⟩
      · exact ⟨_, .finds pending answer⟩

namespace Takes

/-- Pulling leaves alone what is held, and afterwards nothing is set aside. -/
theorem held_eq (h : Takes source d asked pulled d') : d'.held = d.held := by
  cases h <;> rfl

/-- A take does not change the configuration. -/
theorem config_eq (h : Takes source d asked pulled d') : d'.config = d.config := by
  cases h <;> rfl

/-- After a take nothing is left aside. -/
theorem pending_eq (h : Takes source d asked pulled d') : d'.pending = none := by
  cases h <;> rfl

/-- Pulling counts entries taken, and nothing else. -/
theorem stats_held_eq (h : Takes source d asked pulled d') : d'.stats.held = d.stats.held := by
  cases h <;> rfl

/-- A take does not count anything as flushed at the end. -/
theorem stats_flushed_eq (h : Takes source d asked pulled d') :
    d'.stats.flushedAtEnd = d.stats.flushedAtEnd := by
  cases h <;> rfl

/-- What is pulled is what was set aside or what the source answered. -/
theorem delivered_eq (h : Takes source d asked pulled d') :
    d.pending.toList ++ delivered asked = delivered [pulled] := by
  cases h with
  | aside pending => simp [pending, delivered]
  | finds pending | ends pending | fails pending => simp [pending, delivered]

/-- A take meets a fault just when it pulls one. -/
theorem faults_eq (h : Takes source d asked pulled d') : faults asked = faults [pulled] := by
  cases h <;> rfl

/-- The source is asked at most once, and goes on from there. -/
theorem source_eq (h : Takes source d asked pulled d') :
    asked = answers source asked.length d.source ∧
      d'.source = stateAfter source asked.length d.source := by
  cases h with
  | aside => exact ⟨rfl, rfl⟩
  | finds _ answer | ends _ answer | fails _ answer =>
    simp [answers, stateAfter, answer]

end Takes

/-! ## rounds -/

/-- One round of a call: the answers of the source, what is handed out, and the disruptor then. -/
inductive Round (source : σ → Pulled × σ) (d : Disruptor σ) :
    (asked given : List Pulled) → Disruptor σ → Prop
  /-- The error of the source is handed on. -/
  | fails {asked : List Pulled} {e : JournalError} {d₁ : Disruptor σ}
      (takes : Takes source d asked (.error e) d₁) : Round source d asked [.error e] d₁
  /-- Nothing is held, and the source has come to its end. -/
  | ends {asked : List Pulled} {d₁ : Disruptor σ} (idle : d.held = none)
      (takes : Takes source d asked (.ok none) d₁) : Round source d asked [.ok none] d₁
  /-- Nothing is held, and an entry of another type is handed on. -/
  | passes {asked : List Pulled} {entry : Entry} {d₁ : Disruptor σ} (idle : d.held = none)
      (takes : Takes source d asked (.ok (some entry)) d₁)
      (other : entry.type ≠ d.config.target) :
      Round source d asked [.ok (some entry.clear)] (d₁.emit entry).2
  /-- Nothing is held, and an entry of the target type is, from now on. -/
  | holds {asked : List Pulled} {entry : Entry} {d₁ : Disruptor σ} (idle : d.held = none)
      (takes : Takes source d asked (.ok (some entry)) d₁)
      (target : entry.type = d.config.target) : Round source d asked [] (d₁.hold entry)
  /-- An entry goes by the one that is held. -/
  | passesBy {asked : List Pulled} {entry : Entry} {held : Held} {d₁ : Disruptor σ}
      (holding : d.held = some held) (takes : Takes source d asked (.ok (some entry)) d₁)
      (going : 0 < held.steps) :
      Round source d asked [.ok (some entry.clear)]
        ({ d₁ with held := some { held with steps := held.steps - 1 } }.emit entry).2
  /-- The held entry is due, and the one that was pulled is set aside. -/
  | releases {asked : List Pulled} {entry : Entry} {held : Held} {d₁ : Disruptor σ}
      (holding : d.held = some held) (takes : Takes source d asked (.ok (some entry)) d₁)
      (due : held.steps = 0) :
      Round source d asked [.ok (some held.entry.clear)]
        ({ d₁ with held := none, pending := some entry }.emit held.entry).2
  /-- The source has come to its end, and the held entry leaves. -/
  | flushes {asked : List Pulled} {held : Held} {d₁ : Disruptor σ}
      (holding : d.held = some held) (takes : Takes source d asked (.ok none) d₁) :
      Round source d asked [.ok (some held.entry.clear)]
        ({ d₁ with
          held := none
          stats := { d₁.stats with flushedAtEnd := d₁.stats.flushedAtEnd + 1 } }.emit
          held.entry).2

/-- What a round pulls. -/
theorem Round.exists_takes (h : Round source d asked now d') :
    ∃ pulled d₁, Takes source d asked pulled d₁ ∧ d'.source = d₁.source := by
  cases h with
  | fails takes | ends _ takes | passes _ takes | holds _ takes | passesBy _ takes
  | releases _ takes | flushes _ takes => exact ⟨_, _, takes, rfl⟩

/-- While an entry is held a call is one round. -/
theorem passBy_round (source : σ → Pulled × σ) {held : Held} (holding : d.held = some held) :
    ∃ asked, Round source d asked [(d.passBy source held).1] (d.passBy source held).2 := by
  obtain ⟨asked, takes⟩ := exists_takes source d
  refine ⟨asked, ?_⟩
  rw [passBy]
  generalize d.pull source = answered at takes
  obtain ⟨pulled, d₁⟩ := answered
  rcases pulled with e | - | entry
  · exact .fails takes
  · exact .flushes holding takes
  · simp only [settle]
    by_cases going : 0 < held.steps
    · rw [if_pos going]
      exact .passesBy holding takes going
    · rw [if_neg going]
      exact .releases holding takes (UInt64.le_zero_iff.mp (UInt64.not_lt.mp going))

/-- **A call is one round, or two**, if the first begins to hold an entry. -/
theorem next_rounds (source : σ → Pulled × σ) (d : Disruptor σ) :
    (∃ asked, Round source d asked [(d.next source).1] (d.next source).2) ∨
      ∃ asked d₁ more, Round source d asked [] d₁ ∧
        Round source d₁ more [(d.next source).1] (d.next source).2 := by
  rw [next]
  cases holding : d.held with
  | some held => exact .inl (passBy_round source holding)
  | none =>
    obtain ⟨asked, takes⟩ := exists_takes source d
    generalize d.pull source = answered at takes
    obtain ⟨pulled, d₁⟩ := answered
    rcases pulled with e | - | entry
    · exact .inl ⟨asked, .fails takes⟩
    · exact .inl ⟨asked, .ends holding takes⟩
    · simp only
      by_cases target : entry.type = d₁.config.target
      · rw [if_pos target]
        have held : (d₁.hold entry).held = some ⟨entry, d₁.config.step⟩ := rfl
        obtain ⟨more, round⟩ := passBy_round source held
        exact .inr ⟨asked, _, more, .holds holding takes (takes.config_eq ▸ target), round⟩
      · rw [if_neg target]
        exact .inl ⟨asked, .passes holding takes (takes.config_eq ▸ target)⟩

/-! ## runs -/

/-- A run of rounds, with all that the source answered and all that was handed out. -/
inductive Rounds (source : σ → Pulled × σ) (d : Disruptor σ) :
    (taken given : List Pulled) → Disruptor σ → Prop
  | start : Rounds source d [] [] d
  | round {taken given asked now : List Pulled} {d₁ d₂ : Disruptor σ}
      (before : Rounds source d taken given d₁) (last : Round source d₁ asked now d₂) :
      Rounds source d (taken ++ asked) (given ++ now) d₂

/-- A call after a run makes a longer run. -/
theorem Rounds.call (h : Rounds source d taken given d') :
    ∃ asked, Rounds source d (taken ++ asked) (given ++ [(d'.next source).1])
      (d'.next source).2 := by
  obtain ⟨asked, only⟩ | ⟨asked, d₁, more, first, second⟩ := next_rounds source d'
  · exact ⟨asked, h.round only⟩
  · refine ⟨asked ++ more, ?_⟩
    have run := (h.round first).round second
    rw [List.append_nil, List.append_assoc] at run
    exact run

/-- The last round of a call comes after a run as well. -/
theorem Rounds.exists_last (h : Rounds source d taken given d') :
    ∃ taken given d₁ asked, Rounds source d taken given d₁ ∧
      Round source d₁ asked [(d'.next source).1] (d'.next source).2 := by
  obtain ⟨asked, only⟩ | ⟨asked, d₁, more, first, second⟩ := next_rounds source d'
  · exact ⟨_, _, _, _, h, only⟩
  · exact ⟨_, _, _, _, h.round first, second⟩

/-- **Any number of calls is a run of rounds.** -/
theorem exists_rounds (source : σ → Pulled × σ) (d : Disruptor σ) (count : Nat) :
    ∃ taken, Rounds source d taken (answers (next source) count d)
      (stateAfter (next source) count d) := by
  induction count with
  | zero => exact ⟨[], .start⟩
  | succ count ih =>
    obtain ⟨taken, run⟩ := ih
    obtain ⟨asked, run⟩ := run.call
    rw [answers_add, stateAfter_add]
    exact ⟨_, run⟩

/-- In a run the source is asked again and again. -/
theorem Rounds.source_eq (h : Rounds source d taken given d') :
    taken = answers source taken.length d.source ∧
      d'.source = stateAfter source taken.length d.source := by
  induction h with
  | start => exact ⟨rfl, rfl⟩
  | @round taken given asked now d₁ d₂ _ last ih =>
    obtain ⟨pulled, d', takes, same⟩ := last.exists_takes
    obtain ⟨answered, after⟩ := takes.source_eq
    rw [ih.2] at answered after
    rw [List.length_append, answers_add, stateAfter_add, ← ih.1, ← answered]
    exact ⟨rfl, same.trans after⟩

/-! ## what is kept -/

/-- An entry is set aside only while none is held, and one that is held has not more steps to go than the
configuration says. -/
structure Poised (config : DisruptorConfig) (d : Disruptor σ) : Prop where
  config_eq : d.config = config
  alone : d.held.isSome → d.pending = none
  steps_le : ∀ held, d.held = some held → held.steps ≤ config.step

theorem Round.poised (round : Round source d asked now d') (h : d.Poised config) :
    d'.Poised config := by
  cases round with
  | fails takes | ends _ takes | passes _ takes =>
    refine ⟨takes.config_eq.trans h.config_eq, fun _ => takes.pending_eq, fun held holding => ?_⟩
    exact h.steps_le held (takes.held_eq.symm.trans holding)
  | holds _ takes =>
    have same := takes.config_eq.trans h.config_eq
    refine ⟨same, fun _ => takes.pending_eq, fun held holding => ?_⟩
    obtain rfl := Option.some.inj holding
    exact UInt64.le_of_eq (congrArg DisruptorConfig.step same)
  | @passesBy _ own _ holding takes going =>
    refine ⟨takes.config_eq.trans h.config_eq, fun _ => takes.pending_eq, fun held left => ?_⟩
    obtain rfl := Option.some.inj left
    have fewer : own.steps - 1 ≤ own.steps := UInt64.sub_le going
    exact UInt64.le_trans fewer (h.steps_le own holding)
  | releases _ takes | flushes _ takes =>
    exact ⟨takes.config_eq.trans h.config_eq, (nomatch ·), fun _ => (nomatch ·)⟩

theorem Rounds.poised (run : Rounds source (ofSource s config) taken given d) :
    d.Poised config := by
  induction run with
  | start => exact ⟨rfl, fun _ => rfl, fun _ => (nomatch ·)⟩
  | round _ last ih => exact last.poised ih

end Disruptor

end RaftJournal
