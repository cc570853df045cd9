import RaftJournal.Proofs.Stream.Reordering
import RaftJournal.Proofs.Stream.Rounds
import RaftJournal.Proofs.Stream.Tallies

/-! # What a disruptor conserves

A source may answer anything, in any order: entries, ends, errors, and entries again. Whatever it does, a
disruptor over it loses no entry and adds none, hands on every error in the call in which it got it, and
its counters say what happened. Each is shown of one round and then of a run of them:

* **`Rounds.exists_out`**: what has been handed out and what is kept are the entries taken.
* **`Rounds.faults_eq`**: the errors handed on are those of the source.
* **`Rounds.until_fault`**: up to the first error the entries are handed out in the order that
  `reorder` says, whatever might have come after them.
* **`Disruptor.bears_stateAfter`**: how often an entry was held, and how often one was released.

**`Disruptor.conserves_stateAfter`** is all of it, between any two calls. -/

namespace RaftJournal

namespace Disruptor

variable {σ : Type} {source : σ → Pulled × σ} {d d' d₁ : Disruptor σ} {s : σ}
  {asked taken given now : List Pulled} {pulled : Pulled} {config : DisruptorConfig}

/-! ## entries -/

/-- The entries that a disruptor keeps. -/
def keeps (d : Disruptor σ) : List Entry := d.held.toList.map Held.entry ++ d.pending.toList

theorem Takes.keeps_append (takes : Takes source d asked pulled d₁) :
    d.keeps ++ delivered asked = d.held.toList.map Held.entry ++ delivered [pulled] := by
  rw [keeps, List.append_assoc, takes.delivered_eq]

/-- What a round hands out, but for the sequence numbers, is missing from what is kept then. -/
theorem Round.exists_out (round : Round source d asked now d') :
    ∃ out, delivered now = out.map Entry.clear ∧
      (out ++ d'.keeps).Perm (d.keeps ++ delivered asked) := by
  cases round with
  | fails takes | ends _ takes =>
    refine ⟨[], rfl, .of_eq ?_⟩
    rw [takes.keeps_append, keeps, takes.held_eq, takes.pending_eq]
    rfl
  | @passes entry _ idle takes other =>
    refine ⟨[entry], rfl, .of_eq ?_⟩
    rw [takes.keeps_append]
    simp [keeps, takes.held_eq, takes.pending_eq, idle, delivered]
  | @holds entry _ idle takes target =>
    refine ⟨[], rfl, .of_eq ?_⟩
    rw [takes.keeps_append]
    simp [keeps, takes.pending_eq, idle, delivered]
  | @passesBy entry held _ holding takes going =>
    -- the entry that goes by leaves, and the held one, which was there before it, stays
    refine ⟨[entry], rfl, ?_⟩
    rw [takes.keeps_append]
    simpa [keeps, takes.pending_eq, holding, delivered] using List.Perm.swap _ _ _
  | @releases entry held _ holding takes due =>
    refine ⟨[held.entry], rfl, .of_eq ?_⟩
    rw [takes.keeps_append]
    simp [keeps, holding, delivered]
  | @flushes held _ holding takes =>
    refine ⟨[held.entry], rfl, .of_eq ?_⟩
    rw [takes.keeps_append]
    simp [keeps, takes.pending_eq, holding, delivered]

/-- **No entry is lost or added.** What a disruptor has handed out, but for the sequence numbers, and what
it keeps are the entries that its source gave. -/
theorem Rounds.exists_out (run : Rounds source (ofSource s config) taken given d) :
    ∃ out, delivered given = out.map Entry.clear ∧ (out ++ d.keeps).Perm (delivered taken) := by
  induction run with
  | start => exact ⟨[], rfl, .refl _⟩
  | @round taken given asked now d₁ d₂ _ last ih =>
    obtain ⟨out, handed, same⟩ := ih
    obtain ⟨more, handed', same'⟩ := last.exists_out
    refine ⟨out ++ more, ?_, ?_⟩
    · rw [delivered_append, handed, handed', List.map_append]
    · have moved := same'.append_left out
      rw [← List.append_assoc, ← List.append_assoc] at moved
      rw [delivered_append]
      exact moved.trans (same.append_right _)

/-! ## counters -/

/-- After any number of calls the counters show what was handed out and what was taken. -/
theorem tallied_stateAfter (source : σ → Pulled × σ) (s : σ) (config : DisruptorConfig)
    (count : Nat) :
    (stateAfter (next source) count (ofSource s config)).Tallied 0
      (delivered (answers (next source) count (ofSource s config))).length := by
  induction count with
  | zero => exact tallied_ofSource s config
  | succ count ih =>
    have size (pulled : Pulled) : (delivered [pulled]).length = pulled.size := by
      rcases pulled with e | - | entry <;> rfl
    rw [answers_add, stateAfter_add, delivered_append, List.length_append]
    have tallied := (tallied_next source ih).1
    rw [← size] at tallied
    exact tallied

/-- Whether a call hands out an entry that was held back: none is held then, and either one was before the
call, or the entry is of the type that is not handed on at once. -/
def releases (source : σ → Pulled × σ) (d : Disruptor σ) : Bool :=
  match d.next source with
  | (.ok (some entry), after) =>
    !after.isHolding && (d.isHolding || entry.type = d.config.target)
  | _ => false

/-- The number of calls that hand out an entry that was held back. -/
def released (source : σ → Pulled × σ) (count : Nat) (d : Disruptor σ) : Nat :=
  (List.range count).countP fun earlier => (stateAfter (next source) earlier d).releases source

theorem released_succ (source : σ → Pulled × σ) (count : Nat) (d : Disruptor σ) :
    released source (count + 1) d =
      released source count d + ((stateAfter (next source) count d).releases source).toNat := by
  rw [released, List.range_succ, List.countP_append, List.countP_singleton]
  cases (stateAfter (next source) count d).releases source <;> rfl

/-- The counters show how often an entry was held, where so many of them have been handed out, and not
more of these because the source ended. -/
structure Bears (d : Disruptor σ) (released : Nat) : Prop where
  held : d.stats.held = UInt64.ofNat (released + d.isHolding.toNat)
  flushed : ∃ ended ≤ released, d.stats.flushedAtEnd = UInt64.ofNat ended

theorem Bears.of_same {released : Nat} (h : d.Bears released)
    (held : d'.stats.held = d.stats.held) (flushed : d'.stats.flushedAtEnd = d.stats.flushedAtEnd)
    (same : d'.isHolding = d.isHolding) :
    d'.Bears (released + (d.isHolding && !d'.isHolding).toNat) := by
  rw [same, Bool.and_not_self]
  refine ⟨?_, ?_⟩
  · rw [held, same]
    exact h.held
  · rw [flushed]
    exact h.flushed

/-- A round hands out the entry that is held exactly if none is held then. -/
theorem Round.bears {released : Nat} (round : Round source d asked now d') (h : d.Bears released) :
    d'.Bears (released + (d.isHolding && !d'.isHolding).toNat) := by
  have before (held : Option Held) (same : d.held = held) : d.isHolding = held.isSome := by
    rw [isHolding, same]
  cases round with
  | fails takes | ends _ takes | passes _ takes =>
    exact h.of_same takes.stats_held_eq takes.stats_flushed_eq
      (congrArg Option.isSome takes.held_eq)
  | passesBy holding takes =>
    exact h.of_same takes.stats_held_eq takes.stats_flushed_eq (before _ holding).symm
  | holds idle takes =>
    obtain ⟨held, flushed⟩ := h
    rw [← takes.stats_held_eq, before _ idle] at held
    rw [← takes.stats_flushed_eq] at flushed
    rw [before _ idle]
    exact ⟨add_one_eq_ofNat held, flushed⟩
  | releases holding takes =>
    obtain ⟨held, ended, le, flushed⟩ := h
    rw [← takes.stats_held_eq, before _ holding] at held
    rw [← takes.stats_flushed_eq] at flushed
    rw [before _ holding]
    exact ⟨held, ended, Nat.le_succ_of_le le, flushed⟩
  | flushes holding takes =>
    obtain ⟨held, ended, le, flushed⟩ := h
    rw [← takes.stats_held_eq, before _ holding] at held
    rw [← takes.stats_flushed_eq] at flushed
    rw [before _ holding]
    exact ⟨held, ended + 1, Nat.succ_le_succ le, add_one_eq_ofNat flushed⟩

/-- The last round of a call says whether an entry is handed out that was held: either it is the only
one, or the call has begun to hold an entry of the target type before it. -/
theorem releases_eq {answer : Pulled} (result : d.next source = (answer, d'))
    (last : Round source d₁ asked [answer] d') (config : d₁.config = d.config)
    (first : d.isHolding = d₁.isHolding ∨
      ∃ held, d₁.held = some held ∧ held.entry.type = d.config.target) :
    d.releases source = (d₁.isHolding && !d'.isHolding) := by
  have cleared (entry : Entry) : entry.clear.type = entry.type := rfl
  rw [releases, result]
  cases last with
  | fails takes => simp [isHolding, takes.held_eq]
  | ends idle takes => simp [isHolding, idle]
  | passes idle takes other =>
    rw [config] at other
    obtain same | ⟨held, holding, -⟩ := first
    · simp [isHolding, idle] at same
      simp [isHolding, idle, same, cleared, other]
    · rw [idle] at holding
      cases holding
  | passesBy holding takes => simp [isHolding, holding]
  | releases holding takes | flushes holding takes =>
    obtain same | ⟨held, own, target⟩ := first
    · simp [isHolding, holding] at same
      simp [isHolding, holding, same]
    · rw [holding] at own
      obtain rfl := Option.some.inj own
      simp [isHolding, holding, cleared, target]

/-- A call counts what it holds and what it hands out of that. -/
theorem bears_next {released : Nat} (source : σ → Pulled × σ) (h : d.Bears released) :
    (d.next source).2.Bears (released + (d.releases source).toNat) := by
  cases result : d.next source with
  | mk answer after =>
    obtain ⟨asked, only⟩ | ⟨asked, d₁, more, first, second⟩ := next_rounds source d
    · rw [result] at only
      rw [releases_eq result only rfl (.inl rfl)]
      exact only.bears h
    · rw [result] at second
      have bears := first.bears h
      cases first with
      | holds idle takes target =>
        rw [releases_eq result second takes.config_eq (.inr ⟨_, rfl, target⟩)]
        have before : d.isHolding = false := congrArg Option.isSome idle
        rw [before] at bears
        exact second.bears bears

/-- After any number of calls the counters show how often an entry was held. -/
theorem bears_stateAfter (source : σ → Pulled × σ) (s : σ) (config : DisruptorConfig)
    (count : Nat) :
    (stateAfter (next source) count (ofSource s config)).Bears
      (released source count (ofSource s config)) := by
  induction count with
  | zero => exact ⟨rfl, 0, Nat.le_refl _, rfl⟩
  | succ count ih =>
    have bears := bears_next source ih
    rw [stateAfter_add, released_succ]
    exact bears

/-- A call that hands out an entry that was held leaves none held. -/
theorem releases_add_le (source : σ → Pulled × σ) (d : Disruptor σ) :
    (d.releases source).toNat + (d.next source).2.isHolding.toNat ≤ 1 := by
  rw [releases]
  split
  · rename_i entry after result
    rw [result]
    cases after.isHolding with
    | true => exact Nat.le_refl 1
    | false => exact Bool.toNat_le _
  · rw [Bool.toNat_false, Nat.zero_add]
    exact Bool.toNat_le _

/-- Each of so many calls begins to hold one entry at most. -/
theorem released_add_le (source : σ → Pulled × σ) (s : σ) (config : DisruptorConfig)
    (count : Nat) :
    released source count (ofSource s config) +
      (stateAfter (next source) count (ofSource s config)).isHolding.toNat ≤ count := by
  induction count with
  | zero => exact Nat.le_refl 0
  | succ count ih =>
    have last := releases_add_le source (stateAfter (next source) count (ofSource s config))
    rw [stateAfter_add, released_succ]
    show _ + _ + (Disruptor.next source _).2.isHolding.toNat ≤ _
    omega

/-! ## faults -/

/-- An error of the source is handed on in the same round. -/
theorem Round.faults_eq (round : Round source d asked now d') : faults asked = faults now := by
  cases round with
  | fails takes | ends _ takes | passes _ takes | holds _ takes | passesBy _ takes
  | releases _ takes | flushes _ takes => exact takes.faults_eq

/-- **The errors of the source are handed on** as they come. -/
theorem Rounds.faults_eq (run : Rounds source d taken given d') : faults given = faults taken := by
  induction run with
  | start => rfl
  | round _ last ih => rw [faults_append, faults_append, ih, last.faults_eq]

/-! ## order -/

/-- As long as the source has given entries only, so has the disruptor, and these with what it owes then
are the order of what it has taken, whatever comes after. -/
def Foretold (d : Disruptor σ) (config : DisruptorConfig) (taken given : List Pulled) : Prop :=
  ∀ entries, taken = entries.map (fun entry => .ok (some entry)) →
    ∃ out, given = out.map (fun entry => .ok (some entry)) ∧
      ∀ more, reorder config.target config.step.toNat (entries ++ more) =
        out ++ due config d.held (d.pending.toList ++ more)

/-- An entry that is pulled comes first of what has not been handed out. -/
theorem Takes.foretold {entry : Entry} (takes : Takes source d asked (.ok (some entry)) d₁)
    (h : d.Foretold config taken given) {entries : List Entry}
    (only : taken ++ asked = entries.map (fun entry => .ok (some entry))) :
    ∃ out, given = out.map (fun entry => .ok (some entry)) ∧
      ∀ more, reorder config.target config.step.toNat (entries ++ more) =
        out ++ due config d.held (entry :: more) := by
  cases takes with
  | aside pending =>
    rw [List.append_nil] at only
    obtain ⟨out, handed, order⟩ := h entries only
    refine ⟨out, handed, fun more => ?_⟩
    rw [order, pending]
    rfl
  | finds pending =>
    obtain ⟨front, back, rfl, same, last⟩ := List.append_eq_map_iff.mp only
    obtain ⟨found, rfl, rest⟩ := List.map_eq_singleton_iff.mp last
    obtain rfl : found = entry := by simpa using rest
    obtain ⟨out, handed, order⟩ := h front same.symm
    refine ⟨out, handed, fun more => ?_⟩
    rw [List.append_assoc, order, pending]
    rfl

/-- The source has given an entry if it has given entries only. -/
theorem Takes.exists_entry (takes : Takes source d asked pulled d₁) {entries : List Entry}
    (only : taken ++ asked = entries.map (fun entry => .ok (some entry))) :
    ∃ entry, pulled = .ok (some entry) := by
  have mem (answer : Pulled) (last : answer ∈ asked) : ∃ entry, answer = .ok (some entry) := by
    have among := List.mem_append_right taken last
    rw [only] at among
    obtain ⟨entry, -, same⟩ := List.mem_map.mp among
    exact ⟨entry, same.symm⟩
  cases takes with
  | aside => exact ⟨_, rfl⟩
  | finds | ends | fails => exact mem _ (List.mem_singleton_self _)

theorem Round.foretold (round : Round source d asked now d') (same : d.config = config)
    (h : d.Foretold config taken given) : d'.Foretold config (taken ++ asked) (given ++ now) := by
  intro entries only
  cases round with
  | fails takes =>
    obtain ⟨entry, absurd⟩ := takes.exists_entry only
    cases absurd
  | ends _ takes | flushes _ takes =>
    obtain ⟨entry, absurd⟩ := takes.exists_entry only
    cases absurd
  | @passes entry _ idle takes other =>
    obtain ⟨out, handed, order⟩ := takes.foretold h only
    refine ⟨out ++ [entry.clear], by rw [handed, List.map_append]; rfl, fun more => ?_⟩
    rw [order, idle, emit_held, emit_pending, takes.held_eq, takes.pending_eq, idle, due,
      reorder_cons_other (same ▸ other), List.append_assoc]
    rfl
  | @holds entry _ idle takes target =>
    obtain ⟨out, handed, order⟩ := takes.foretold h only
    refine ⟨out, by rw [handed, List.append_nil], fun more => ?_⟩
    rw [order, idle, hold_held, hold_pending, takes.pending_eq, takes.config_eq, same,
      ← due_hold (same ▸ target)]
    rfl
  | @passesBy entry held _ holding takes going =>
    obtain ⟨out, handed, order⟩ := takes.foretold h only
    refine ⟨out ++ [entry.clear], by rw [handed, List.map_append]; rfl, fun more => ?_⟩
    rw [order, holding, emit_held, emit_pending, takes.pending_eq, due_held_succ config going,
      List.append_assoc]
    rfl
  | @releases entry held _ holding takes due =>
    obtain ⟨out, handed, order⟩ := takes.foretold h only
    refine ⟨out ++ [held.entry.clear], by rw [handed, List.map_append]; rfl, fun more => ?_⟩
    rw [order, holding, emit_held, emit_pending, due_held_zero config due, List.append_assoc]
    rfl

theorem Rounds.foretold (run : Rounds source (ofSource s config) taken given d) :
    d.Foretold config taken given := by
  induction run with
  | start =>
    intro entries only
    obtain rfl := List.map_eq_nil_iff.mp only.symm
    exact ⟨[], rfl, fun more => rfl⟩
  | round before last ih => exact last.foretold before.poised.config_eq ih

/-- Where the source fails, its error is all that a round asks for and hands out. -/
theorem Round.of_error_mem (round : Round source d asked now d') {e : JournalError}
    (mem : .error e ∈ asked) : asked = [.error e] ∧ now = [.error e] := by
  have pulls {pulled : Pulled} {d₁ : Disruptor σ} (takes : Takes source d asked pulled d₁) :
      asked = [.error e] ∧ pulled = .error e := by
    cases takes with
    | aside => cases mem
    | finds | ends | fails =>
      have same := List.mem_singleton.mp mem
      exact ⟨by rw [same], same.symm⟩
  cases round with
  | fails takes =>
    obtain ⟨same, error⟩ := pulls takes
    exact ⟨same, by rw [error]⟩
  | ends _ takes | passes _ takes | holds _ takes | passesBy _ takes | releases _ takes
  | flushes _ takes => cases (pulls takes).2

/-- **Up to the first error of its source a disruptor is foretold.** If the source gives entries and then
fails, the disruptor hands out the first ones of their order, which they are whatever entries there
might have been after them, and then the error. -/
theorem Rounds.until_fault (run : Rounds source (ofSource s config) taken given d)
    {entries : List Entry} {e : JournalError} {rest : List Pulled}
    (split : taken = entries.map (fun entry => .ok (some entry)) ++ .error e :: rest) :
    ∃ out later, given = out.map (fun entry => .ok (some entry)) ++ .error e :: later ∧
      ∀ more, out <+: reorder config.target config.step.toNat (entries ++ more) := by
  -- on the run; the error came in the last round or before it
  induction run generalizing rest with
  | start => exact absurd split.symm (by simp)
  | @round taken given asked now d₁ d₂ before last ih =>
    have here (only : taken = entries.map (fun entry => .ok (some entry)))
        (mem : .error e ∈ asked) : ∃ out later,
        given ++ now = out.map (fun entry => .ok (some entry)) ++ .error e :: later ∧
          ∀ more, out <+: reorder config.target config.step.toNat (entries ++ more) := by
      obtain ⟨out, handed, order⟩ := before.foretold entries only
      refine ⟨out, [], by rw [handed, (last.of_error_mem mem).2], fun more => ?_⟩
      rw [order]
      exact List.prefix_append _ _
    obtain ⟨more, only, back⟩ | ⟨more, front, back⟩ := List.append_eq_append_iff.mp split
    · have mem : .error e ∈ asked := by
        rw [back]
        exact List.mem_append_right _ List.mem_cons_self
      have single := (last.of_error_mem mem).1.symm.trans back
      obtain rfl : more = [] := by
        have length := congrArg List.length single
        simp only [List.length_append, List.length_cons, List.length_nil] at length
        exact List.eq_nil_of_length_eq_zero (by omega)
      exact here (by rw [only, List.append_nil]) mem
    · cases more with
      | nil =>
        have mem : .error e ∈ asked := by
          rw [← List.nil_append asked, ← back]
          exact List.mem_cons_self
        exact here (by rw [front, List.append_nil]) mem
      | cons answer more =>
        obtain ⟨rfl, -⟩ := List.cons.inj back
        obtain ⟨out, later, handed, order⟩ := ih front
        refine ⟨out, later ++ now, ?_, order⟩
        rw [handed, List.append_assoc, List.cons_append]

/-! ## between calls -/

/-- What there is to say of a disruptor between two calls, when its source has given some answers and it
has given others, and some of the entries that it had held are among these. -/
structure Conserves (config : DisruptorConfig) (taken given : List Pulled) (released : Nat)
    (d : Disruptor σ) : Prop where
  /-- What was handed out, but for the sequence numbers, and what is kept are the entries taken. -/
  entries : ∃ out, delivered given = out.map Entry.clear ∧
    (out ++ d.held.toList.map Held.entry ++ d.pending.toList).Perm (delivered taken)
  /-- No entry is handed out with a sequence number. -/
  cleared : ∀ entry ∈ delivered given, entry.sequenceNumber = none
  /-- An entry is set aside only while none is held. -/
  alone : d.held.isSome → d.pending = none
  /-- An entry that is held has not more steps to go than the configuration says. -/
  steps : ∀ held, d.held = some held → held.steps ≤ config.step
  /-- The counter of the entries handed out is exact. -/
  emitted : d.stats.emitted.toNat = (delivered given).length
  /-- The counter of the entries taken has the one that is kept besides. -/
  pulled : d.stats.pulled = d.stats.emitted + if d.held.isSome ∨ d.pending.isSome then 1 else 0
  /-- The counter of the times that an entry was held is exact. -/
  held : d.stats.held.toNat = released + if d.isHolding then 1 else 0
  /-- The end of the source was not more often the reason for handing out what was held. -/
  flushed : d.stats.flushedAtEnd ≤ d.stats.held
  /-- The errors of the source are handed on as they come. -/
  faults : faults given = faults taken
  /-- What was handed out before the first error, if no end came before it, is how the order begins of
  the entries taken until then, whatever comes after these. -/
  untilFault : ∀ entries e rest,
    taken = entries.map (fun entry => .ok (some entry)) ++ .error e :: rest →
    ∃ out later, given = out.map (fun entry => .ok (some entry)) ++ .error e :: later ∧
      ∀ more, out <+: reorder config.target config.step.toNat (entries ++ more)

/-- At most one entry is kept. -/
theorem kept_eq (alone : d.held.isSome → d.pending = none) :
    d.kept = if d.held.isSome ∨ d.pending.isSome then 1 else 0 := by
  rw [kept]
  cases held : d.held with
  | none => cases d.pending <;> rfl
  | some held =>
    rw [alone (by rw [held]; rfl)]
    rfl

/-- **A disruptor conserves the entries of its source**, whatever that answers: entries, ends and errors in
any order. -/
theorem conserves_stateAfter (source : σ → Pulled × σ) (s : σ) (config : DisruptorConfig)
    (count : Nat) (step : 1 ≤ config.step) (few : count < UInt64.size) :
    ∃ d, wrap s config = .ok d ∧ ∃ asked,
      (stateAfter (next source) count d).source = stateAfter source asked s ∧
      Conserves config (answers source asked s) (answers (next source) count d)
        (released source count d) (stateAfter (next source) count d) := by
  refine ⟨ofSource s config, wrap_of_step s step, ?_⟩
  obtain ⟨taken, run⟩ := exists_rounds source (ofSource s config) count
  obtain ⟨asked, after⟩ := run.source_eq
  have poised := run.poised
  have tallied := tallied_stateAfter source s config count
  have bears := bears_stateAfter source s config count
  have fits := Nat.lt_of_le_of_lt (released_add_le source s config count) few
  have most := length_delivered_le (answers (next source) count (ofSource s config))
  rw [length_answers] at most
  refine ⟨taken.length, after, ?_⟩
  rw [← show taken = answers source taken.length s from asked]
  generalize answers (next source) count (ofSource s config) = given at *
  generalize stateAfter (next source) count (ofSource s config) = d at *
  obtain ⟨out, handed, same⟩ := run.exists_out
  exact {
    entries := ⟨out, handed, by rw [List.append_assoc]; exact same⟩
    cleared := by
      rw [handed, List.forall_mem_map]
      exact fun entry _ => rfl
    alone := poised.alone
    steps := poised.steps_le
    emitted := by
      rw [tallied.handedOut, UInt64.toNat_ofNat_of_lt' (Nat.lt_of_le_of_lt most few)]
    pulled := by
      rw [tallied.taken, tallied.handedOut, Nat.add_zero, UInt64.ofNat_add, kept_eq poised.alone]
      split <;> rfl
    held := by
      rw [bears.held, UInt64.toNat_ofNat_of_lt' fits]
      cases d.isHolding <;> rfl
    flushed := by
      obtain ⟨ended, le, flushed⟩ := bears.flushed
      have fewer : ended ≤ released source count (ofSource s config) + d.isHolding.toNat :=
        Nat.le_add_right_of_le le
      rw [flushed, bears.held, UInt64.le_iff_toNat_le, UInt64.toNat_ofNat_of_lt' fits,
        UInt64.toNat_ofNat_of_lt' (Nat.lt_of_le_of_lt fewer fits)]
      exact fewer
    faults := run.faults_eq
    untilFault := fun entries e rest split => run.until_fault split }

/-- An entry of the delayed type and another one, then an error, and one more entry after it. -/
def interrupted : List Pulled :=
  [.ok (some (delayed 1)), .ok (some (passing 2)), .error unpackable, .ok (some (passing 3))]

/-- Three calls take all of it, and keep the entry of the delayed type. -/
theorem conserves_stateAfter_of_four :
    (1 : UInt64) ≤ 2 ∧ 3 < UInt64.size ∧
    ∃ d, wrap interrupted ⟨.of .persistDirectory, 2⟩ = .ok d ∧ ∃ asked,
      (stateAfter (next scripted) 3 d).source = stateAfter scripted asked interrupted ∧
      Conserves ⟨.of .persistDirectory, 2⟩ (answers scripted asked interrupted)
        [.ok (some (passing 2).clear), .error unpackable, .ok (some (passing 3).clear)] 0
        (stateAfter (next scripted) 3 d) ∧
      (stateAfter (next scripted) 3 d).held = some ⟨delayed 1, 0⟩ := by
  have step : (1 : UInt64) ≤ 2 := by decide
  have few : 3 < UInt64.size := by decide
  obtain ⟨d, wrapped, asked, source, conserves⟩ := conserves_stateAfter scripted interrupted
    ⟨.of .persistDirectory, 2⟩ 3 step few
  have same : wrap interrupted ⟨.of .persistDirectory, 2⟩ =
    .ok (ofSource interrupted ⟨.of .persistDirectory, 2⟩) := wrap_of_step _ step
  obtain rfl := Except.ok.inj (same.symm.trans wrapped)
  have answered : answers (next scripted) 3 (ofSource interrupted ⟨.of .persistDirectory, 2⟩) =
      [.ok (some (passing 2).clear), .error unpackable, .ok (some (passing 3).clear)] := by rfl
  have none : released scripted 3 (ofSource interrupted ⟨.of .persistDirectory, 2⟩) = 0 := by rfl
  rw [answered, none] at conserves
  exact ⟨step, few, _, wrapped, asked, source, conserves, by rfl⟩

end Disruptor

end RaftJournal
