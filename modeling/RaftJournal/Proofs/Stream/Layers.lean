import RaftJournal.Proofs.Stream.Settled
import RaftJournal.Proofs.Stream.Sources
import RaftJournal.Stream.Layered

/-! # Disruptors over disruptors

A disruptor takes a source to one that yields the reordered entries, and it can be put over any source, so
over another disruptor too. A source under some disruptors yields the entries of the source at the bottom,
reordered by one disruptor after the other (**`Layers.yields_wrapAll`**), and gives all of them when it is
drained (**`Layers.drain_wrapAll`**). Taking the disruptors off again gives back the source
(**`Layers.unwrapAll?_wrapAll`**). -/

namespace RaftJournal

/-- A source that yields some entries gives them when it is asked with one tree all the time. -/
theorem Yields.gives {σ : Type} [EntrySource σ] {allowed : FileTree → Prop} {entries : List Entry}
    {s : σ} (h : Yields allowed entries s) {tree : FileTree} (can : allowed tree) :
    Gives (EntrySource.next tree) entries none s := by
  refine Gives.of_simulation (fun s entries fault => fault = none ∧ Yields allowed entries s)
    ?_ ?_ ?_ ⟨rfl, h⟩
  · rintro s entry rest fault ⟨rfl, h⟩
    exact ⟨(h.next can).1, rfl, (h.next can).2⟩
  · rintro s e ⟨⟨⟩, -⟩
  · rintro s ⟨-, h⟩
    exact ⟨(h.next can).1, rfl, (h.next can).2⟩

/-- Entries in memory at the bottom are yielded whatever the files are. -/
theorem GroundSource.yields_memory (allowed : FileTree → Prop) (entries : List Entry) :
    Yields allowed entries (GroundSource.memory ⟨entries⟩) := by
  refine Yields.of_step (fun s entries => s = .memory ⟨entries⟩) ?_ rfl
  rintro s entries tree rfl -
  have asked := MemoryEntries.next_eq ⟨entries⟩
  exact ⟨congrArg Prod.fst asked, congrArg (GroundSource.memory ∘ Prod.snd) asked⟩

namespace Layers

variable {s t : Layers} {config : DisruptorConfig} {configs : List DisruptorConfig}
  {allowed : FileTree → Prop} {entries : List Entry}

/-! ## one disruptor -/

/-- A disruptor is put on top before its first entry, unless its step is zero. -/
theorem wrap_eq (s : Layers) (config : DisruptorConfig) :
    s.wrap config =
      if config.step = 0 then .error (.invalidStep config.step)
      else .ok (ofDisruptor (.ofSource s.source config)) := by
  rw [wrap, Disruptor.wrap, DisruptorConfig.validate]
  split <;> rfl

/-- It reorders what is yielded below. -/
theorem yields_wrap (wrapped : s.wrap config = .ok t) (yields : Yields allowed entries s.source) :
    Yields allowed (reorder config.target config.step.toNat entries) t.source := by
  rw [wrap_eq] at wrapped
  split at wrapped
  · cases wrapped
  · cases wrapped
    exact yields.disruptor config

/-! ## any number of them -/

/-- Puts a disruptor on top for every configuration, the last one uppermost. -/
def wrapAll (s : Layers) : List DisruptorConfig → Except DisruptorConfig.Fault Layers
  | [] => .ok s
  | config :: rest =>
    match s.wrap config with
    | .error fault => .error fault
    | .ok t => t.wrapAll rest

/-- Takes so many disruptors off. -/
def unwrapAll? (s : Layers) : Nat → Option Layers
  | 0 => some s
  | count + 1 => (s.unwrapAll? count).bind unwrap?

/-- The entries after each configuration in turn has reordered them. -/
def reorderAll (configs : List DisruptorConfig) (entries : List Entry) : List Entry :=
  configs.foldl (fun out config => reorder config.target config.step.toNat out) entries

/-- The first configuration is put on first, and the others on top of it. -/
theorem wrapAll_cons (wrapped : s.wrapAll (config :: configs) = .ok t) :
    ∃ between, s.wrap config = .ok between ∧ between.wrapAll configs = .ok t := by
  rw [wrapAll] at wrapped
  split at wrapped
  next => cases wrapped
  next between first => exact ⟨between, first, wrapped⟩

/-- Disruptors can be put on top if no step is zero. -/
theorem exists_wrapAll (s : Layers) (valid : ∀ config ∈ configs, config.step ≠ 0) :
    ∃ t, s.wrapAll configs = .ok t := by
  induction configs generalizing s with
  | nil => exact ⟨s, rfl⟩
  | cons config rest ih =>
    rw [List.forall_mem_cons] at valid
    obtain ⟨t, wrapped⟩ := ih (ofDisruptor (.ofSource s.source config)) valid.2
    refine ⟨t, ?_⟩
    rw [wrapAll, wrap_eq, if_neg valid.1]
    exact wrapped

/-- **Each disruptor reorders what the one below it yields.** -/
theorem yields_wrapAll (wrapped : s.wrapAll configs = .ok t)
    (yields : Yields allowed entries s.source) : Yields allowed (reorderAll configs entries) t.source := by
  induction configs generalizing s entries with
  | nil =>
    cases wrapped
    exact yields
  | cons config rest ih =>
    obtain ⟨between, first, later⟩ := wrapAll_cons wrapped
    exact ih later (yields_wrap first yields)

/-- No configuration loses an entry. -/
theorem length_reorderAll (configs : List DisruptorConfig) (entries : List Entry) :
    (reorderAll configs entries).length = entries.length := by
  induction configs generalizing entries with
  | nil => rfl
  | cons config rest ih => exact (ih _).trans (length_reorder _ _ _)

/-- **Entries in memory under some disruptors are drained in the order that these make of them**, and none
is lost. -/
theorem drain_wrapAll (wrapped : (ofGround (.memory ⟨entries⟩)).wrapAll configs = .ok t)
    (tree : FileTree) :
    (t.drain tree).1 = reorderAll configs entries ∧ (t.drain tree).2.1 = none ∧
      (reorderAll configs entries).length = entries.length := by
  have yields := yields_wrapAll wrapped (GroundSource.yields_memory (fun _ => True) entries)
  have gives : Gives (EntrySource.next tree) (reorderAll configs entries) none t.source :=
    yields.gives trivial
  obtain ⟨given, ended⟩ := Prod.mk.inj (EntrySource.drained_of_gives gives)
  exact ⟨given, ended, length_reorderAll configs entries⟩

/-- **Taking off what was put on gives back the source.** -/
theorem unwrapAll?_wrapAll (wrapped : s.wrapAll configs = .ok t) :
    t.unwrapAll? configs.length = some s := by
  induction configs generalizing s with
  | nil =>
    cases wrapped
    rfl
  | cons config rest ih =>
    -- the disruptors above the first come off before it
    obtain ⟨between, first, later⟩ := wrapAll_cons wrapped
    rw [List.length_cons, unwrapAll?, ih later, Option.bind_some, unwrap?_wrap first]

end Layers

end RaftJournal
