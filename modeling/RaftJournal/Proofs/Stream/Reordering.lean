import RaftJournal.Proofs.Answers
import RaftJournal.Stream.Disruptor

/-! # The order of a delayed stream

Whatever a disruptor does call by call, the entries of a finite source come out of it in an order that
can be said at once. **`reorder`** cuts the entries into blocks: an entry of the target type leaves
after as many of the entries that follow it as the step says, or after all of them if there are fewer,
and the next block begins behind these; any other entry is a block of its own.

* **`Disruptor.due`** is what a disruptor still owes: the rest of the block of the entry that it holds,
  then the order of what it has not taken.
* **`Disruptor.Has`** says which entries a disruptor has not taken: the one set aside, then those of
  its source.
* **`gives_reorder`**: a disruptor over a source of some entries gives their reordering. -/

namespace RaftJournal

/-- The entries of a source in the order in which a disruptor hands them on, without their sequence
numbers. -/
def reorder (target : EntryType) (step : Nat) : List Entry → List Entry
  | [] => []
  | entry :: rest =>
    if entry.type = target then
      (rest.take step).map Entry.clear ++ entry.clear :: reorder target step (rest.drop step)
    else entry.clear :: reorder target step rest
termination_by entries => entries.length
decreasing_by
  · simp only [List.length_drop, List.length_cons]
    omega
  · simp only [List.length_cons]
    omega

@[simp] theorem reorder_nil (target : EntryType) (step : Nat) : reorder target step [] = [] := by
  rw [reorder]

theorem reorder_cons_target {target : EntryType} {entry : Entry} (h : entry.type = target)
    (step : Nat) (rest : List Entry) :
    reorder target step (entry :: rest) =
      (rest.take step).map Entry.clear ++ entry.clear :: reorder target step (rest.drop step) := by
  rw [reorder, if_pos h]

theorem reorder_cons_other {target : EntryType} {entry : Entry} (h : entry.type ≠ target)
    (step : Nat) (rest : List Entry) :
    reorder target step (entry :: rest) = entry.clear :: reorder target step rest := by
  rw [reorder, if_neg h]

/-- No entry is added or left out. -/
theorem length_reorder (target : EntryType) (step : Nat) (entries : List Entry) :
    (reorder target step entries).length = entries.length := by
  fun_induction reorder target step entries with
  | case1 => rfl
  | case2 entry rest held ih =>
    simp only [List.length_append, List.length_map, List.length_cons, List.length_take, ih,
      List.length_drop]
    omega
  | case3 entry rest passed ih => rw [List.length_cons, List.length_cons, ih]

/-- Entries kept in memory are handed out from the front. -/
theorem MemoryEntries.gives (entries : List Entry) : Gives next entries none ⟨entries⟩ := by
  refine Gives.of_simulation (fun s items fault => s = ⟨items⟩ ∧ fault = none) ?_ ?_ ?_ ⟨rfl, rfl⟩
  · rintro s entry rest fault ⟨rfl, rfl⟩
    exact ⟨rfl, rfl, rfl⟩
  · rintro s e ⟨-, h⟩
    exact absurd h (by simp)
  · rintro s ⟨rfl, -⟩
    exact ⟨rfl, rfl, rfl⟩

namespace Disruptor

variable {σ : Type} {source : σ → Pulled × σ} {d : Disruptor σ} {entry : Entry} {rest : List Entry}

/-! ## what is owed -/

/-- What comes out while an entry is held or none is, when so many entries have not been taken. -/
def due (config : DisruptorConfig) (held : Option Held) (rest : List Entry) : List Entry :=
  match held with
  | none => reorder config.target config.step.toNat rest
  | some held =>
    (rest.take held.steps.toNat).map Entry.clear ++
      held.entry.clear :: reorder config.target config.step.toNat (rest.drop held.steps.toNat)

/-- Holding an entry of the target type with the whole step to go owes its block. -/
theorem due_hold {config : DisruptorConfig} (h : entry.type = config.target) (rest : List Entry) :
    due config (some ⟨entry, config.step⟩) rest = due config none (entry :: rest) := by
  rw [due, due, reorder_cons_target h]

/-- With no entries left the held one comes out, whatever its steps. -/
theorem due_held_nil (config : DisruptorConfig) (held : Held) :
    due config (some held) [] = [held.entry.clear] := by
  rw [due, List.take_nil, List.drop_nil, reorder_nil]
  rfl

/-- A held entry that is due comes out before what has been taken after it. -/
theorem due_held_zero (config : DisruptorConfig) {held : Held} (h : held.steps = 0)
    (rest : List Entry) :
    due config (some held) rest = held.entry.clear :: due config none rest := by
  rw [due, due, h]
  rfl

theorem toNat_steps {held : Held} (h : 0 < held.steps) :
    held.steps.toNat = (held.steps - 1).toNat + 1 := by
  have := UInt64.lt_iff_toNat_lt.mp h
  have one : (1 : UInt64).toNat = 1 := rfl
  rw [UInt64.toNat_sub_of_le _ _ (UInt64.le_iff_toNat_le.mpr (by simp at this ⊢; omega)), one]
  simp at this
  omega

/-- A held entry that is not due lets one go by. -/
theorem due_held_succ (config : DisruptorConfig) {held : Held} (h : 0 < held.steps)
    (entry : Entry) (rest : List Entry) :
    due config (some held) (entry :: rest) =
      entry.clear :: due config (some { held with steps := held.steps - 1 }) rest := by
  rw [due, due, toNat_steps h, List.take_succ_cons, List.drop_succ_cons]
  rfl

/-- Nothing is owed only when no entry is held and none is left. -/
theorem of_due_eq_nil {config : DisruptorConfig} {held : Option Held} (h : due config held rest = []) :
    held = none ∧ rest = [] := by
  cases held with
  | some held => exact absurd h (List.append_ne_nil_of_right_ne_nil _ (List.cons_ne_nil _ _))
  | none =>
    have length := length_reorder config.target config.step.toNat rest
    rw [due] at h
    rw [h] at length
    exact ⟨rfl, List.eq_nil_of_length_eq_zero length.symm⟩

/-! ## pulling -/

/-- The entries that a disruptor has not taken: the one set aside, then those of its source. -/
def Has (source : σ → Pulled × σ) (d : Disruptor σ) (rest : List Entry) : Prop :=
  ∃ left, Gives source left none d.source ∧ rest = d.pending.toList ++ left

/-- Pulling from a disruptor gives the first entry that it has, if any, and changes nothing that is
held. -/
theorem pull_of_has (h : Has source d rest) :
    ∃ d', d.pull source = (.ok rest.head?, d') ∧ Has source d' rest.tail ∧
      d'.held = d.held ∧ d'.config = d.config ∧ d'.pending = none := by
  obtain ⟨left, gives, rfl⟩ := h
  -- an entry set aside comes before those of the source
  cases hp : d.pending with
  | some aside =>
    refine ⟨{ d with pending := none }, ?_, ⟨left, gives, rfl⟩, rfl, rfl, rfl⟩
    rw [pull, hp]
    rfl
  | none =>
    have has (s : σ) (stats : DisruptorStats) (tail : Gives source left.tail none s) :
        Has source { d with source := s, pending := none, stats } left.tail :=
      ⟨left.tail, tail, rfl⟩
    obtain ⟨head, tail⟩ := gives.step
    rw [pull, hp]
    simp only
    generalize source d.source = answered at head tail ⊢
    obtain ⟨answer, after⟩ := answered
    obtain rfl : answer = .ok left.head? := head
    cases left with
    | nil => exact ⟨_, rfl, has _ _ tail, rfl, rfl, rfl⟩
    | cons entry rest => exact ⟨_, rfl, has _ _ tail, rfl, rfl, rfl⟩

/-! ## one call -/

/-- The disruptor owes these entries. -/
def Owes (source : σ → Pulled × σ) (config : DisruptorConfig) (d : Disruptor σ)
    (out : List Entry) : Prop :=
  d.config = config ∧ ∃ rest, Has source d rest ∧ out = due config d.held rest

/-- While an entry is held, a call hands out what comes first of what is owed. -/
theorem passBy_of_owes {config : DisruptorConfig} (held : Held) (hc : d.config = config)
    (has : Has source d rest) :
    ∃ out more, due config (some held) rest = out :: more ∧
      (d.passBy source held).1 = .ok (some out) ∧
      Owes source config (d.passBy source held).2 more := by
  -- the source is asked before the steps are looked at: at its end the held entry leaves at once
  cases rest with
  | nil =>
    obtain ⟨d', hpull, has', -, hc', -⟩ := pull_of_has has
    rw [List.head?_nil] at hpull
    refine ⟨held.entry.clear, [], due_held_nil config held, ?_, ?_⟩
    · rw [passBy, hpull]
      rfl
    · rw [passBy, hpull]
      exact ⟨hc'.trans hc, [], has', (reorder_nil _ _).symm⟩
  | cons entry rest =>
    obtain ⟨d', hpull, has', -, hc', hp'⟩ := pull_of_has has
    rw [List.head?_cons] at hpull
    rw [List.tail_cons] at has'
    by_cases hs : 0 < held.steps
    · refine ⟨_, _, due_held_succ config hs entry rest, ?_, ?_⟩
      · rw [passBy, hpull]
        simp only [settle, if_pos hs]
        rfl
      · rw [passBy, hpull]
        simp only [settle, if_pos hs]
        exact ⟨hc'.trans hc, rest, has', rfl⟩
    · have zero : held.steps = 0 := by
        rw [← UInt64.toNat_inj]
        have := fun h => hs (UInt64.lt_iff_toNat_lt.mpr h)
        simp at this ⊢
        exact this
      refine ⟨_, _, due_held_zero config zero _, ?_, ?_⟩
      · rw [passBy, hpull]
        simp only [settle, if_neg hs]
        rfl
      · rw [passBy, hpull]
        simp only [settle, if_neg hs]
        obtain ⟨left, gives, eq⟩ := has'
        refine ⟨hc'.trans hc, entry :: rest, ⟨left, gives, ?_⟩, rfl⟩
        -- The entry just taken is set aside, in front of the same source.
        rw [eq, hp']
        rfl

/-- A disruptor that owes entries hands out the first and owes the others. -/
theorem next_of_owes_cons {config : DisruptorConfig} {out : Entry} {more : List Entry}
    (h : Owes source config d (out :: more)) :
    (d.next source).1 = .ok (some out) ∧ Owes source config (d.next source).2 more := by
  obtain ⟨hc, rest, has, eq⟩ := h
  cases hd : d.held with
  | some held =>
    rw [hd] at eq
    obtain ⟨out', more', split, head, owes⟩ := passBy_of_owes held hc has
    obtain ⟨rfl, rfl⟩ := List.cons.inj (eq.trans split)
    rw [next, hd]
    exact ⟨head, owes⟩
  | none =>
    rw [hd] at eq
    cases rest with
    | nil =>
      rw [due, reorder_nil] at eq
      exact absurd eq (List.cons_ne_nil _ _)
    | cons entry rest =>
      obtain ⟨d', hpull, has', hd', hc', -⟩ := pull_of_has has
      rw [List.head?_cons] at hpull
      rw [List.tail_cons] at has'
      have hc'' : d'.config = config := hc'.trans hc
      -- an entry of the target type is held, and the call goes on as if it had been held before
      by_cases ht : entry.type = config.target
      · have hold : (d'.hold entry).config = config := hc''
        obtain ⟨left, gives, split⟩ := has'
        have has'' : Has source (d'.hold entry) rest := ⟨left, gives, split⟩
        obtain ⟨out', more', split', head, owes⟩ :=
          passBy_of_owes ⟨entry, config.step⟩ hold has''
        rw [due_hold ht, ← eq] at split'
        obtain ⟨rfl, rfl⟩ := List.cons.inj split'
        rw [next, hd, hpull]
        simp only
        rw [hc'', if_pos ht]
        exact ⟨head, owes⟩
      · rw [due, reorder_cons_other ht] at eq
        obtain ⟨rfl, rfl⟩ := List.cons.inj eq
        rw [next, hd, hpull]
        simp only
        rw [hc'', if_neg ht]
        exact ⟨rfl, hc'', rest, has', by rw [emit]; simp only [hd', hd]; rfl⟩

/-- A disruptor that owes nothing hands out nothing and goes on owing nothing. -/
theorem next_of_owes_nil {config : DisruptorConfig} (h : Owes source config d []) :
    (d.next source).1 = .ok none ∧ Owes source config (d.next source).2 [] := by
  obtain ⟨hc, rest, has, eq⟩ := h
  obtain ⟨hd, rfl⟩ := of_due_eq_nil eq.symm
  obtain ⟨d', hpull, has', hd', hc', -⟩ := pull_of_has has
  rw [List.head?_nil] at hpull
  rw [next, hd, hpull]
  exact ⟨rfl, hc'.trans hc, [], has', by simp only [hd', hd]; exact (reorder_nil _ _).symm⟩

/-! ## whole runs -/

/-- A disruptor gives what it owes. -/
theorem gives_of_owes {config : DisruptorConfig} {out : List Entry}
    (h : Owes source config d out) : Gives (Disruptor.next source) out none d := by
  refine Gives.of_simulation
    (fun d out fault => fault = none ∧ Owes source config d out) ?_ ?_ ?_ ⟨rfl, h⟩
  · rintro d out more fault ⟨rfl, owes⟩
    obtain ⟨head, owes⟩ := next_of_owes_cons owes
    exact ⟨head, rfl, owes⟩
  · rintro d e ⟨h, -⟩
    exact absurd h (by simp)
  · rintro d ⟨-, owes⟩
    obtain ⟨head, owes⟩ := next_of_owes_nil owes
    exact ⟨head, rfl, owes⟩

/-- **A disruptor reorders its source by blocks.** Over a source that hands out some entries and then
nothing, a disruptor with a valid configuration hands out their reordering and then nothing, however
often it is asked. -/
theorem gives_reorder (source : σ → Pulled × σ) (s : σ) (config : DisruptorConfig)
    (entries : List Entry) (step : 1 ≤ config.step) (h : Gives source entries none s) :
    ∃ d, wrap s config = .ok d ∧
      Gives (Disruptor.next source) (reorder config.target config.step.toNat entries) none d := by
  have valid : config.step ≠ 0 := by
    rintro zero
    rw [zero] at step
    exact absurd step (by decide)
  refine ⟨ofSource s config, ?_, gives_of_owes ⟨rfl, entries, ⟨entries, h, rfl⟩, rfl⟩⟩
  rw [wrap, DisruptorConfig.validate, if_neg valid]
  rfl

/-- An entry of the type that is delayed below. -/
def delayed (id : UInt64) : Entry := ⟨some 9, some ⟨.persistDirectory, PersistDirectory.mk id⟩⟩

/-- An entry of another type. -/
def passing (id : UInt64) : Entry :=
  ⟨some 9, some ⟨.inodeDirectoryIdGenerator, InodeDirectoryIdGenerator.mk id 0⟩⟩

/-- Of the entries 1 to 6, of which 2, 3 and 5 are of the delayed type, 2 leaves after 3 and 4, and
5, which is taken while 2 is due, leaves after 6, since nothing else follows. -/
theorem gives_reorder_of_six :
    (1 : UInt64) ≤ 2 ∧
    Gives MemoryEntries.next [passing 1, delayed 2, delayed 3, passing 4, delayed 5, passing 6] none
      ⟨[passing 1, delayed 2, delayed 3, passing 4, delayed 5, passing 6]⟩ ∧
    ∃ d, wrap (MemoryEntries.mk [passing 1, delayed 2, delayed 3, passing 4, delayed 5, passing 6])
        ⟨.of .persistDirectory, 2⟩ = .ok d ∧
      Gives (Disruptor.next MemoryEntries.next)
        ([passing 1, delayed 3, passing 4, delayed 2, passing 6, delayed 5].map Entry.clear)
        none d := by
  have source := MemoryEntries.gives
    [passing 1, delayed 2, delayed 3, passing 4, delayed 5, passing 6]
  refine ⟨by decide, source, ?_⟩
  have target (id : UInt64) : (delayed id).type = .of .persistDirectory := rfl
  have other (id : UInt64) : (passing id).type ≠ .of .persistDirectory := by
    show EntryType.of .inodeDirectoryIdGenerator ≠ _
    decide
  have order : reorder (.of .persistDirectory) 2
      [passing 1, delayed 2, delayed 3, passing 4, delayed 5, passing 6] =
        [passing 1, delayed 3, passing 4, delayed 2, passing 6, delayed 5].map Entry.clear := by
    rw [reorder_cons_other (other 1), reorder_cons_target (target 2), List.drop_succ_cons,
      List.drop_succ_cons, List.drop_zero, reorder_cons_target (target 5), List.drop_succ_cons,
      List.drop_nil, reorder_nil]
    rfl
  rw [← order]
  exact gives_reorder MemoryEntries.next _ ⟨.of .persistDirectory, 2⟩ _ (by decide) source

end Disruptor

end RaftJournal
