import RaftJournal.Proofs.Storage.Files
import RaftJournal.Proofs.Stream.Entries
import RaftJournal.Proofs.Stream.Reordering

/-! # Sources while files change

A source may look at the files of the session, and a writer may change these from call to call. A source
**`Yields`** some entries if it hands them out and then nothing, as long as the files that a call sees are
among those allowed.

* A disruptor knows the source below it by its answers: over two sources that answer alike it answers
  alike (**`Disruptor.next_alike`**). So over a source that yields some entries it does what it does over
  these entries in memory, and yields their reordering: **`Yields.disruptor`**.
* Entries of a journal are yielded while files are added, since what was there stays as it was:
  **`JournalEntries.yields_of_gives`**. -/

namespace RaftJournal

/-! ## calls with changing files -/

namespace EntrySource

variable {σ : Type} [EntrySource σ]

/-- The answers to calls with these files, each made in the state that the one before left. -/
def answersIn : List FileTree → σ → List Pulled
  | [], _ => []
  | tree :: later, s => (next tree s).1 :: answersIn later (next tree s).2

end EntrySource

/-- A source hands out the entries and then nothing, however often it is asked with files that are
allowed. -/
def Yields {σ : Type} [EntrySource σ] (allowed : FileTree → Prop) (entries : List Entry) (s : σ) :
    Prop :=
  ∀ trees, (∀ tree ∈ trees, allowed tree) →
    EntrySource.answersIn trees s = script entries none trees.length

namespace Yields

variable {σ : Type} [EntrySource σ] {allowed allowed' : FileTree → Prop} {entries : List Entry}
  {s : σ}

/-- What is due first is the first entry, if there is one. -/
theorem script_succ (entries : List Entry) (count : Nat) :
    script entries (none : Option JournalError) (count + 1) =
      .ok entries.head? :: script entries.tail none count := by
  cases entries with
  | nil => rw [script, List.head?_nil, List.tail_nil]
  | cons entry rest => rw [script, List.head?_cons, List.tail_cons]

/-- One call takes the head off. -/
theorem next (h : Yields allowed entries s) {tree : FileTree} (can : allowed tree) :
    (EntrySource.next tree s).1 = .ok entries.head? ∧
      Yields allowed entries.tail (EntrySource.next tree s).2 := by
  have step (later : List FileTree) (cans : ∀ tree ∈ later, allowed tree) :
      (EntrySource.next tree s).1 ::
          EntrySource.answersIn later (EntrySource.next tree s).2 =
        .ok entries.head? :: script entries.tail none later.length := by
    rw [← script_succ, ← List.length_cons, ← h (tree :: later), EntrySource.answersIn]
    intro t mem
    rcases List.mem_cons.mp mem with rfl | mem
    · exact can
    · exact cans t mem
  refine ⟨(List.cons.inj (step [] ?_)).1, fun later cans => (List.cons.inj (step later cans)).2⟩
  intro t mem
  exact absurd mem List.not_mem_nil

/-- A relation between states and entries is enough, if one call takes the head off. -/
theorem of_step (Due : σ → List Entry → Prop)
    (step : ∀ s entries tree, Due s entries → allowed tree →
      (EntrySource.next tree s).1 = .ok entries.head? ∧
        Due (EntrySource.next tree s).2 entries.tail)
    (h : Due s entries) : Yields allowed entries s := by
  intro trees cans
  induction trees generalizing s entries with
  | nil => rw [EntrySource.answersIn, List.length_nil, script_zero]
  | cons tree later ih =>
    obtain ⟨head, due⟩ := step s entries tree h (cans tree List.mem_cons_self)
    rw [EntrySource.answersIn, List.length_cons, script_succ, head,
      ih due fun t mem => cans t (List.mem_cons_of_mem _ mem)]

/-- Fewer files are no harder. -/
theorem mono (h : Yields allowed entries s) (le : ∀ tree, allowed' tree → allowed tree) :
    Yields allowed' entries s :=
  fun trees cans => h trees fun tree mem => le tree (cans tree mem)

end Yields

/-- A call hands out the first entry, if there is one, and leaves the others. -/
theorem MemoryEntries.next_eq (s : MemoryEntries) :
    s.next = (.ok s.entries.head?, ⟨s.entries.tail⟩) := by
  obtain ⟨entries⟩ := s
  cases entries with
  | nil => rfl
  | cons entry rest => rfl

/-- Entries in memory are yielded whatever the files are. -/
theorem MemoryEntries.yields (allowed : FileTree → Prop) (entries : List Entry) :
    Yields allowed entries (MemoryEntries.mk entries) := by
  refine Yields.of_step (fun s entries => s = ⟨entries⟩) ?_ rfl
  rintro s entries tree rfl -
  exact ⟨congrArg Prod.fst (next_eq ⟨entries⟩), congrArg Prod.snd (next_eq ⟨entries⟩)⟩

/-! ## sources that answer alike -/

namespace Disruptor

variable {σ τ : Type} {R : σ → τ → Prop} {f : σ → Pulled × σ} {g : τ → Pulled × τ}
  {d : Disruptor σ} {m : Disruptor τ}

/-- Two disruptors are in the same state, but for the sources below them and what they have counted. -/
structure Like (R : σ → τ → Prop) (d : Disruptor σ) (m : Disruptor τ) : Prop where
  source : R d.source m.source
  config : d.config = m.config
  held : d.held = m.held
  pending : d.pending = m.pending

/-- Two calls give the same answer and leave disruptors in the same state. -/
structure Alike (R : σ → τ → Prop) (x : Pulled × Disruptor σ) (y : Pulled × Disruptor τ) : Prop where
  answer : x.1 = y.1
  like : Like R x.2 y.2

/-- Disruptors that are alike hand out the same entry and stay alike. -/
theorem emit_alike (h : Like R d m) (entry : Entry) : Alike R (d.emit entry) (m.emit entry) :=
  ⟨rfl, h.source, h.config, h.held, h.pending⟩

/-- Disruptors that are alike pull the same from sources that answer alike. -/
theorem pull_alike (same : ∀ s t, R s t → (f s).1 = (g t).1 ∧ R (f s).2 (g t).2) (h : Like R d m) :
    Alike R (d.pull f) (m.pull g) := by
  obtain ⟨answer, source⟩ := same _ _ h.source
  have pending := h.pending
  rw [pull, pull]
  -- a pending entry is taken without a look at the source
  cases aside : m.pending with
  | some entry =>
    rw [aside] at pending
    rw [pending]
    exact ⟨rfl, h.source, h.config, h.held, rfl⟩
  | none =>
    rw [aside] at pending
    rw [pending]
    generalize f d.source = x at answer source
    generalize g m.source = y at answer source
    obtain ⟨pulled, s⟩ := x
    obtain ⟨pulled', t⟩ := y
    obtain rfl : pulled = pulled' := answer
    have kept (stats stats' : DisruptorStats) :
        Like R { d with source := s, pending := none, stats }
          { m with source := t, pending := none, stats := stats' } :=
      ⟨source, h.config, h.held, rfl⟩
    rcases pulled with e | entry | entry
    · exact ⟨rfl, kept _ _⟩
    · exact ⟨rfl, kept _ _⟩
    · exact ⟨rfl, kept _ _⟩

/-- They settle alike what they hold. -/
theorem settle_alike (h : Like R d m) (held : Held) (pulled : Option Entry) :
    Alike R (d.settle held pulled) (m.settle held pulled) := by
  have holding (held : Option Held) (stats stats' : DisruptorStats) :
      Like R { d with held, stats } { m with held, stats := stats' } :=
    ⟨h.source, h.config, rfl, h.pending⟩
  cases pulled with
  | none => exact emit_alike (holding none _ _) held.entry
  | some entry =>
    rw [settle, settle]
    by_cases steps : 0 < held.steps
    · simp only [if_pos steps]
      exact emit_alike (holding _ _ _) entry
    · simp only [if_neg steps]
      have aside : Like R { d with held := none, pending := some entry }
          { m with held := none, pending := some entry } := ⟨h.source, h.config, rfl, rfl⟩
      exact emit_alike aside held.entry

/-- They let the same entries pass by what they hold. -/
theorem passBy_alike (same : ∀ s t, R s t → (f s).1 = (g t).1 ∧ R (f s).2 (g t).2)
    (h : Like R d m) (held : Held) : Alike R (d.passBy f held) (m.passBy g held) := by
  obtain ⟨answer, like⟩ := pull_alike same h
  rw [passBy, passBy]
  generalize d.pull f = x at answer like
  generalize m.pull g = y at answer like
  obtain ⟨pulled, d'⟩ := x
  obtain ⟨pulled', m'⟩ := y
  obtain rfl : pulled = pulled' := answer
  cases pulled with
  | error e => exact ⟨rfl, like⟩
  | ok pulled => exact settle_alike like held pulled

/-- **A disruptor knows its source by its answers.** If two sources answer alike, so do disruptors over
them, call by call. -/
theorem next_alike (same : ∀ s t, R s t → (f s).1 = (g t).1 ∧ R (f s).2 (g t).2) (h : Like R d m) :
    Alike R (d.next f) (m.next g) := by
  rw [next, next, h.held]
  cases holding : m.held with
  | some held => exact passBy_alike same h held
  | none =>
    obtain ⟨answer, like⟩ := pull_alike same h
    generalize d.pull f = x at answer like
    generalize m.pull g = y at answer like
    obtain ⟨pulled, d'⟩ := x
    obtain ⟨pulled', m'⟩ := y
    obtain rfl : pulled = pulled' := answer
    have config : d'.config = m'.config := like.config
    rcases pulled with e | entry | entry
    · exact ⟨rfl, like⟩
    · exact ⟨rfl, like⟩
    · simp only
      rw [config]
      by_cases target : entry.type = m'.config.target
      · rw [if_pos target, if_pos target]
        have held : Like R (d'.hold entry) (m'.hold entry) :=
          ⟨like.source, config, by rw [hold, hold, config], like.pending⟩
        exact passBy_alike same held _
      · rw [if_neg target, if_neg target]
        exact emit_alike like entry

/-- One call to a disruptor takes the head off what it owes. -/
theorem next_of_owes {config : DisruptorConfig} {out : List Entry} (h : Owes f config d out) :
    (d.next f).1 = .ok out.head? ∧ Owes f config (d.next f).2 out.tail := by
  cases out with
  | nil => exact next_of_owes_nil h
  | cons entry rest => exact next_of_owes_cons h

end Disruptor

/-- **A disruptor reorders what its source yields**, also while files change. -/
theorem Yields.disruptor {σ : Type} [EntrySource σ] {allowed : FileTree → Prop}
    {entries : List Entry} {s : σ} (h : Yields allowed entries s) (config : DisruptorConfig) :
    Yields allowed (reorder config.target config.step.toNat entries)
      (Disruptor.ofSource s config) := by
  -- the disruptor goes along with one over the same entries in memory
  let R : σ → MemoryEntries → Prop := fun s m => Yields allowed m.entries s
  refine Yields.of_step (fun d out => ∃ m : Disruptor MemoryEntries, Disruptor.Like R d m ∧
    Disruptor.Owes MemoryEntries.next config m out) ?_ ?_
  · rintro d out tree ⟨m, like, owes⟩ can
    have same (s : σ) (m : MemoryEntries) (yields : R s m) :
        (EntrySource.next tree s).1 = m.next.1 ∧ R (EntrySource.next tree s).2 m.next.2 := by
      rw [MemoryEntries.next_eq]
      exact Yields.next yields can
    obtain ⟨answer, like⟩ := Disruptor.next_alike same like
    obtain ⟨head, owes⟩ := Disruptor.next_of_owes owes
    exact ⟨answer.trans head, _, like, owes⟩
  · exact ⟨.ofSource ⟨entries⟩ config, ⟨h, rfl, rfl, rfl⟩, rfl, entries,
      ⟨entries, MemoryEntries.gives entries, rfl⟩, rfl⟩

/-! ## journals while files are added -/

section Added

variable {made tree : FileTree}

/-- A segment that has been opened is opened alike in a tree that keeps the files. -/
theorem LogSegment.reader_of_keeps (kept : made.Keeps tree) {segment : LogSegment}
    {r : SegmentReader} (h : segment.reader made = .ok r) : segment.reader tree = .ok r := by
  rw [LogSegment.reader] at h ⊢
  cases content : made.read segment.path with
  | error fault =>
    rw [content] at h
    cases h
  | ok c =>
    rw [content] at h
    rw [kept.read content]
    exact h

/-- A call that gives no error is the same when files have been added. -/
theorem RecordStream.openNext_of_keeps (kept : made.Keeps tree) (s : RecordStream)
    (unopened : List LogSegment) (fine : ∀ e, (s.openNext made unopened).1 ≠ .error e) :
    s.openNext tree unopened = s.openNext made unopened := by
  fun_induction openNext made s unopened with
  | case1 s => rw [openNext]
  | case2 s segment rest e failed => exact absurd rfl (fine e)
  | case3 s segment rest reader opened s' e failed => exact absurd rfl (fine e)
  | case4 s segment rest reader opened s' ended ih =>
    rw [openNext, LogSegment.reader_of_keeps kept opened]
    simp only [ended, s']
    exact ih fine
  | case5 s segment rest reader opened s' record reader' found =>
    rw [openNext, LogSegment.reader_of_keeps kept opened]
    simp only [found, s']

/-- A record stream that does not fail answers alike in a tree that keeps the files. -/
theorem RecordStream.next_of_keeps (kept : made.Keeps tree) (s : RecordStream)
    (fine : ∀ e, (s.next made).1 ≠ .error e) : s.next tree = s.next made := by
  rw [next] at fine ⊢
  rw [next]
  by_cases ended : s.done = true
  · rw [if_pos ended, if_pos ended]
  · rw [if_neg ended] at fine ⊢
    rw [if_neg ended]
    cases reading : s.reader with
    | none =>
      rw [reading] at fine
      exact openNext_of_keeps kept s s.unopened fine
    | some reader =>
      rw [reading] at fine
      simp only at fine ⊢
      cases found : reader.nextFrom s.config.start with
      | error e => rfl
      | ok found? =>
        rw [found] at fine
        cases found? with
        | none => exact openNext_of_keeps kept s s.unopened fine
        | some pair => rfl

/-- So does a source of entries. -/
theorem JournalEntries.next_of_keeps (kept : made.Keeps tree) (s : JournalEntries)
    (fine : ∀ e, (s.next made).1 ≠ .error e) : s.next tree = s.next made := by
  -- on the records passed over in this call; each of them was given without an error
  have running {s : JournalEntries} (h : ¬ s.done = true) : s.done = false := by simpa using h
  have records {s : JournalEntries} {answer : Except JournalError (Option LogRecord)}
      {after : RecordStream} (asked : s.records.next made = (answer, after))
      (fine : ∀ e, answer ≠ .error e) : s.records.next tree = (answer, after) := by
    rw [← asked]
    refine s.records.next_of_keeps kept ?_
    rw [asked]
    exact fine
  fun_induction next made s with
  | case1 s ended => rw [next, if_pos ended]
  | case2 s going entry rest batch => exact next_of_batch (running going) batch
  | case3 s going batch e after asked => exact absurd rfl (fine e)
  | case4 s going batch after asked =>
    rw [next_of_no_batch (running going) batch, records asked (by simp)]
  | case5 s going batch record after asked machine fault undecoded => exact absurd rfl (fine _)
  | case6 s going batch record after asked machine found decoded ih =>
    rw [next_of_no_batch (running going) batch, records asked (by simp)]
    simp only [if_pos machine, decoded]
    exact ih fine
  | case7 s going batch record after asked foreign ih =>
    rw [next_of_no_batch (running going) batch, records asked (by simp)]
    simp only [if_neg foreign]
    exact ih fine

/-- **Entries of a journal are yielded while files are added.** -/
theorem JournalEntries.yields_of_gives {entries : List Entry} {s : JournalEntries}
    (h : Gives (next made) entries none s) : Yields made.Keeps entries s := by
  refine Yields.of_step (fun s entries => Gives (next made) entries none s) ?_ h
  intro s entries tree gives kept
  have same : s.next tree = s.next made :=
    next_of_keeps kept s fun e failed => absurd (gives.step.1.symm.trans failed) (by simp)
  show (s.next tree).1 = _ ∧ Gives (next made) entries.tail none (s.next tree).2
  rw [same]
  exact gives.step

end Added

end RaftJournal
