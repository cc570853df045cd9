import RaftJournal.Proofs.Stream.Sources
import RaftJournal.Proofs.Stream.Tallies
import RaftJournal.Proofs.Writer.RoundTrip
import RaftJournal.Proofs.Writer.Tallies
import RaftJournal.Proofs.Writer.Writes

/-! # A disrupted journal

A disruptor is drained into a writer entry by entry, which is a run of the writer: one write for each
entry that the disruptor yields, and a flush (**`Disruptor.draining`**). The drain succeeds exactly if this
run does, and both leave the same files (**`Disruptor.drainInto_spec`**).

So what comes back from the files of a drained and finished writer is what the disruptor yields, numbered
anew: **`Disruptor.disrupted_round_trip`**. -/

namespace RaftJournal

/-! ## the run of a drain -/

/-- Files that a writer leaves when it has written some of the entries, in order. -/
def Writer.LeavesWhileWriting (desk : Desk) (entries : List Entry) (files : FileTree) : Prop :=
  ∃ done, done <+: entries.map Operation.writeEntry ∧
    (∀ answer ∈ (performAll Writer.perform done desk).1, answer.isOk) ∧
    (performAll Writer.perform done desk).2.tree = files

namespace Disruptor

/-- The operations that write entries and flush. -/
def draining (entries : List Entry) : List Operation := entries.map Operation.writeEntry ++ [.flush]

section Entries

variable (next : Nat) (entries : List Entry)

/-- Entries that are drained are numbered one by one. -/
theorem written_draining :
    Operation.written next (draining entries) =
      entries.mapIdx fun before entry => entry.stamp (UInt64.ofNat (next + before)) := by
  show Operation.written next (Writer.writes entries ++ [Operation.flush]) = _
  rw [Writer.written_writes]
  exact List.append_nil _

theorem countP_draining : (draining entries).countP Operation.isWrite = entries.length := by
  show (Writer.writes entries ++ [Operation.flush]).countP _ = _
  rw [List.countP_append, Writer.countP_writes]
  rfl

/-- A drain appends no record but those of batches. -/
theorem not_mem_draining (kind : RecordKind) (payload : Bytes) :
    Operation.appendRecord kind payload ∉ draining entries := by
  intro mem
  rcases List.mem_append.mp mem with mem | mem
  · exact Writer.not_mem_writes entries kind payload mem
  · cases List.mem_singleton.mp mem

end Entries

section Steps

variable {σ : Type} {entry : Entry} {entries : List Entry} {desk after : Desk} {before : Nat}

/-- What a drain gives when the disruptor yields the entries, after so many others: the run of the
writer has succeeded, and everything is counted; or some operation of the run has failed. -/
def DrainSpec (entries : List Entry) (before : Nat) (desk : Desk) :
    Except JournalError DisruptionSummary × Disruptor σ × Desk → Prop
  | (.ok summary, d', after) =>
    (∀ answer ∈ (performAll Writer.perform (draining entries) desk).1, answer.isOk) ∧
      (performAll Writer.perform (draining entries) desk).2 = after ∧
      summary.entriesWritten = UInt64.ofNat (before + entries.length) ∧
      summary.stats = d'.stats ∧ d'.Tallied 0 (before + entries.length) ∧ d'.kept = 0
  | (.error e, _, _) => .error e ∈ (performAll Writer.perform (draining entries) desk).1

/-- What is done after a write that has succeeded is done with the write before it. -/
theorem DrainSpec.cons {drained : Except JournalError DisruptionSummary × Disruptor σ × Desk}
    (wrote : Writer.perform (.writeEntry entry) desk = .ok none after)
    (h : DrainSpec entries (before + 1) after drained) :
    DrainSpec (entry :: entries) before desk drained := by
  have same : before + 1 + entries.length = before + (entry :: entries).length := by
    rw [List.length_cons]
    omega
  obtain ⟨result, d', final⟩ := drained
  cases result with
  | error e =>
    rw [DrainSpec, draining, List.map_cons, List.cons_append, performAll_of_ok wrote]
    exact List.mem_cons_of_mem _ h
  | ok summary =>
    obtain ⟨succeeded, rest⟩ := h
    rw [DrainSpec, draining, List.map_cons, List.cons_append, performAll_of_ok wrote, ← same]
    exact ⟨List.forall_mem_cons.mpr ⟨rfl, succeeded⟩, rest⟩

/-- Files that are left later are left after the write as well. -/
theorem leavesWhileWriting_cons {files : FileTree}
    (wrote : Writer.perform (.writeEntry entry) desk = .ok none after)
    (h : Writer.LeavesWhileWriting after entries files) :
    Writer.LeavesWhileWriting desk (entry :: entries) files := by
  obtain ⟨done, first, succeeded, rfl⟩ := h
  refine ⟨.writeEntry entry :: done, List.cons_prefix_cons.mpr ⟨rfl, first⟩, ?_, ?_⟩
  · rw [performAll_of_ok wrote]
    exact List.forall_mem_cons.mpr ⟨rfl, succeeded⟩
  · rw [performAll_of_ok wrote]

end Steps

section Drain

variable {σ : Type} [EntrySource σ] {d : Disruptor σ}

/-- A drain goes on after every entry that has been written. -/
theorem drainInto_eq (d : Disruptor σ) (desk : Desk) (written : UInt64) :
    d.drainInto desk written =
      match EntrySource.next desk.tree d with
      | (.error e, d') => (.error e, d', desk)
      | (.ok none, d') =>
        match Writer.flush desk with
        | .error e after => (.error e, d', after)
        | .ok _ after => (.ok ⟨written, d'.stats⟩, d', after)
      | (.ok (some entry), d') =>
        match Writer.writeEntry entry desk with
        | .error e after => (.error e, d', after)
        | .ok _ after => drainInto d' after (written + 1) := by
  rw [drainInto]
  split
  next e d' asked => rw [asked]
  next d' asked => rw [asked]; rfl
  next entry d' asked => rw [asked]; rfl

/-- A call to a disruptor that yields entries hands out the first of them, and counts it. -/
theorem exists_next {allowed : FileTree → Prop} {entries : List Entry} {before : Nat}
    {tree : FileTree} (yields : Yields allowed entries d) (can : allowed tree)
    (tallied : d.Tallied 0 before) :
    ∃ d', EntrySource.next tree d = (.ok entries.head?, d') ∧ Yields allowed entries.tail d' ∧
      d'.Tallied 0 (before + Pulled.size (.ok entries.head?)) ∧
      (entries.head? = none → d'.kept = 0) := by
  obtain ⟨answer, yields⟩ := yields.next can
  obtain ⟨tallied, kept⟩ : (EntrySource.next tree d).2.Tallied 0
        (before + (EntrySource.next tree d).1.size) ∧
      ((EntrySource.next tree d).1 = .ok none → (EntrySource.next tree d).2.kept = 0) :=
    tallied_next _ tallied
  refine ⟨(EntrySource.next tree d).2, Prod.ext answer rfl, yields, answer ▸ tallied, ?_⟩
  intro none
  exact kept (answer.trans (congrArg _ none))

/-- **A drain is a run of the writer**, as long as the disruptor yields its entries from the files that
the writer leaves on the way. -/
theorem drainInto_spec {allowed : FileTree → Prop} {entries : List Entry} {desk : Desk}
    {written : UInt64} {before : Nat} (yields : Yields allowed entries d)
    (along : ∀ files, Writer.LeavesWhileWriting desk entries files → allowed files)
    (counted : written = UInt64.ofNat before) (tallied : d.Tallied 0 before) :
    DrainSpec entries before desk (d.drainInto desk written) := by
  -- on the entries; each is handed out with the files that the writes before it have left
  induction entries generalizing d desk written before with
  | nil =>
    have can : allowed desk.tree :=
      along _ ⟨[], List.nil_prefix, fun _ mem => absurd mem List.not_mem_nil, rfl⟩
    obtain ⟨d', asked, -, tallied, kept⟩ := exists_next yields can tallied
    rw [drainInto_eq, asked]
    cases flushed : Writer.flush desk with
    | error e after =>
      have failed : Writer.perform .flush desk = .error e after := by
        rw [Writer.perform, map_apply, flushed]
      show .error e ∈ (performAll Writer.perform [.flush] desk).1
      rw [performAll_of_error failed]
      exact List.mem_cons_self
    | ok u after =>
      have done : Writer.perform .flush desk = .ok none after := by
        rw [Writer.perform, map_apply, flushed]
      show (∀ answer ∈ (performAll Writer.perform [.flush] desk).1, answer.isOk) ∧ _
      rw [draining, List.map_nil, List.nil_append, performAll_of_ok done]
      exact ⟨List.forall_mem_singleton.mpr rfl, rfl, counted, rfl, tallied, kept rfl⟩
  | cons entry rest ih =>
    have can : allowed desk.tree :=
      along _ ⟨[], List.nil_prefix, fun _ mem => absurd mem List.not_mem_nil, rfl⟩
    obtain ⟨d', asked, yields, tallied, -⟩ := exists_next yields can tallied
    rw [drainInto_eq, asked, List.head?_cons]
    simp only
    cases wrote : Writer.writeEntry entry desk with
    | error e after =>
      have failed : Writer.perform (.writeEntry entry) desk = .error e after := by
        rw [Writer.perform, map_apply, wrote]
      show .error e ∈ (performAll Writer.perform (.writeEntry entry :: draining rest) desk).1
      rw [performAll_of_error failed]
      exact List.mem_cons_self
    | ok u after =>
      have done : Writer.perform (.writeEntry entry) desk = .ok none after := by
        rw [Writer.perform, map_apply, wrote]
      show DrainSpec (entry :: rest) before desk (d'.drainInto after (written + 1))
      exact (ih yields (fun files left => along files (leavesWhileWriting_cons done left))
        (add_one_eq_ofNat counted) tallied).cons done

/-- A drain and a finish that succeed are one run of the writer that succeeds, and everything is
counted. -/
theorem disruptInto_finish {d' : Disruptor σ} {entries : List Entry} {desk between after : Desk}
    {summary : DisruptionSummary} {written : WriterSummary}
    (yields : Yields (Writer.LeavesWhileWriting desk entries) entries d) (tallied : d.Tallied 0 0)
    (fresh : desk.writer.Tallied 0) (drained : d.disruptInto desk = (.ok summary, d', between))
    (finished : Writer.finish between = .ok written after) :
    let run := performAll Writer.perform (draining entries ++ [.finish]) desk
    (∀ answer ∈ run.1, answer.isOk) ∧ run.2 = after ∧
      summary.entriesWritten = UInt64.ofNat entries.length ∧
      summary.stats.pulled = UInt64.ofNat entries.length ∧
      summary.stats.emitted = UInt64.ofNat entries.length ∧
      Counted written.entries entries.length := by
  intro run
  have spec : DrainSpec entries 0 desk (d.disruptInto desk) :=
    drainInto_spec yields (fun files left => left) rfl tallied
  rw [drained] at spec
  obtain ⟨succeeded, rfl, wrote, stats, tallied, kept⟩ := spec
  have finishes : Writer.perform .finish
      (performAll Writer.perform (draining entries) desk).2 = .ok none after := by
    rw [Writer.perform, map_apply, finished]
  have whole : run = ((performAll Writer.perform (draining entries) desk).1 ++ [.ok none], after) := by
    show performAll Writer.perform (draining entries ++ [.finish]) desk = _
    rw [performAll_append, performAll_of_ok finishes]
    rfl
  rw [Nat.zero_add] at wrote tallied
  have handedOut := tallied.handedOut
  have taken := tallied.taken
  rw [kept, Nat.add_zero] at taken
  rw [← stats] at handedOut taken
  -- the writer has been given what it counts since it was fresh
  have given := Writer.Tallied.run (draining entries) fresh 0 succeeded
  rw [written_draining, List.length_mapIdx, Nat.zero_add] at given
  rw [whole]
  refine ⟨?_, rfl, wrote, taken, handedOut, (given.finish finished).2⟩
  exact List.forall_mem_append.mpr ⟨succeeded, List.forall_mem_singleton.mpr rfl⟩

/-- A drain succeeds if its run does. -/
theorem exists_disruptInto {entries : List Entry} {desk : Desk}
    (yields : Yields (Writer.LeavesWhileWriting desk entries) entries d) (tallied : d.Tallied 0 0)
    (succeeded : ∀ answer ∈ (performAll Writer.perform (draining entries) desk).1, answer.isOk) :
    ∃ summary d', d.disruptInto desk =
      (.ok summary, d', (performAll Writer.perform (draining entries) desk).2) := by
  have spec : DrainSpec entries 0 desk (d.disruptInto desk) :=
    drainInto_spec yields (fun files left => left) rfl tallied
  generalize d.disruptInto desk = drained at spec ⊢
  obtain ⟨result, d', after⟩ := drained
  cases result with
  | error e =>
    have failed : (Except.isOk (.error e : Answer)) = true := succeeded _ spec
    exact absurd failed Bool.false_ne_true
  | ok summary =>
    obtain ⟨-, rfl, -⟩ := spec
    exact ⟨summary, d', rfl⟩

/-- A finish succeeds if it does so in a run. -/
theorem exists_finish {desk : Desk}
    (succeeded : ∀ answer ∈ (performAll Writer.perform [.finish] desk).1, answer.isOk) :
    ∃ written after, Writer.finish desk = .ok written after := by
  cases finished : Writer.finish desk with
  | ok written after => exact ⟨written, after, rfl⟩
  | error e after =>
    have result : Writer.perform .finish desk = .error e after := by
      rw [Writer.perform, map_apply, finished]
    rw [performAll_of_error result] at succeeded
    exact absurd (succeeded _ List.mem_cons_self) Bool.false_ne_true

end Drain

/-! ## what comes back -/

variable {tree made : FileTree} {root : String} {config : WriterConfig} {codec : Codec} {w : Writer}

/-- What was there stays there while a created writer writes entries, if the indices suffice. -/
theorem extends_of_leavesWhileWriting (created : Writer.create tree root config codec = (.ok w, made))
    {entries : List Entry} {files : FileTree}
    (numbered : (performAll Ledger.perform (draining entries) (.start config codec)).2.Numbered)
    (left : Writer.LeavesWhileWriting ⟨w, made⟩ entries files) : made.Extends files := by
  obtain ⟨done, ⟨more, split⟩, succeeded, rfl⟩ := left
  rw [draining, ← split, List.append_assoc, performAll_append] at numbered
  obtain ⟨-, site, volumes, rfl, -, shows, -⟩ := Writer.exists_shows done created
    (fun answer mem => Answer.not_isIo_of_isOk (succeeded answer mem))
    (Ledger.numbered_of_performAll numbered)
  exact shows.holds.extends_site

/-- **A journal can be disrupted into another one**: its entries are yielded while a writer that has been
created among the same files writes others. -/
theorem journal_yields (created : Writer.create tree root config codec = (.ok w, made))
    {entries out : List Entry} {s : JournalEntries}
    (numbered : (performAll Ledger.perform (draining out) (.start config codec)).2.Numbered)
    (gives : Gives (JournalEntries.next made) entries none s) :
    Yields (Writer.LeavesWhileWriting ⟨w, made⟩ out) entries s :=
  (JournalEntries.yields_of_gives gives).mono fun _ left =>
    (extends_of_leavesWhileWriting created numbered left).keeps

/-- **A disrupted journal comes back in the order of the disruptor.** Take a source that hands out some
entries and then nothing, with the files that the writer leaves on the way, a disruptor over it that
delays a type by at least one entry, and a writer that has been created. If the disruptor is drained into
the writer and the writer finished, both without an error, and the indices and the sequence numbers
suffice, then a source over the files of the group gives exactly the reordered entries, numbered from the
first sequence number on, and then nothing, without an error. Every counter shows the number of entries.
Only the empty path is not taken as a root; the segments of the group are read all the same. -/
theorem disrupted_round_trip {σ : Type} [EntrySource σ] (s : σ) (entries : List Entry)
    (disrupting : DisruptorConfig) {d : Disruptor σ} {desk after : Desk}
    {summary : DisruptionSummary} {written : WriterSummary} (step : 1 ≤ disrupting.step)
    (created : Writer.create tree root config codec = (.ok w, made))
    (yields : Yields (Writer.LeavesWhileWriting ⟨w, made⟩
      (reorder disrupting.target disrupting.step.toNat entries)) entries s)
    (drained : (ofSource s disrupting).disruptInto ⟨w, made⟩ = (.ok summary, d, desk))
    (finished : Writer.finish desk = .ok written after)
    (numbered : config.startIndex.toNat +
      (performAll Ledger.perform
        (draining (reorder disrupting.target disrupting.step.toNat entries) ++ [.finish])
        (.start config codec)).2.accepted.length ≤ UInt64.size)
    (sequenced : config.startSequenceNumber.toNat + entries.length ≤ UInt64.size) :
    let source := JournalEntries.ofRecords (.ofSegments
      (segmentsIn after.tree (groupDirectory root config.group)) ⟨config.group, 0, none⟩) codec
    wrap s disrupting = .ok (ofSource s disrupting) ∧
      JournalEntries.ofRoot after.tree root ⟨config.group, 0, none⟩ codec =
        (if root = "" then .error (.invalidDirectory "") else .ok source) ∧
      Gives (JournalEntries.next after.tree)
        ((reorder disrupting.target disrupting.step.toNat entries).mapIdx fun before entry =>
          entry.stamp (UInt64.ofNat (config.startSequenceNumber.toNat + before))) none source ∧
      summary.entriesWritten = UInt64.ofNat entries.length ∧
      summary.stats.pulled = UInt64.ofNat entries.length ∧
      summary.stats.emitted = UInt64.ofNat entries.length ∧
      Counted written.entries entries.length := by
  intro source
  have valid : disrupting.step ≠ 0 := by
    rintro zero
    rw [zero] at step
    exact absurd step (by decide)
  refine ⟨by rw [wrap, DisruptorConfig.validate, if_neg valid]; rfl, ?_⟩
  generalize ordered : reorder disrupting.target disrupting.step.toNat entries = out
    at yields numbered ⊢
  have length : entries.length = out.length := by rw [← ordered, length_reorder]
  have fresh : w.Tallied 0 := by
    obtain ⟨dir, -, -, -, rfl⟩ := Writer.of_create created
    exact ⟨0, counted_zero, rfl⟩
  obtain ⟨succeeded, final, counts⟩ := disruptInto_finish (ordered ▸ yields.disruptor disrupting)
    (tallied_ofSource s disrupting) fresh drained finished
  obtain ⟨opened, gives⟩ := Writer.gives_finished (draining out) created succeeded
    (fun kind payload mem => absurd mem (not_mem_draining out kind payload))
    (Ledger.numbered_performAll_iff.mpr numbered)
    (by rw [countP_draining, ← length]; exact sequenced)
  rw [final] at opened gives
  rw [written_draining] at gives
  exact ⟨opened, gives, length ▸ counts⟩

/-- Batches of two small entries, in segments with room for one of them; numbers from 7 on. -/
def pairedConfig : WriterConfig := ⟨.defaultGroup, 64, 2, 3, 5, 7⟩

/-- A fresh writer of such batches. -/
def pairedDesk : Desk := Writer.freshDesk "j" pairedConfig .packed

/-- An entry that is delayed, and two that are not. -/
def threeEntries : List Entry := [delayed 1, passing 2, passing 3]

/-- The order in which they are handed out. -/
def threeDisrupted : List Entry := [passing 2, delayed 1, passing 3].map Entry.clear

theorem reorder_threeEntries : reorder (.of .persistDirectory) 1 threeEntries = threeDisrupted := by
  have other (id : UInt64) : (passing id).type ≠ .of .persistDirectory := by
    show EntryType.of .inodeDirectoryIdGenerator ≠ _
    decide
  have target : (delayed 1).type = .of .persistDirectory := rfl
  rw [threeEntries, reorder_cons_target target, List.drop_succ_cons, List.drop_zero,
    reorder_cons_other (other 3), reorder_nil]
  rfl

/-- The first of three entries is delayed by one. They are written in two batches, in a segment each, and
come back in the new order, numbered 7, 8 and 9. -/
theorem disrupted_round_trip_of_three :
    ∃ summary d desk written after,
      (1 : UInt64) ≤ 1 ∧
      Writer.create .empty "j" pairedConfig .packed = (.ok pairedDesk.writer, pairedDesk.tree) ∧
      Yields (Writer.LeavesWhileWriting pairedDesk (reorder (.of .persistDirectory) 1 threeEntries))
        threeEntries (MemoryEntries.mk threeEntries) ∧
      (ofSource (MemoryEntries.mk threeEntries) ⟨.of .persistDirectory, 1⟩).disruptInto pairedDesk =
        (.ok summary, d, desk) ∧
      Writer.finish desk = .ok written after ∧
      pairedConfig.startIndex.toNat +
        (performAll Ledger.perform
          (draining (reorder (.of .persistDirectory) 1 threeEntries) ++ [.finish])
          (.start pairedConfig .packed)).2.accepted.length ≤ UInt64.size ∧
      pairedConfig.startSequenceNumber.toNat + threeEntries.length ≤ UInt64.size ∧
      Gives (JournalEntries.next after.tree)
        [(passing 2).stamp 7, (delayed 1).stamp 8, (passing 3).stamp 9] none
        (JournalEntries.ofRecords (.ofSegments
          (segmentsIn after.tree (groupDirectory "j" .defaultGroup)) ⟨.defaultGroup, 0, none⟩)
          .packed) ∧
      summary.entriesWritten.toNat = 3 ∧ summary.stats.pulled.toNat = 3 ∧
      summary.stats.emitted.toNat = 3 ∧ written.entries.toNat = 3 := by
  have created : Writer.create .empty "j" pairedConfig .packed =
      (.ok pairedDesk.writer, pairedDesk.tree) := by decide +kernel
  have yields := MemoryEntries.yields
    (Writer.LeavesWhileWriting pairedDesk (reorder (.of .persistDirectory) 1 threeEntries))
    threeEntries
  -- one evaluation of the whole run tells about the drain and about the finish
  have succeeded : ∀ answer ∈
      (performAll Writer.perform (draining threeDisrupted ++ [.finish]) pairedDesk).1,
      answer.isOk := by
    decide +kernel
  rw [performAll_append] at succeeded
  have numbered : pairedConfig.startIndex.toNat +
      (performAll Ledger.perform
        (draining (reorder (.of .persistDirectory) 1 threeEntries) ++ [.finish])
        (.start pairedConfig .packed)).2.accepted.length ≤ UInt64.size := by
    rw [reorder_threeEntries]
    decide +kernel
  have sequenced : pairedConfig.startSequenceNumber.toNat + threeEntries.length ≤ UInt64.size := by
    decide
  -- the drain succeeds since its run does, and so does the finish
  have disrupts : Yields (Writer.LeavesWhileWriting pairedDesk threeDisrupted) threeDisrupted
      (ofSource (MemoryEntries.mk threeEntries) ⟨.of .persistDirectory, 1⟩) := by
    rw [← reorder_threeEntries]
    exact yields.disruptor ⟨.of .persistDirectory, 1⟩
  obtain ⟨summary, d, drained⟩ := exists_disruptInto disrupts (tallied_ofSource _ _)
    fun answer mem => succeeded answer (List.mem_append_left _ mem)
  obtain ⟨written, after, finished⟩ := exists_finish fun answer mem =>
    succeeded answer (List.mem_append_right _ mem)
  obtain ⟨-, -, gives, wrote, pulled, emitted, counted⟩ := disrupted_round_trip _ threeEntries
    ⟨.of .persistDirectory, 1⟩ (by decide) created yields drained finished numbered sequenced
  have order : reorder (.of .persistDirectory) (1 : UInt64).toNat threeEntries = threeDisrupted :=
    reorder_threeEntries
  rw [order] at gives
  exact ⟨summary, d, _, written, after, by decide, created, yields, drained, finished, numbered,
    sequenced, gives, by rw [wrote]; rfl, by rw [pulled]; rfl, by rw [emitted]; rfl,
    counted.toNat_eq (by decide)⟩

end Disruptor

end RaftJournal
