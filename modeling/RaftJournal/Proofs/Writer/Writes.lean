import RaftJournal.Proofs.Writer.RoundTrip

/-! # Entries written one by one

When all that a writer does is to write entries and to finish, every batch takes at least one of them, so
there are no more records than entries (**`Ledger.load_writes`**). If nothing is refused and 64 bits count
the entries, they come back in order, numbered one by one: **`Writer.gives_written`**. -/

namespace RaftJournal

namespace Writer

/-- The operations that write some entries, one after the other. -/
def writes (entries : List Entry) : List Operation := entries.map .writeEntry

section Writes

variable (entries : List Entry)

/-- Entries that are written one by one are numbered one by one. -/
theorem written_writes (next : Nat) (later : List Operation) :
    Operation.written next (writes entries ++ later) =
      (entries.mapIdx fun before entry => entry.stamp (UInt64.ofNat (next + before))) ++
        Operation.written (next + entries.length) later := by
  induction entries generalizing next with
  | nil => rfl
  | cons entry rest ih =>
    have shift (before : Nat) : next + 1 + before = next + (before + 1) := by omega
    rw [List.mapIdx_cons, List.length_cons, ← shift]
    show entry.stamp _ :: Operation.written (next + 1) (writes rest ++ later) = _
    rw [ih]
    simp only [shift, Nat.add_zero, List.cons_append]

theorem countP_writes : (writes entries).countP Operation.isWrite = entries.length := by
  rw [List.countP_eq_length.mpr, writes, List.length_map]
  rintro _ mem
  obtain ⟨entry, -, rfl⟩ := List.mem_map.mp mem
  rfl

/-- Entries are no records of their own. -/
theorem not_mem_writes (kind : RecordKind) (payload : Bytes) :
    Operation.appendRecord kind payload ∉ writes entries := by
  intro mem
  obtain ⟨entry, -, eq⟩ := List.mem_map.mp mem
  cases eq

/-- Writing entries closes nothing on demand. -/
theorem not_closes_of_mem_writes {entries : List Entry} {operation : Operation}
    (mem : operation ∈ writes entries) : ¬ operation.closes := by
  obtain ⟨entry, -, rfl⟩ := List.mem_map.mp mem
  exact Bool.false_ne_true

end Writes

end Writer

/-! ## the number of records -/

namespace Ledger

/-- The records and the buffered entries, each of which may still become one. -/
def load (l : Ledger) : Nat := l.accepted.length + l.pending.length

theorem load_append (kind : RecordKind) (payload : Bytes) (l : Ledger) :
    (finalState (append kind payload l)).load ≤ l.load + 1 := by
  have accepted : (l.accept kind payload).load = l.load + 1 := by
    show (l.accepted ++ [_]).length + l.pending.length = l.accepted.length + l.pending.length + 1
    rw [List.length_append, List.length_singleton]
    omega
  rw [append]
  split
  · exact Nat.le_succ _
  · split
    · exact Nat.le_succ _
    · exact Nat.le_of_eq accepted

/-- A batch that is flushed takes at least one entry from the buffer. -/
theorem load_flush (l : Ledger) : (finalState (flush l)).load ≤ l.load := by
  cases buffered : l.pending with
  | nil =>
    rw [flush_of_nil buffered]
    exact Nat.le_refl _
  | cons entry more =>
    have appended := load_append .stateMachineData (l.codec.encode ⟨entry :: more⟩)
      { l with pending := [] }
    have room : load { l with pending := [] } + 1 ≤ l.load := by
      show l.accepted.length + 0 + 1 ≤ l.accepted.length + l.pending.length
      rw [buffered, List.length_cons]
      omega
    rw [finalState_flush buffered]
    exact Nat.le_trans appended room

theorem load_writeEntry (entry : Entry) (l : Ledger) :
    (finalState (writeEntry entry l)).load ≤ l.load + 1 := by
  have buffered : (finalState (buffer entry l)).load = l.load + 1 := by
    show l.accepted.length + (l.pending ++ [_]).length = l.accepted.length + l.pending.length + 1
    rw [List.length_append, List.length_singleton]
    omega
  show (finalState (flushIfFull (finalState (buffer entry l)))).load ≤ _
  rw [← buffered, flushIfFull, bind_apply]
  show (finalState ((if _ then flush else pure () : LedgerM Unit) _)).load ≤ _
  split
  · exact load_flush _
  · exact Nat.le_refl _

/-- Writing entries and finishing makes no more records than there are entries. -/
theorem load_writes (entries : List Entry) (l : Ledger) :
    (performAll perform (Writer.writes entries ++ [.finish]) l).2.load ≤ l.load + entries.length := by
  induction entries generalizing l with
  | nil =>
    show (performAll perform [.finish] l).2.load ≤ _
    rw [performAll_cons]
    show (finalState (perform .finish l)).load ≤ _
    rw [perform, finalState_map]
    exact load_flush l
  | cons entry rest ih =>
    show (performAll perform (.writeEntry entry :: (Writer.writes rest ++ [.finish])) l).2.load ≤ _
    rw [performAll_cons, perform, finalState_map]
    have wrote := load_writeEntry entry l
    have more := ih (finalState (writeEntry entry l))
    rw [List.length_cons]
    exact Nat.le_trans more (by omega)

/-- The indices suffice for the records if they suffice for the entries. -/
theorem numbered_writes (entries : List Entry) (config : WriterConfig) (codec : Codec)
    (enough : config.startIndex.toNat + entries.length ≤ UInt64.size) :
    (performAll perform (Writer.writes entries ++ [.finish]) (start config codec)).2.Numbered := by
  have load := load_writes entries (start config codec)
  rw [numbered_performAll_iff]
  generalize performAll perform (Writer.writes entries ++ [.finish]) (start config codec) = run at load ⊢
  replace load : run.2.accepted.length + run.2.pending.length ≤ 0 + entries.length := load
  show config.startIndex.toNat + _ ≤ _
  omega

/-- What entries have been stamped with before is nothing to a ledger, which stamps them itself. -/
theorem performAll_writes_stamped (stamps : Nat → UInt64) (entries : List Entry)
    (later : List Operation) (l : Ledger) :
    performAll perform
        (Writer.writes (entries.mapIdx fun before entry => entry.stamp (stamps before)) ++ later) l =
      performAll perform (Writer.writes entries ++ later) l := by
  induction entries generalizing l stamps with
  | nil => rfl
  | cons entry rest ih =>
    rw [List.mapIdx_cons]
    show performAll perform (.writeEntry (entry.stamp (stamps 0)) ::
      (Writer.writes (rest.mapIdx fun before entry => entry.stamp (stamps (before + 1))) ++ later)) l =
        performAll perform (.writeEntry entry :: (Writer.writes rest ++ later)) l
    have same : perform (.writeEntry (entry.stamp (stamps 0))) l = perform (.writeEntry entry) l := rfl
    rw [performAll_cons, performAll_cons, same, ih fun before => stamps (before + 1)]

end Ledger

/-! ## what comes back -/

namespace Writer

variable {tree made : FileTree} {root : String} {config : WriterConfig} {codec : Codec} {w : Writer}

/-- **Entries that are written one by one come back in order**, numbered one by one. Only the empty path
is not taken as a root. -/
theorem gives_written {entries : List Entry}
    (created : create tree root config codec = (.ok w, made))
    (succeeded : ∀ answer ∈ (performAll perform (writes entries ++ [.finish]) ⟨w, made⟩).1,
      answer.isOk)
    (numbered : config.startIndex.toNat + entries.length ≤ UInt64.size)
    (sequenced : config.startSequenceNumber.toNat + entries.length ≤ UInt64.size)
    (named : root ≠ "") :
    let after := (performAll perform (writes entries ++ [.finish]) ⟨w, made⟩).2.tree
    ∃ source, JournalEntries.ofRoot after root ⟨config.group, 0, none⟩ codec = .ok source ∧
      Gives (JournalEntries.next after)
        (entries.mapIdx fun before entry =>
          entry.stamp (UInt64.ofNat (config.startSequenceNumber.toNat + before))) none source := by
  intro after
  obtain ⟨opened, gives⟩ := gives_finished (writes entries) created succeeded
    (fun kind payload mem => absurd mem (not_mem_writes entries kind payload))
    (Ledger.numbered_writes entries config codec numbered)
    (by rw [countP_writes]; exact sequenced)
  have written := written_writes entries config.startSequenceNumber.toNat []
  rw [List.append_nil, Operation.written, List.append_nil] at written
  rw [written] at gives
  rw [if_neg named] at opened
  exact ⟨_, opened, gives⟩

end Writer

end RaftJournal
