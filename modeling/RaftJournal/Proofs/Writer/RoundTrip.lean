import RaftJournal.Proofs.Writer.Entries
import RaftJournal.Proofs.Writer.Readable

/-! # Entries come back in the order of the calls

What is written to a writer entry by entry and batch by batch is read back from its files in the
order of the calls, whatever the size of the segments and of the batches
(**`Writer.entries_round_trip`**): the records come back as the ledger has them, and the ledger holds
the entries. -/

namespace RaftJournal

namespace Writer

variable {tree made : FileTree} {root : String} {config : WriterConfig} {codec : Codec} {w : Writer}

/-- After successful operations and a successful `finish` of a created writer, a source over the files of
the group gives what has been written, and then nothing. -/
theorem gives_finished (operations : List Operation)
    (created : create tree root config codec = (.ok w, made))
    (succeeded : ∀ answer ∈ (performAll perform (operations ++ [.finish]) ⟨w, made⟩).1, answer.isOk)
    (protocol : ∀ kind payload, .appendRecord kind payload ∈ operations → kind ≠ .stateMachineData)
    (numbered :
      (performAll Ledger.perform (operations ++ [.finish]) (.start config codec)).2.Numbered)
    (sequenced : config.startSequenceNumber.toNat + operations.countP Operation.isWrite ≤
      UInt64.size) :
    let after := (performAll perform (operations ++ [.finish]) ⟨w, made⟩).2.tree
    let source := JournalEntries.ofRecords (.ofSegments
      (segmentsIn after (groupDirectory root config.group)) ⟨config.group, 0, none⟩) codec
    JournalEntries.ofRoot after root ⟨config.group, 0, none⟩ codec =
        (if root = "" then .error (.invalidDirectory "") else .ok source) ∧
      Gives (JournalEntries.next after)
        (Operation.written config.startSequenceNumber.toNat operations) none source := by
  intro after source
  obtain ⟨answers, opened, gives⟩ := gives_records _ created
    (fun answer mem => Answer.not_isIo_of_isOk (succeeded answer mem)) numbered
  -- the ledger succeeds with the writer, so its records are of what has been written
  have unpacked := Ledger.unpack_finished operations config codec (answers ▸ succeeded) protocol
    sequenced
  have entries := JournalEntries.gives_unpack codec gives
  rw [unpacked] at entries
  exact ⟨JournalEntries.ofRoot_of_records opened, entries⟩

/-- **Entries come back in the order of the calls.** Take a created writer and operations that
succeed, followed by a `finish` that does, where no record for the state machine is appended but by
batches, and where the indices and the sequence numbers suffice. Then a source over the files of the
group gives exactly the entries that were written, numbered from the first sequence number on, and
those of the appended batches as they were, and then nothing, without an error. What is given depends
on the operations that have entries and on the first sequence number alone. Only the empty path is not
taken as a root; the segments of the group are read all the same. -/
theorem entries_round_trip (operations : List Operation)
    (created : create tree root config codec = (.ok w, made))
    (succeeded : ∀ answer ∈ (performAll perform (operations ++ [.finish]) ⟨w, made⟩).1, answer.isOk)
    (protocol : ∀ kind payload, .appendRecord kind payload ∈ operations → kind ≠ .stateMachineData)
    (numbered : config.startIndex.toNat +
      (performAll Ledger.perform (operations ++ [.finish]) (.start config codec)).2.accepted.length ≤
        UInt64.size)
    (sequenced : config.startSequenceNumber.toNat + operations.countP Operation.isWrite ≤
      UInt64.size) :
    let after := (performAll perform (operations ++ [.finish]) ⟨w, made⟩).2.tree
    let source := JournalEntries.ofRecords (.ofSegments
      (segmentsIn after (groupDirectory root config.group)) ⟨config.group, 0, none⟩) codec
    JournalEntries.ofRoot after root ⟨config.group, 0, none⟩ codec =
        (if root = "" then .error (.invalidDirectory "") else .ok source) ∧
      Gives (JournalEntries.next after)
        (Operation.written config.startSequenceNumber.toNat
          (operations.filter Operation.hasEntries)) none source := by
  intro after source
  rw [Operation.written_filter]
  exact gives_finished operations created succeeded protocol
    (Ledger.numbered_performAll_iff.mpr numbered) sequenced

/-- Segments with room for a few small batches. -/
def roomyConfig : WriterConfig := ⟨.defaultGroup, 160, 64, 3, 5, 0⟩

/-- A fresh writer with such segments. -/
def roomyDesk (root : String) : Desk := freshDesk root roomyConfig .packed

/-- An entry, a batch with an entry of its own, and an entry without a payload. -/
def threeGifts : List Operation :=
  [.writeEntry ⟨some 9, some ⟨.persistDirectory, (⟨1⟩ : PersistDirectory)⟩⟩,
    .appendBatch ⟨[⟨some 3, none⟩]⟩, .writeEntry ⟨none, none⟩]

/-- Three entries are read in the order of the calls; the written ones are numbered 0 and 1. -/
theorem entries_round_trip_of_three :
    create .empty "j" roomyConfig .packed =
      (.ok (roomyDesk "j").writer, (roomyDesk "j").tree) ∧
    (∀ answer ∈ (performAll perform (threeGifts ++ [.finish]) (roomyDesk "j")).1,
      answer.isOk) ∧
    (∀ kind payload, .appendRecord kind payload ∈ threeGifts → kind ≠ .stateMachineData) ∧
    roomyConfig.startIndex.toNat +
      (performAll Ledger.perform (threeGifts ++ [.finish])
        (.start roomyConfig .packed)).2.accepted.length ≤ UInt64.size ∧
    roomyConfig.startSequenceNumber.toNat + threeGifts.countP Operation.isWrite ≤ UInt64.size ∧
    ∃ source,
      JournalEntries.ofRoot
        (performAll perform (threeGifts ++ [.finish]) (roomyDesk "j")).2.tree "j"
        ⟨.defaultGroup, 0, none⟩ .packed = .ok source ∧
      Gives (JournalEntries.next
          (performAll perform (threeGifts ++ [.finish]) (roomyDesk "j")).2.tree)
        [⟨some 0, some ⟨.persistDirectory, (⟨1⟩ : PersistDirectory)⟩⟩, ⟨some 3, none⟩,
          ⟨some 1, none⟩] none source := by
  have created : create .empty "j" roomyConfig .packed =
      (.ok (roomyDesk "j").writer, (roomyDesk "j").tree) := by decide +kernel
  have succeeded : ∀ answer ∈
      (performAll perform (threeGifts ++ [.finish]) (roomyDesk "j")).1, answer.isOk := by
    decide +kernel
  have protocol : ∀ kind payload, .appendRecord kind payload ∈ threeGifts →
      kind ≠ .stateMachineData := by
    intro kind payload mem
    simp [threeGifts] at mem
  have numbered : roomyConfig.startIndex.toNat +
      (performAll Ledger.perform (threeGifts ++ [.finish])
        (.start roomyConfig .packed)).2.accepted.length ≤ UInt64.size := by decide +kernel
  have sequenced : roomyConfig.startSequenceNumber.toNat + threeGifts.countP Operation.isWrite ≤
      UInt64.size := by decide
  obtain ⟨opened, gives⟩ :=
    entries_round_trip threeGifts created succeeded protocol numbered sequenced
  exact ⟨created, succeeded, protocol, numbered, sequenced, _, opened, gives⟩

/-- Under the empty path an entry is written that a source does not come to: it does not take the
empty path as a root. -/
theorem entries_unreadable_of_empty_path :
    create .empty "" roomyConfig .packed =
      (.ok (roomyDesk "").writer, (roomyDesk "").tree) ∧
    (performAll perform [.writeEntry ⟨none, none⟩, .finish] (roomyDesk "")).1 =
      [.ok none, .ok none] ∧
    JournalEntries.ofRoot
      (performAll perform [.writeEntry ⟨none, none⟩, .finish] (roomyDesk "")).2.tree ""
      ⟨.defaultGroup, 0, none⟩ .packed = .error (.invalidDirectory "") := by
  refine ⟨by decide +kernel, by decide +kernel, ?_⟩
  rfl

end Writer

end RaftJournal
