import RaftJournal.Proofs.Writer.Accounts

/-! # Entries are kept unless their batch is refused

A writer loses what its ledger loses (**`lostAlong_eq`**), and its records are those of the ledger, so the
account of the ledger is one of the files: **`Writer.accepted_kept_or_lost`**. Entries are lost only
together, when the batch that they would have made is refused, and the operation that meets the refusal
need not be one that wrote any of them: **`Writer.accepted_lost_of_two`**. -/

namespace RaftJournal

/-! ## the losses of a writer -/

section Parts

-- where segments are closed is nothing to the losses, so they may be closed anywhere
variable {site : Site} {desk : Desk} {ledger : Ledger} {operation flushing : Operation}

/-- If the first part of an action is refused, all of it is. -/
theorem Refused.bind {α β : Type} {x : WriterM α} (h : Refused (x desk)) (f : α → WriterM β) :
    Refused ((x >>= f) desk) := by
  obtain ⟨e, after, result, io⟩ := h.exists_eq
  rw [bind_apply, result]
  exact io

/-- If the indices suffice for an action, they suffice for its first part. -/
theorem Ledger.numbered_of_bind {α β : Type} {x : LedgerM α} {f : α → LedgerM β}
    (grows : ∀ a, Ledger.Grows (f a)) (numbered : (finalState ((x >>= f) ledger)).Numbered) :
    (finalState (x ledger)).Numbered := by
  rw [bind_apply] at numbered
  cases first : x ledger with
  | ok a between =>
    rw [first] at numbered
    exact (grows a).numbered numbered
  | error e between =>
    rw [first] at numbered
    exact numbered

/-- An operation is refused with the part that flushes. -/
theorem refused_of_flushing (h : operation.flushing = some flushing)
    (refused : Refused (Writer.perform flushing desk)) : Refused (Writer.perform operation desk) := by
  cases operation with
  | appendRecord kind payload => cases h
  | roll => cases h
  | writeEntry entry =>
    cases h
    exact refused
  | flush =>
    cases h
    exact refused
  | appendBatch batch =>
    cases h
    have split : Writer.perform (.appendBatch batch) =
        Writer.perform .flush >>= fun _ => some <$> Writer.appendEncoded batch := by
      simp [Writer.perform, Writer.appendBatch]
    rw [split]
    exact refused.bind _
  | finish =>
    cases h
    have split : Writer.perform .finish =
        Writer.perform .flush >>= fun _ => (fun _ => none) <$> Writer.roll := by
      simp [Writer.perform, Writer.finish]
    rw [split]
    exact refused.bind _

/-- The indices that suffice for an operation suffice for the part that flushes. -/
theorem numbered_of_flushing (h : operation.flushing = some flushing)
    (numbered : (finalState (Ledger.perform operation ledger)).Numbered) :
    (finalState (Ledger.perform flushing ledger)).Numbered := by
  cases operation with
  | appendRecord kind payload => cases h
  | roll => cases h
  | writeEntry entry =>
    cases h
    exact numbered
  | flush =>
    cases h
    exact numbered
  | appendBatch batch =>
    cases h
    have split : Ledger.perform (.appendBatch batch) =
        Ledger.perform .flush >>= fun _ => some <$> Ledger.appendEncoded batch := by
      simp [Ledger.perform, Ledger.appendBatch]
    rw [split] at numbered
    exact Ledger.numbered_of_bind (fun _ => (Ledger.grows_appendEncoded batch).map _) numbered
  | finish =>
    cases h
    exact numbered

/-- A writer that follows a ledger loses what the ledger loses. -/
theorem lost_eq (h : Follows site (fun _ => True) desk ledger)
    (granted : ¬ Refused (Writer.perform operation desk))
    (numbered : (finalState (Ledger.perform operation ledger)).Numbered) :
    lost Writer.perform (·.writer.pending) operation desk =
      lost Ledger.perform (·.pending) operation ledger := by
  cases part : operation.flushing with
  | none => rw [lost_of_none part, lost_of_none part]
  | some flushing =>
    rcases agrees_perform h flushing (fun _ _ => trivial) (numbered_of_flushing part numbered) with
      refused | same
    · exact absurd (refused_of_flushing part refused) granted
    · cases promised : Ledger.perform flushing ledger with
      | ok index? ledger' =>
        rw [promised] at same
        obtain ⟨after, done, -⟩ := same.exists_ok
        rw [lost_of_ok part promised, lost_of_ok part done]
      | error e ledger' =>
        rw [promised] at same
        obtain ⟨after, done, -⟩ := same.exists_error
        rw [lost_of_error part promised, lost_of_error part done, h.pending]

/-- An operation that is not refused leaves the desk following the ledger. -/
theorem Follows.after (h : Follows site (fun _ => True) desk ledger)
    (granted : ¬ Refused (Writer.perform operation desk))
    (numbered : (finalState (Ledger.perform operation ledger)).Numbered) :
    Follows site (fun _ => True) (finalState (Writer.perform operation desk))
      (finalState (Ledger.perform operation ledger)) :=
  ((agrees_perform h operation (fun _ _ => trivial) numbered).of_granted granted).2

/-- **A run loses what the run of the ledger loses**, if the file system refuses nothing and the indices
suffice. -/
theorem lostAlong_eq (operations : List Operation) (h : Follows site (fun _ => True) desk ledger)
    (granted : ∀ answer ∈ (performAll Writer.perform operations desk).1, ¬ answer.isIo)
    (numbered : (performAll Ledger.perform operations ledger).2.Numbered) :
    lostAlong Writer.perform (·.writer.pending) operations desk =
      lostAlong Ledger.perform (·.pending) operations ledger := by
  induction operations generalizing desk ledger with
  | nil => rfl
  | cons operation rest ih =>
    rw [performAll_cons] at granted numbered
    have here : ¬ Refused (Writer.perform operation desk) := fun refused =>
      granted _ List.mem_cons_self (isIo_answerOf.mpr refused)
    have enough := Ledger.numbered_of_performAll numbered
    rw [lostAlong, lostAlong, lost_eq h here enough, ih (h.after here enough)
      (fun answer mem => granted answer (List.mem_cons_of_mem _ mem)) numbered]

end Parts

namespace Writer

variable {tree made : FileTree} {root : String} {config : WriterConfig} {codec : Codec} {w : Writer}

/-- **Accepted entries are kept, or lost with a batch that is refused.** Take a created writer and any
operations, with a last `finish`, whether or not they succeed, in which the file system refuses nothing
and the indices suffice. Then the entries in the records that the files give, and those that were in the
buffer when it could not be appended, are together the entries that operations have accepted, each as
often as it was accepted. -/
theorem accepted_kept_or_lost (operations : List Operation)
    (created : create tree root config codec = (.ok w, made))
    (granted : ∀ answer ∈ (performAll perform (operations ++ [.finish]) ⟨w, made⟩).1, ¬ answer.isIo)
    (numbered : config.startIndex.toNat +
      (performAll Ledger.perform (operations ++ [.finish]) (.start config codec)).2.accepted.length ≤
        UInt64.size) :
    let run := performAll perform (operations ++ [.finish]) ⟨w, made⟩
    ∃ records,
      Gives (RecordStream.next run.2.tree) records none (.ofSegments
        (segmentsIn run.2.tree (groupDirectory root config.group)) ⟨config.group, 0, none⟩) ∧
      (codec.entriesOf records ++
          lostAlong perform (·.writer.pending) (operations ++ [.finish]) ⟨w, made⟩).Perm
        (Operation.accepted codec config.startSequenceNumber 0 (operations ++ [.finish]) run.1) := by
  intro run
  have enough :
      (performAll Ledger.perform (operations ++ [.finish]) (.start config codec)).2.Numbered :=
    Ledger.numbered_performAll_iff.mpr numbered
  obtain ⟨answers, -, gives⟩ := gives_records _ created granted enough
  refine ⟨_, gives, ?_⟩
  obtain ⟨site, rfl, -, start⟩ := exists_site created fun _ => True
  have account := Ledger.account_performAll (operations ++ [.finish]) (.start config codec)
    config.startSequenceNumber 0 (tickBy_zero _).symm
  -- at first there are no entries, and in the end they are all in the records
  have emptied : (performAll Ledger.perform (operations ++ [.finish])
      (.start config codec)).2.pending = [] := by
    rw [performAll_append, performAll_cons]
    exact Ledger.pending_finish _
  rw [Ledger.entries_start, List.nil_append, Ledger.entries, emptied, List.append_nil,
    Ledger.codec_performAll] at account
  rw [lostAlong_eq _ start granted enough, answers]
  exact account

/-- Segments with room for a batch of one small entry, but not for a batch of two. -/
def scantConfig : WriterConfig := ⟨.defaultGroup, 40, 2, 3, 0, 0⟩

/-- A fresh writer with such segments. -/
def scantDesk : Desk := freshDesk "j" scantConfig .packed

/-- An entry with a small payload. -/
def smallEntry (id : UInt64) : Entry :=
  ⟨none, some ⟨.persistDirectory, (⟨id⟩ : PersistDirectory)⟩⟩

/-- An entry that is flushed by itself, and two that are to be flushed together. -/
def threeWrites : List Operation :=
  [.writeEntry (smallEntry 1), .flush, .writeEntry (smallEntry 2), .writeEntry (smallEntry 3)]

/-- Of two accepted entries one is in the journal; the other is lost with the batch of the entry that was
refused. -/
theorem accepted_kept_or_lost_of_three :
    create .empty "j" scantConfig .packed = (.ok scantDesk.writer, scantDesk.tree) ∧
    (∀ answer ∈ (performAll perform (threeWrites ++ [.finish]) scantDesk).1, ¬ answer.isIo) ∧
    scantConfig.startIndex.toNat +
      (performAll Ledger.perform (threeWrites ++ [.finish])
        (.start scantConfig .packed)).2.accepted.length ≤ UInt64.size ∧
    ∃ records,
      Gives (RecordStream.next (performAll perform (threeWrites ++ [.finish]) scantDesk).2.tree)
        records none (.ofSegments
          (segmentsIn (performAll perform (threeWrites ++ [.finish]) scantDesk).2.tree
            (groupDirectory "j" .defaultGroup)) ⟨.defaultGroup, 0, none⟩) ∧
      (Codec.packed.entriesOf records ++ [(smallEntry 2).stamp 1]).Perm
        [(smallEntry 1).stamp 0, (smallEntry 2).stamp 1] := by
  have created : create .empty "j" scantConfig .packed = (.ok scantDesk.writer, scantDesk.tree) := by
    decide +kernel
  have answers : (performAll perform (threeWrites ++ [.finish]) scantDesk).1 =
      [.ok none, .ok none, .ok none, .error (.entryTooLarge 36 40), .ok none] := by
    decide +kernel
  have granted : ∀ answer ∈ (performAll perform (threeWrites ++ [.finish]) scantDesk).1,
      ¬ answer.isIo := by
    rw [answers]
    decide
  have numbered : scantConfig.startIndex.toNat +
      (performAll Ledger.perform (threeWrites ++ [.finish])
        (.start scantConfig .packed)).2.accepted.length ≤ UInt64.size := by decide +kernel
  have losses : lostAlong perform (·.writer.pending) (threeWrites ++ [.finish]) scantDesk =
      [(smallEntry 2).stamp 1] := by decide +kernel
  have accepted : Operation.accepted .packed scantConfig.startSequenceNumber 0
      (threeWrites ++ [.finish]) (performAll perform (threeWrites ++ [.finish]) scantDesk).1 =
        [(smallEntry 1).stamp 0, (smallEntry 2).stamp 1] := by
    rw [answers]
    rfl
  obtain ⟨records, gives, account⟩ := accepted_kept_or_lost threeWrites created granted numbered
  have account' : (Codec.packed.entriesOf records ++
      lostAlong perform (·.writer.pending) (threeWrites ++ [.finish]) scantDesk).Perm
        (Operation.accepted .packed scantConfig.startSequenceNumber 0 (threeWrites ++ [.finish])
          (performAll perform (threeWrites ++ [.finish]) scantDesk).1) := account
  rw [losses, accepted] at account'
  exact ⟨created, granted, numbered, records, gives, account'⟩

/-- An entry is accepted, a second one is refused with the batch of both, and `finish` succeeds; then the
first one is in no record: there is no segment. -/
theorem accepted_lost_of_two :
    create .empty "j" scantConfig .packed = (.ok scantDesk.writer, scantDesk.tree) ∧
    (performAll perform [.writeEntry (smallEntry 1), .writeEntry (smallEntry 2), .finish]
      scantDesk).1 = [.ok none, .error (.entryTooLarge 36 40), .ok none] ∧
    segmentsIn (performAll perform [.writeEntry (smallEntry 1), .writeEntry (smallEntry 2), .finish]
      scantDesk).2.tree (groupDirectory "j" .defaultGroup) = [] := by
  refine ⟨?_, ?_, ?_⟩ <;> decide +kernel

end Writer

end RaftJournal
