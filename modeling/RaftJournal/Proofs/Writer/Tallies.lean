import RaftJournal.Proofs.Counters
import RaftJournal.Proofs.Writer.Entries
import RaftJournal.Proofs.Writer.Placing

/-! # What a writer counts

A writer counts the entries of the batches that it has appended; entries in its buffer are not yet
counted. What is done to the files and to the indices **`Keeps`** the counter and the buffer as they are,
so a written entry is counted once, when its batch is appended. A writer is **`Tallied`** with the entries
that it has been given, those counted and those in the buffer, and one more is written at a time
(**`Tallied.writeEntry`**). -/

namespace RaftJournal

namespace Writer

/-! ## what is kept -/

section Keeps

variable {α β γ : Type} {f : Writer → γ}

/-- The action leaves something about the writer as it was, whether or not it succeeds. -/
def Keeps (f : Writer → γ) (x : WriterM α) : Prop :=
  ∀ desk, f (finalState (x desk)).writer = f desk.writer

theorem keeps_pure (a : α) : Keeps f (pure a) := fun _ => rfl

theorem keeps_throw (e : JournalError) : Keeps f (throw e : WriterM α) := fun _ => rfl

theorem keeps_get : Keeps f (get : WriterM Desk) := fun _ => rfl

theorem keeps_modify {g : Desk → Desk} (h : ∀ desk, f (g desk).writer = f desk.writer) :
    Keeps f (modify g) := h

/-- Actions one after the other keep what each of them keeps. -/
theorem Keeps.bind {x : WriterM α} {k : α → WriterM β} (hx : Keeps f x) (hk : ∀ a, Keeps f (k a)) :
    Keeps f (x >>= k) := by
  intro desk
  have first := hx desk
  rw [bind_apply]
  cases done : x desk with
  | error e after =>
    rw [done] at first
    exact first
  | ok a after =>
    rw [done] at first
    exact (hk a after).trans first

/-- An access to the files keeps everything of the writer. -/
theorem keeps_onFiles (path : String) (act : FileTree → Except FileFault FileTree) :
    Keeps f (onFiles path act) := by
  refine keeps_get.bind fun desk => ?_
  cases act desk.tree with
  | ok tree => exact keeps_modify fun _ => rfl
  | error fault => exact keeps_throw _

/-! ## files -/

/-- Making the file of a segment is nothing to the writer. -/
theorem keeps_openSegment (first : LogRecord) : Keeps f (openSegment first) := by
  refine keeps_get.bind fun desk => keeps_get.bind fun _ => ?_
  simp only
  split
  · exact keeps_throw _
  · refine Keeps.bind (keeps_modify fun _ => rfl) fun _ => ?_
    split
    · exact (keeps_throw _).bind fun _ => keeps_pure _
    · exact keeps_pure _

variable (others : ∀ (w : Writer) current, f { w with current } = f w)

include others

/-- Placing a record is a matter of the open segment only. -/
theorem keeps_place (record : LogRecord) : Keeps f (place record) := by
  have placed (segment : OpenSegment) : Keeps f (modify fun desk =>
      { writer := { desk.writer with current := some segment }
        tree := desk.tree.store segment.handle segment.content }) :=
    keeps_modify fun desk => others desk.writer _
  refine keeps_get.bind fun desk => ?_
  simp only
  split
  · exact (keeps_pure _).bind fun _ => placed _
  · exact (keeps_openSegment record).bind fun _ => placed _

variable (open_ : ∀ (w : Writer) segments,
  f { w with summary := { w.summary with segments } } = f w)

include open_

/-- Closing a segment is one of the open segment and of the number of segments. -/
theorem keeps_roll : Keeps f roll := by
  refine keeps_get.bind fun desk => ?_
  cases desk.writer.current with
  | none => exact keeps_pure ()
  | some segment =>
    have emptied : Keeps f (setCurrent none) := keeps_modify fun desk => others desk.writer _
    refine emptied.bind fun _ => (keeps_onFiles _ _).bind fun _ => keeps_get.bind fun _ => ?_
    exact (keeps_onFiles _ _).bind fun _ => keeps_modify fun desk => open_ desk.writer _

/-- Closing the open segment only if it is full keeps what closing it keeps. -/
theorem keeps_rollIfFull (size : Nat) : Keeps f (rollIfFull size) := by
  refine keeps_get.bind fun desk => ?_
  cases desk.writer.current with
  | none => exact keeps_pure ()
  | some segment =>
    simp only
    split
    · exact keeps_roll others open_
    · exact keeps_pure ()

variable (counted : ∀ (w : Writer) nextIndex records lastIndex,
  f { w with nextIndex, summary := { w.summary with records, lastIndex } } = f w)

include counted

/-- An append is besides that a matter of the indices and of the number of records. -/
theorem keeps_append (kind : RecordKind) (payload : Bytes) : Keeps f (appendRecord kind payload) := by
  intro desk
  rw [appendRecord_apply]
  simp only
  split
  · rfl
  · split
    · rfl
    · have placed : Keeps f (do
          rollIfFull (desk.writer.record kind payload).frame.length
          place (desk.writer.record kind payload)
          count (desk.writer.record kind payload)
          pure (desk.writer.record kind payload).index) :=
        (keeps_rollIfFull others open_ _).bind fun _ => (keeps_place others _).bind fun _ =>
          Keeps.bind (keeps_modify fun desk => counted desk.writer _ _ _) fun _ => keeps_pure _
      exact placed desk

end Keeps

/-! ## files and indices -/

/-- The counter of the entries, and the buffer. -/
def entriesAndPending (w : Writer) : UInt64 × List Entry := (w.summary.entries, w.pending)

/-- An append by itself is no matter of entries. -/
theorem keeps_appendRecord (kind : RecordKind) (payload : Bytes) :
    Keeps entriesAndPending (appendRecord kind payload) :=
  keeps_append (fun _ _ => rfl) (fun _ _ => rfl) (fun _ _ _ _ => rfl) kind payload

/-! ## entries -/

/-- The writer has been given so many entries, which have been counted or are in the buffer. -/
def Tallied (w : Writer) (accepted : Nat) : Prop :=
  ∃ stored, Counted w.summary.entries stored ∧ stored + w.pending.length = accepted

variable {desk after : Desk} {accepted : Nat}

/-- An appended batch is counted, and the buffer is left alone. -/
theorem Tallied.appendEncoded (h : desk.writer.Tallied accepted) {batch : Batch} {index : UInt64}
    (done : appendEncoded batch desk = .ok index after) :
    after.writer.Tallied (accepted + batch.entries.length) ∧
      after.writer.pending = desk.writer.pending := by
  obtain ⟨_, _, got, rest⟩ := of_bind_ok done
  cases got
  obtain ⟨_, between, appended, rest⟩ := of_bind_ok rest
  cases rest
  have kept := keeps_appendRecord .stateMachineData (desk.writer.codec.encode batch) desk
  rw [appended] at kept
  obtain ⟨entries, pending⟩ : between.writer.summary.entries = desk.writer.summary.entries ∧
      between.writer.pending = desk.writer.pending := Prod.mk.inj kept
  obtain ⟨stored, counted, total⟩ := h
  refine ⟨⟨stored + batch.entries.length, ?_, ?_⟩, pending⟩
  · rw [← entries] at counted
    exact counted.tickBy batch.entries.length
  · show stored + batch.entries.length + between.writer.pending.length = _
    rw [pending]
    omega

/-- Flushing counts the entries in the buffer. -/
theorem Tallied.flush (h : desk.writer.Tallied accepted) {u : Unit}
    (done : flush desk = .ok u after) :
    after.writer.Tallied accepted ∧ after.writer.pending = [] := by
  obtain ⟨_, _, got, rest⟩ := of_bind_ok done
  cases got
  cases buffered : desk.writer.pending with
  | nil =>
    rw [buffered] at rest
    cases rest
    exact ⟨h, buffered⟩
  | cons entry more =>
    rw [buffered] at rest
    obtain ⟨_, _, emptied, rest⟩ := of_bind_ok rest
    cases emptied
    obtain ⟨index, _, appended, rest⟩ := of_bind_ok rest
    cases rest
    -- the entries are at first given up and then given again, as a batch
    obtain ⟨stored, counted, total⟩ := h
    have before : Tallied { desk.writer with pending := [] } stored := ⟨stored, counted, rfl⟩
    obtain ⟨tallied, empty⟩ := before.appendEncoded appended
    rw [buffered] at total
    exact ⟨total ▸ tallied, empty⟩

/-- A desk whose writer has one more entry in its buffer. -/
def buffering (desk : Desk) (entry : Entry) : Desk :=
  { desk with
    writer := { desk.writer with
      pending := desk.writer.pending ++ [entry.stamp desk.writer.nextSequenceNumber]
      nextSequenceNumber := tick desk.writer.nextSequenceNumber } }

/-- An entry is buffered, and a buffer that is full by then is flushed. -/
theorem writeEntry_apply (entry : Entry) (desk : Desk) :
    writeEntry entry desk =
      if (buffering desk entry).writer.config.batchLimit ≤
          (buffering desk entry).writer.pending.length then
        Writer.flush (buffering desk entry)
      else .ok () (buffering desk entry) := by
  have whole : writeEntry entry desk =
      (if (buffering desk entry).writer.config.batchLimit ≤
          (buffering desk entry).writer.pending.length then Writer.flush
        else pure () : WriterM Unit) (buffering desk entry) := rfl
  rw [whole]
  split <;> rfl

/-- A written entry is one more. -/
theorem Tallied.writeEntry (h : desk.writer.Tallied accepted) {entry : Entry} {u : Unit}
    (done : writeEntry entry desk = .ok u after) : after.writer.Tallied (accepted + 1) := by
  have more : (buffering desk entry).writer.Tallied (accepted + 1) := by
    obtain ⟨stored, counted, total⟩ := h
    refine ⟨stored, counted, ?_⟩
    rw [buffering, List.length_append, List.length_singleton]
    omega
  rw [writeEntry_apply] at done
  split at done
  · exact (more.flush done).1
  · cases done
    exact more

/-- What leaves the counter and the buffer alone changes nothing. -/
theorem Tallied.of_kept (h : desk.writer.Tallied accepted)
    (same : after.writer.entriesAndPending = desk.writer.entriesAndPending) :
    after.writer.Tallied accepted := by
  obtain ⟨entries, pending⟩ := Prod.mk.inj same
  rw [Tallied, entries, pending]
  exact h

/-- With nothing in the buffer, all entries have been counted. -/
theorem Tallied.counted (h : desk.writer.Tallied accepted) (empty : desk.writer.pending = []) :
    Counted desk.writer.summary.entries accepted := by
  obtain ⟨stored, counted, total⟩ := h
  rw [empty, List.length_nil, Nat.add_zero] at total
  exact total ▸ counted

/-- The summary of a finished writer shows the entries that it has been given. -/
theorem Tallied.finish (h : desk.writer.Tallied accepted) {summary : WriterSummary}
    (done : finish desk = .ok summary after) :
    after.writer.Tallied accepted ∧ Counted summary.entries accepted := by
  obtain ⟨_, flushed, flushes, rest⟩ := of_bind_ok done
  obtain ⟨_, rolled, rolls, rest⟩ := of_bind_ok rest
  obtain ⟨_, _, got, rest⟩ := of_bind_ok rest
  cases got
  cases rest
  obtain ⟨tallied, empty⟩ := h.flush flushes
  have kept := keeps_roll (f := entriesAndPending) (fun _ _ => rfl) (fun _ _ => rfl) flushed
  rw [rolls] at kept
  have later : after.writer.Tallied accepted := tallied.of_kept kept
  exact ⟨later, later.counted ((congrArg Prod.snd kept).trans empty)⟩

/-! ## runs -/

/-- A successful operation adds the entries given to it. -/
theorem Tallied.perform (h : desk.writer.Tallied accepted) {operation : Operation}
    {index? : Option UInt64} (done : perform operation desk = .ok index? after) (next : Nat) :
    after.writer.Tallied (accepted + (operation.given next).length) := by
  cases operation with
  | appendRecord kind payload =>
    obtain ⟨index, appended, -⟩ := of_map_ok done
    have kept := keeps_appendRecord kind payload desk
    rw [appended] at kept
    exact h.of_kept kept
  | writeEntry entry =>
    obtain ⟨_, wrote, -⟩ := of_map_ok done
    exact h.writeEntry wrote
  | appendBatch batch =>
    obtain ⟨index, appended, -⟩ := of_map_ok done
    obtain ⟨_, between, flushed, rest⟩ := of_bind_ok appended
    exact ((h.flush flushed).1.appendEncoded rest).1
  | flush =>
    obtain ⟨_, flushed, -⟩ := of_map_ok done
    exact (h.flush flushed).1
  | roll =>
    obtain ⟨_, rolled, -⟩ := of_map_ok done
    have kept := keeps_roll (f := entriesAndPending) (fun _ _ => rfl) (fun _ _ => rfl) desk
    rw [rolled] at kept
    exact h.of_kept kept
  | finish =>
    obtain ⟨summary, finished, -⟩ := of_map_ok done
    exact (h.finish finished).1

/-- **A writer counts what has been written**, if all of it succeeds. -/
theorem Tallied.run (operations : List Operation) (h : desk.writer.Tallied accepted) (next : Nat)
    (succeeded : ∀ answer ∈ (performAll Writer.perform operations desk).1, answer.isOk) :
    (performAll Writer.perform operations desk).2.writer.Tallied
      (accepted + (Operation.written next operations).length) := by
  induction operations generalizing desk accepted next with
  | nil => exact h
  | cons operation rest ih =>
    cases done : Writer.perform operation desk with
    | error e after =>
      rw [performAll_of_error done] at succeeded
      exact absurd (succeeded _ List.mem_cons_self) Bool.false_ne_true
    | ok index? after =>
      rw [performAll_of_ok done] at succeeded ⊢
      rw [Operation.written, List.length_append, ← Nat.add_assoc]
      exact ih (h.perform done next) _ fun answer mem =>
        succeeded answer (List.mem_cons_of_mem _ mem)

end Writer

end RaftJournal
