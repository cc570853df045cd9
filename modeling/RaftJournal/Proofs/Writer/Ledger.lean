import RaftJournal.Writer.Basic

/-! # What a writer promises

A **`Ledger`** is a writer without files: it knows which appends have been accepted, which entries wait
in the buffer and what is next, and an append is refused only for its size. The operations of a writer
(**`Operation`**) are operations of a ledger as well, and what a writer leaves in its files is to be
judged by the ledger that went through the same operations.

* **`Ledger.records`** are the records of the accepted appends, numbered from the first index on.
* **`Ledger.rollsAlong`** are the indices that came next when a segment was closed on demand.
* **`Ledger.Grows`**: nothing accepted is ever taken back (**`Ledger.grows_perform`**). -/

namespace RaftJournal

/-! ## counters -/

/-- A counter that does not overflow counts. -/
theorem toNat_tickBy {n : UInt64} {count : Nat} (h : n.toNat + count < UInt64.size) :
    (tickBy n count).toNat = n.toNat + count := by
  rw [tickBy, if_pos h]
  exact UInt64.toNat_ofNat_of_lt' h

/-- No events leave a counter as it is. -/
theorem tickBy_zero (n : UInt64) : tickBy n 0 = n := by
  apply UInt64.toNat_inj.mp
  exact toNat_tickBy n.toNat_lt

/-- One event more is one tick more. -/
theorem tickBy_succ (n : UInt64) (count : Nat) : tickBy n (count + 1) = tick (tickBy n count) := by
  have largest : (0xFFFFFFFFFFFFFFFF : UInt64).toNat = UInt64.size - 1 := rfl
  apply UInt64.toNat_inj.mp
  rw [toNat_tick]
  -- a counter that would overflow stays at the largest number
  by_cases next : n.toNat + (count + 1) < UInt64.size
  · rw [toNat_tickBy next, toNat_tickBy (by omega)]
    omega
  · rw [tickBy, if_neg next, largest]
    by_cases here : n.toNat + count < UInt64.size
    · rw [toNat_tickBy here]
      omega
    · rw [tickBy, if_neg here, largest]
      omega

/-! ## operations -/

/-- An operation of a writer. -/
inductive Operation
  | appendRecord (kind : RecordKind) (payload : Bytes)
  | writeEntry (entry : Entry)
  | appendBatch (batch : Batch)
  | flush
  | roll
  | finish

/-- Whether an operation closes the open segment, full or not. -/
def Operation.closes : Operation → Bool
  | .roll => true
  | .finish => true
  | _ => false

/-- The index that an operation gives, if it gives one, or its error. -/
abbrev Answer := Except JournalError (Option UInt64)

/-- What an operation of a writer does. -/
def Writer.perform : Operation → WriterM (Option UInt64)
  | .appendRecord kind payload => some <$> appendRecord kind payload
  | .writeEntry entry => (fun _ => none) <$> writeEntry entry
  | .appendBatch batch => some <$> appendBatch batch
  | .flush => (fun _ => none) <$> flush
  | .roll => (fun _ => none) <$> roll
  | .finish => (fun _ => none) <$> finish

/-- Performs operations one after the other, whether or not they succeed: their answers, and the state
afterwards. -/
def performAll {σ : Type} (perform : Operation → EStateM JournalError σ (Option UInt64)) :
    List Operation → σ → List Answer × σ
  | [], s => ([], s)
  | operation :: rest, s =>
    match perform operation s with
    | .ok index? s => (.ok index? :: (performAll perform rest s).1, (performAll perform rest s).2)
    | .error e s => (.error e :: (performAll perform rest s).1, (performAll perform rest s).2)

section Runs

variable {σ : Type} {perform : Operation → EStateM JournalError σ (Option UInt64)}
  {operation : Operation} {s s' : σ}

/-- Behind an operation that succeeds the others go on from what it leaves. -/
theorem performAll_of_ok {index? : Option UInt64} (h : perform operation s = .ok index? s')
    (rest : List Operation) :
    performAll perform (operation :: rest) s =
      (.ok index? :: (performAll perform rest s').1, (performAll perform rest s').2) := by
  rw [performAll, h]

/-- So they do behind one that fails. -/
theorem performAll_of_error {e : JournalError} (h : perform operation s = .error e s')
    (rest : List Operation) :
    performAll perform (operation :: rest) s =
      (.error e :: (performAll perform rest s').1, (performAll perform rest s').2) := by
  rw [performAll, h]

end Runs

/-- Some operations and then others: the later ones go on from the state that the first leave. -/
theorem performAll_append {σ : Type} (perform : Operation → EStateM JournalError σ (Option UInt64))
    (first later : List Operation) (s : σ) :
    performAll perform (first ++ later) s =
      ((performAll perform first s).1 ++ (performAll perform later (performAll perform first s).2).1,
        (performAll perform later (performAll perform first s).2).2) := by
  induction first generalizing s with
  | nil => rfl
  | cons operation first ih =>
    rw [List.cons_append]
    cases done : perform operation s with
    | ok index? s' =>
      rw [performAll_of_ok done, performAll_of_ok done, ih]
      rfl
    | error e s' =>
      rw [performAll_of_error done, performAll_of_error done, ih]
      rfl

/-! ## ledgers -/

/-- A writer without files. -/
structure Ledger where
  config : WriterConfig
  codec : Codec
  /-- The kinds and payloads of the accepted appends. -/
  accepted : List (RecordKind × Bytes)
  /-- The entries stamped and not yet appended. -/
  pending : List Entry
  /-- The sequence number of the next entry. -/
  nextSequenceNumber : UInt64

/-- An operation of a ledger. -/
abbrev LedgerM := EStateM JournalError Ledger

namespace Ledger

/-- A ledger before its first operation. -/
def start (config : WriterConfig) (codec : Codec) : Ledger :=
  ⟨config, codec, [], [], config.startSequenceNumber⟩

/-- The record of an append that comes after so many others. -/
def record (l : Ledger) (before : Nat) (kind : RecordKind) (payload : Bytes) : LogRecord :=
  ⟨tickBy l.config.startIndex before, l.config.term, kind, payload⟩

/-- The records of the accepted appends. -/
def records (l : Ledger) : List LogRecord :=
  l.accepted.mapIdx fun before (kind, payload) => l.record before kind payload

/-- The ledger after an accepted append. -/
def accept (l : Ledger) (kind : RecordKind) (payload : Bytes) : Ledger :=
  { l with accepted := l.accepted ++ [(kind, payload)] }

/-- An accepted append adds one record at the end. -/
theorem records_accept (l : Ledger) (kind : RecordKind) (payload : Bytes) :
    (l.accept kind payload).records = l.records ++ [l.record l.accepted.length kind payload] := by
  rw [records, accept, List.mapIdx_concat]
  rfl

/-- There is one record to each accepted append. -/
theorem length_records (l : Ledger) : l.records.length = l.accepted.length := List.length_mapIdx

/-- Accepts an append unless its record is too long for a segment, or for any frame. -/
def append (kind : RecordKind) (payload : Bytes) : LedgerM UInt64 := fun l =>
  let record := l.record l.accepted.length kind payload
  if ¬ record.Framable then .error (.serialization "record size overflow") l
  else if l.config.segmentSize.toNat - LogRecord.segmentHeaderSize < record.frame.length then
    .error (.entryTooLarge record.frame.length l.config.segmentSize) l
  else .ok record.index (l.accept kind payload)

/-- Appends the record of a batch. -/
def appendEncoded (batch : Batch) : LedgerM UInt64 := do
  append .stateMachineData ((← get).codec.encode batch)

/-- Appends the buffered entries as a batch, if there are any; they leave the buffer first. -/
def flush : LedgerM Unit := do
  match (← get).pending with
  | [] => pure ()
  | pending =>
    modify fun l => { l with pending := [] }
    let _ ← appendEncoded ⟨pending⟩

/-- Appends a batch after the buffered entries. -/
def appendBatch (batch : Batch) : LedgerM UInt64 := do
  flush
  appendEncoded batch

/-- Stamps an entry and buffers it. -/
def buffer (entry : Entry) : LedgerM Unit :=
  modify fun l =>
    { l with
      pending := l.pending ++ [entry.stamp l.nextSequenceNumber]
      nextSequenceNumber := tick l.nextSequenceNumber }

/-- Flushes a full buffer. -/
def flushIfFull : LedgerM Unit := do
  let l ← get
  if l.config.batchLimit ≤ l.pending.length then flush

/-- Writes an entry: a full buffer is flushed. -/
def writeEntry (entry : Entry) : LedgerM Unit := do
  buffer entry
  flushIfFull

/-- What an operation does to a ledger: one that is only about files does nothing. -/
def perform : Operation → LedgerM (Option UInt64)
  | .appendRecord kind payload => some <$> append kind payload
  | .writeEntry entry => (fun _ => none) <$> writeEntry entry
  | .appendBatch batch => some <$> appendBatch batch
  | .flush => (fun _ => none) <$> flush
  | .roll => pure none
  | .finish => (fun _ => none) <$> flush

end Ledger

/-! ## growing -/

section Actions

variable {ε σ α β : Type}

/-- The state that an action leaves, whether or not it succeeds. -/
def finalState : EStateM.Result ε σ α → σ
  | .ok _ s => s
  | .error _ s => s

/-- An action after another one goes on where that one left off, unless it failed. -/
theorem bind_apply (x : EStateM ε σ α) (f : α → EStateM ε σ β) (s : σ) :
    (x >>= f) s =
      match x s with
      | .ok a s => f a s
      | .error e s => .error e s := rfl

/-- An action whose result is mapped leaves the same state. -/
theorem map_apply (f : α → β) (x : EStateM ε σ α) (s : σ) :
    (f <$> x) s =
      match x s with
      | .ok a s => .ok (f a) s
      | .error e s => .error e s := rfl

/-- Mapping the result of an action is nothing to the state that it leaves. -/
theorem finalState_map (f : α → β) (x : EStateM ε σ α) (s : σ) :
    finalState ((f <$> x) s) = finalState (x s) := by
  rw [map_apply]
  cases x s <;> rfl

/-- So is leaving it out. -/
theorem finalState_bind_pure (x : EStateM ε σ α) (b : β) (s : σ) :
    finalState ((x >>= fun _ => pure b) s) = finalState (x s) := by
  rw [bind_apply]
  cases x s <;> rfl

end Actions

/-- What an operation answers. -/
def answerOf {σ : Type} : EStateM.Result JournalError σ (Option UInt64) → Answer
  | .ok index? _ => .ok index?
  | .error e _ => .error e

/-- Whether or not the first operation succeeds, the others go on from what it leaves. -/
theorem performAll_cons {σ : Type} (perform : Operation → EStateM JournalError σ (Option UInt64))
    (operation : Operation) (rest : List Operation) (s : σ) :
    performAll perform (operation :: rest) s =
      (answerOf (perform operation s) ::
          (performAll perform rest (finalState (perform operation s))).1,
        (performAll perform rest (finalState (perform operation s))).2) := by
  cases done : perform operation s with
  | ok index? s' => rw [performAll_of_ok done]; rfl
  | error e s' => rw [performAll_of_error done]; rfl

namespace Ledger

/-- The action takes back nothing that has been accepted, and leaves the configuration alone. -/
def Grows {α : Type} (x : LedgerM α) : Prop :=
  ∀ l, (finalState (x l)).config = l.config ∧ l.accepted <+: (finalState (x l)).accepted

variable {α β : Type} {x : LedgerM α}

theorem grows_pure (a : α) : Grows (pure a) := fun _ => ⟨rfl, List.prefix_refl _⟩

/-- What grows and then grows further has grown. -/
theorem Grows.bind {f : α → LedgerM β} (hx : Grows x) (hf : ∀ a, Grows (f a)) :
    Grows (x >>= f) := by
  intro l
  have first := hx l
  rw [bind_apply]
  cases h : x l with
  | error e l' =>
    rw [h] at first
    exact first
  | ok a l' =>
    rw [h] at first
    exact ⟨(hf a l').1.trans first.1, first.2.trans (hf a l').2⟩

theorem Grows.map (hx : Grows x) (f : α → β) : Grows (f <$> x) := by
  rw [map_eq_pure_bind]
  exact hx.bind fun a => grows_pure (f a)

theorem grows_get : Grows get := fun _ => ⟨rfl, List.prefix_refl _⟩

/-- An append is accepted or changes nothing. -/
theorem grows_append (kind : RecordKind) (payload : Bytes) : Grows (append kind payload) := by
  intro l
  rw [append]
  split
  · exact ⟨rfl, List.prefix_refl _⟩
  · split
    · exact ⟨rfl, List.prefix_refl _⟩
    · exact ⟨rfl, List.prefix_append _ _⟩

theorem grows_appendEncoded (batch : Batch) : Grows (appendEncoded batch) :=
  grows_get.bind fun _ => grows_append _ _

/-- A flush may empty the buffer, but takes no accepted append back. -/
theorem grows_flush : Grows flush := by
  refine grows_get.bind fun l => ?_
  cases l.pending with
  | nil => exact grows_pure ()
  | cons entry rest =>
    have cleared : Grows (modify fun l : Ledger => { l with pending := [] }) :=
      fun _ => ⟨rfl, List.prefix_refl _⟩
    exact cleared.bind fun _ => (grows_appendEncoded _).bind fun _ => grows_pure ()

/-- An empty buffer is not flushed. -/
theorem flush_of_nil {l : Ledger} (empty : l.pending = []) : flush l = .ok () l := by
  cases l
  cases empty
  rfl

/-- Entries that are flushed are out of the buffer before they are appended. -/
theorem finalState_flush {l : Ledger} {entry : Entry} {rest : List Entry}
    (filled : l.pending = entry :: rest) :
    finalState (flush l) = finalState (appendEncoded ⟨entry :: rest⟩ { l with pending := [] }) := by
  have begun : flush l = ((appendEncoded ⟨entry :: rest⟩ >>= fun _ => pure ()) : LedgerM Unit)
      { l with pending := [] } := by
    cases l
    cases filled
    rfl
  rw [begun, finalState_bind_pure]

theorem grows_appendBatch (batch : Batch) : Grows (appendBatch batch) :=
  grows_flush.bind fun _ => grows_appendEncoded batch

theorem grows_flushIfFull : Grows flushIfFull := by
  refine grows_get.bind fun l => ?_
  by_cases full : l.config.batchLimit ≤ l.pending.length
  · rw [if_pos full]
    exact grows_flush
  · rw [if_neg full]
    exact grows_pure ()

theorem grows_writeEntry (entry : Entry) : Grows (writeEntry entry) := by
  have buffered : Grows (buffer entry) := fun _ => ⟨rfl, List.prefix_refl _⟩
  exact buffered.bind fun _ => grows_flushIfFull

/-- No operation takes back what has been accepted. -/
theorem grows_perform (operation : Operation) : Grows (perform operation) := by
  cases operation with
  | appendRecord kind payload => exact (grows_append kind payload).map _
  | writeEntry entry => exact (grows_writeEntry entry).map _
  | appendBatch batch => exact (grows_appendBatch batch).map _
  | flush => exact grows_flush.map _
  | roll => exact grows_pure none
  | finish => exact grows_flush.map _

/-- No run takes back what has been accepted, or changes the configuration. -/
theorem grows_performAll (operations : List Operation) (l : Ledger) :
    (performAll perform operations l).2.config = l.config ∧
      l.accepted <+: (performAll perform operations l).2.accepted := by
  -- on the operations; a failed one takes nothing back either
  induction operations generalizing l with
  | nil => exact ⟨rfl, List.prefix_refl _⟩
  | cons operation rest ih =>
    have first := grows_perform operation l
    cases result : perform operation l with
    | ok index? next =>
      rw [result] at first
      rw [performAll_of_ok result]
      exact ⟨(ih next).1.trans first.1, first.2.trans (ih next).2⟩
    | error e next =>
      rw [result] at first
      rw [performAll_of_error result]
      exact ⟨(ih next).1.trans first.1, first.2.trans (ih next).2⟩

/-! ## closing on demand -/

/-- The index of the next record, also when there are no more. -/
def nextIndex (l : Ledger) : Nat := l.config.startIndex.toNat + l.accepted.length

/-- The index that comes next when an operation that succeeds has closed the open segment. -/
def rollsOf (operation : Operation) (l : Ledger) : List Nat :=
  match perform operation l with
  | .ok _ after => if operation.closes then [after.nextIndex] else []
  | .error _ _ => []

/-- The indices that come next whenever an operation has closed the open segment. -/
def rollsAlong : List Operation → Ledger → List Nat
  | [], _ => []
  | operation :: rest, l =>
    l.rollsOf operation ++ rollsAlong rest (finalState (perform operation l))

/-! ## indices -/

/-- The indices suffice for the accepted appends. -/
def Numbered (l : Ledger) : Prop :=
  l.config.startIndex.toNat + l.accepted.length ≤ UInt64.size

/-- A run does not change the first index, so what has been accepted decides. -/
theorem numbered_performAll_iff {operations : List Operation} {l : Ledger} :
    (performAll perform operations l).2.Numbered ↔
      l.config.startIndex.toNat + (performAll perform operations l).2.accepted.length ≤
        UInt64.size := by
  rw [Numbered, (grows_performAll operations l).1]

/-- The records of a ledger have the indices from the first on. -/
theorem toNat_index_of_mem {l : Ledger} {record : LogRecord} (h : l.Numbered)
    (mem : record ∈ l.records) :
    record.index.toNat < l.config.startIndex.toNat + l.accepted.length := by
  obtain ⟨i, inside, rfl⟩ := List.mem_mapIdx.mp mem
  rw [Numbered] at h
  show (tickBy l.config.startIndex i).toNat < _
  rw [toNat_tickBy (by omega)]
  omega

/-- If the indices suffice for what is accepted later, they suffice for what is accepted before. -/
theorem Numbered.of_prefix {l l' : Ledger} (h : l'.Numbered) (config : l'.config = l.config)
    (grown : l.accepted <+: l'.accepted) : l.Numbered := by
  have := grown.length_le
  rw [Numbered, config] at h
  rw [Numbered]
  omega

/-- If the indices suffice for what has been accepted in the end, they sufficed before. -/
theorem Grows.numbered (hx : Grows x) {l : Ledger} (after : (finalState (x l)).Numbered) :
    l.Numbered :=
  after.of_prefix (hx l).1 (hx l).2

/-- If the indices suffice for a whole run, they suffice at its start. -/
theorem numbered_of_performAll {operations : List Operation} {l : Ledger}
    (after : (performAll perform operations l).2.Numbered) : l.Numbered :=
  after.of_prefix (grows_performAll operations l).1 (grows_performAll operations l).2

end Ledger

end RaftJournal
