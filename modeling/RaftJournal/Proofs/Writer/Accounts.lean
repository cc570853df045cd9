import RaftJournal.Proofs.Stream.Batches
import RaftJournal.Proofs.Writer.Entries
import RaftJournal.Proofs.Writer.Readable

/-! # What becomes of accepted entries

A written entry waits in the buffer after its operation has succeeded. Where the buffered entries cannot
be appended as one batch, they are out of the buffer all the same, so they are **`lost`** with the
operation that flushes them, and no later operation reports them.

A ledger keeps account of its entries: what it has after an operation, in its records and in its buffer,
together with what the operation lost, is what it had before and what the operation **`adds`** if it
succeeds (**`Ledger.accounts_perform`**). So it is for a whole run: **`Ledger.account_performAll`**. -/

namespace RaftJournal

/-! ## accepting and losing -/

/-- The entries in the records for the state machine. -/
def Codec.entriesOf (codec : Codec) (records : List LogRecord) : List Entry :=
  (records.filter fun record => record.kind = .stateMachineData).flatMap codec.entriesIn

namespace Operation

/-- The entries that an operation adds if it succeeds. A written entry has the given number, and a
record that is appended as it is may hold a batch as well; its index and its term are nothing to
that. -/
def adds (codec : Codec) (number : UInt64) : Operation → List Entry
  | .writeEntry entry => [entry.stamp number]
  | .appendBatch batch => batch.entries
  | .appendRecord kind payload => codec.entriesOf [⟨0, 0, kind, payload⟩]
  | .flush | .roll | .finish => []

/-- The entries that operations with the given answers have added, where so many entries were written
before. An entry that is refused takes a number as well. -/
def accepted (codec : Codec) (start : UInt64) :
    (before : Nat) → List Operation → List Answer → List Entry
  | before, operation :: operations, answer :: answers =>
    (if answer.isOk then operation.adds codec (tickBy start before) else []) ++
      accepted codec start (if operation.isWrite then before + 1 else before) operations answers
  | _, _, _ => []

/-- The part of an operation that appends what is buffered. A written entry is in the buffer by then,
so that part is the whole operation. -/
def flushing : Operation → Option Operation
  | .writeEntry entry => some (.writeEntry entry)
  | .appendBatch _ | .flush | .finish => some .flush
  | .appendRecord _ _ | .roll => none

end Operation

section Losing

variable {σ : Type} (perform : Operation → EStateM JournalError σ (Option UInt64))
  (buffered : σ → List Entry)

/-- The entries that an operation loses: those buffered before it, if they cannot be appended. -/
def lost (operation : Operation) (s : σ) : List Entry :=
  match operation.flushing with
  | none => []
  | some flushing =>
    match perform flushing s with
    | .ok _ _ => []
    | .error _ _ => buffered s

/-- The entries that operations lose, one after the other. -/
def lostAlong : List Operation → σ → List Entry
  | [], _ => []
  | operation :: rest, s =>
    lost perform buffered operation s ++ lostAlong rest (finalState (perform operation s))

variable {perform buffered} {operation flushing : Operation} {s s' : σ}

/-- An operation that does not flush loses nothing. -/
theorem lost_of_none (h : operation.flushing = none) (s : σ) :
    lost perform buffered operation s = [] := by
  simp [lost, h]

/-- A flush that succeeds loses nothing. -/
theorem lost_of_ok {index? : Option UInt64} (h : operation.flushing = some flushing)
    (done : perform flushing s = .ok index? s') : lost perform buffered operation s = [] := by
  simp [lost, h, done]

/-- A flush that fails loses what was buffered. -/
theorem lost_of_error {e : JournalError} (h : operation.flushing = some flushing)
    (done : perform flushing s = .error e s') :
    lost perform buffered operation s = buffered s := by
  simp [lost, h, done]

end Losing

namespace Codec

variable (codec : Codec)

/-- The entries of some records and of others are those of the first and then those of the others. -/
theorem entriesOf_append (records more : List LogRecord) :
    codec.entriesOf (records ++ more) = codec.entriesOf records ++ codec.entriesOf more := by
  simp [entriesOf]

/-- Only the kind and the payload of a record say which entries it holds. -/
theorem entriesOf_singleton (record : LogRecord) :
    codec.entriesOf [record] = codec.entriesOf [⟨0, 0, record.kind, record.payload⟩] := by
  by_cases machine : record.kind = .stateMachineData <;> simp [entriesOf, entriesIn, machine]

/-- The record of a batch holds the entries of the batch. -/
theorem entriesOf_encode {record : LogRecord} {batch : Batch}
    (machine : record.kind = .stateMachineData) (payload : record.payload = codec.encode batch)
    (framable : record.Framable) : codec.entriesOf [record] = batch.entries := by
  have unpacked := codec.unpack_encode machine payload framable
  rw [unpack, if_pos machine] at unpacked
  cases decoded : codec.decode record.payload with
  | error fault => simp [decoded] at unpacked
  | ok found => simpa [entriesOf, machine, decoded, unpack] using unpacked

end Codec

/-! ## the account of a ledger -/

namespace Ledger

variable {l l' : Ledger}

/-- The entries that a ledger has, in its records or in its buffer. -/
def entries (l : Ledger) : List Entry := l.codec.entriesOf l.records ++ l.pending

/-- The second ledger has some more entries in its records, and goes on like the first. -/
structure Stores (l l' : Ledger) (more : List Entry) : Prop where
  codec : l'.codec = l.codec
  sequence : l'.nextSequenceNumber = l.nextSequenceNumber
  stored : l.codec.entriesOf l'.records = l.codec.entriesOf l.records ++ more

/-- An append stores what its record holds, or changes nothing. -/
theorem append_cases (kind : RecordKind) (payload : Bytes) (l : Ledger) :
    match append kind payload l with
    | .ok _ l' =>
      Stores l l' (l.codec.entriesOf [⟨0, 0, kind, payload⟩]) ∧ l'.pending = l.pending
    | .error _ l' => l' = l := by
  cases done : append kind payload l with
  | ok index l' =>
    obtain ⟨-, rfl⟩ := of_append done
    refine ⟨⟨rfl, rfl, ?_⟩, rfl⟩
    rw [records_accept, Codec.entriesOf_append, Codec.entriesOf_singleton]
    rfl
  | error e l' =>
    simp only [append] at done
    split at done
    · cases done
      rfl
    · split at done
      · cases done
        rfl
      · cases done

/-- The record of a batch stores its entries, or nothing is changed. -/
theorem appendEncoded_cases (batch : Batch) (l : Ledger) :
    match appendEncoded batch l with
    | .ok _ l' => Stores l l' batch.entries ∧ l'.pending = l.pending
    | .error _ l' => l' = l := by
  have cases := append_cases .stateMachineData (l.codec.encode batch) l
  show match append .stateMachineData (l.codec.encode batch) l with
    | .ok _ l' => Stores l l' batch.entries ∧ l'.pending = l.pending
    | .error _ l' => l' = l
  cases done : append .stateMachineData (l.codec.encode batch) l with
  | error e l' => simpa only [done] using cases
  | ok index l' =>
    obtain ⟨framable, -⟩ := of_append done
    have same : l.codec.entriesOf
        [l.record l.accepted.length .stateMachineData (l.codec.encode batch)] = batch.entries :=
      l.codec.entriesOf_encode rfl rfl framable
    rw [Codec.entriesOf_singleton] at same
    simp only [done] at cases ⊢
    exact same ▸ cases

/-- Flushing stores the buffered entries; where they are refused they are out of the buffer, and nothing
else is changed. -/
theorem flush_cases (l : Ledger) :
    match flush l with
    | .ok _ l' => Stores l l' l.pending ∧ l'.pending = []
    | .error _ l' => l' = { l with pending := [] } := by
  cases buffered : l.pending with
  | nil =>
    have idle : flush l = .ok () l := by
      cases l
      cases buffered
      rfl
    rw [idle]
    exact ⟨⟨rfl, rfl, (List.append_nil _).symm⟩, buffered⟩
  | cons entry rest =>
    have begun : flush l =
        (appendEncoded ⟨entry :: rest⟩ >>= fun _ => pure () : LedgerM Unit)
          { l with pending := [] } := by
      cases l
      cases buffered
      rfl
    rw [begun, bind_apply]
    have cases := appendEncoded_cases ⟨entry :: rest⟩ { l with pending := [] }
    cases done : appendEncoded ⟨entry :: rest⟩ { l with pending := [] } with
    | ok index l' =>
      simp only [done] at cases
      obtain ⟨⟨codec, sequence, stored⟩, empty⟩ := cases
      exact ⟨⟨codec, sequence, stored⟩, empty⟩
    | error e l' =>
      simp only [done] at cases
      exact cases

/-- The second ledger has what the first has and what is added, but for what is lost; its next entry has
the given number. -/
structure Balances (l l' : Ledger) (lost added : List Entry) (next : UInt64) : Prop where
  codec : l'.codec = l.codec
  sequence : l'.nextSequenceNumber = next
  entries : (l'.entries ++ lost).Perm (l.entries ++ added)

theorem Balances.refl (l : Ledger) : Balances l l [] [] l.nextSequenceNumber :=
  ⟨rfl, rfl, List.Perm.refl _⟩

/-- What is stored beside the buffer is added. -/
theorem Stores.balances {added : List Entry} (h : Stores l l' added) (kept : l'.pending = l.pending) :
    Balances l l' [] added l.nextSequenceNumber := by
  refine ⟨h.codec, h.sequence, ?_⟩
  have swapped : (added ++ l.pending).Perm (l.pending ++ added) := List.perm_append_comm
  simpa [Ledger.entries, h.codec, h.stored, kept] using
    swapped.append_left (l.codec.entriesOf l.records)

/-- What is stored behind the buffered entries, which leave the buffer, is added. -/
theorem Stores.balances_flushed {added : List Entry} (h : Stores l l' (l.pending ++ added))
    (empty : l'.pending = []) : Balances l l' [] added l.nextSequenceNumber := by
  refine ⟨h.codec, h.sequence, ?_⟩
  simp [Ledger.entries, h.codec, h.stored, empty]

/-- An emptied buffer is lost. -/
theorem balances_emptied (l : Ledger) :
    Balances l { l with pending := [] } l.pending [] l.nextSequenceNumber := by
  refine ⟨rfl, rfl, ?_⟩
  simp [Ledger.entries, records, record]

/-- The ledger with one more entry in its buffer. -/
def buffering (l : Ledger) (entry : Entry) : Ledger :=
  { l with
    pending := l.pending ++ [entry.stamp l.nextSequenceNumber]
    nextSequenceNumber := tick l.nextSequenceNumber }

/-- A buffered entry comes last among the entries, with its number. -/
theorem entries_buffering (l : Ledger) (entry : Entry) :
    (l.buffering entry).entries = l.entries ++ [entry.stamp l.nextSequenceNumber] := by
  simp [Ledger.entries, buffering, records, record]

/-- A written entry stays in the buffer or is stored with those before it; where they are refused, all
of them are out of the buffer. -/
theorem writeEntry_cases (entry : Entry) (l : Ledger) :
    match writeEntry entry l with
    | .ok _ l' =>
      l' = l.buffering entry ∨
        Stores (l.buffering entry) l' (l.buffering entry).pending ∧ l'.pending = []
    | .error _ l' => l' = { l.buffering entry with pending := [] } := by
  have flushed := flush_cases (l.buffering entry)
  have whole : writeEntry entry l =
      (if (l.buffering entry).config.batchLimit ≤ (l.buffering entry).pending.length then flush
        else pure () : LedgerM Unit) (l.buffering entry) := rfl
  rw [whole]
  by_cases full : (l.buffering entry).config.batchLimit ≤ (l.buffering entry).pending.length
  · rw [if_pos full]
    cases done : flush (l.buffering entry) with
    | ok u l' =>
      simp only [done] at flushed
      exact .inr flushed
    | error e l' =>
      simp only [done] at flushed
      exact flushed
  · rw [if_neg full]
    exact .inl rfl

/-! ## one operation -/

/-- An operation keeps the account when it balances what it adds and what it loses. -/
def Accounts (operation : Operation) (l : Ledger) : Prop :=
  Balances l (finalState (perform operation l)) (lost perform (·.pending) operation l)
    (if (answerOf (perform operation l)).isOk then operation.adds l.codec l.nextSequenceNumber
      else [])
    (if operation.isWrite then tick l.nextSequenceNumber else l.nextSequenceNumber)

theorem accounts_of_ok {operation : Operation} {index? : Option UInt64}
    (done : perform operation l = .ok index? l')
    (balances : Balances l l' (lost perform (·.pending) operation l)
      (operation.adds l.codec l.nextSequenceNumber)
      (if operation.isWrite then tick l.nextSequenceNumber else l.nextSequenceNumber)) :
    Accounts operation l := by
  rw [Accounts, done]
  exact balances

theorem accounts_of_error {operation : Operation} {e : JournalError}
    (done : perform operation l = .error e l')
    (balances : Balances l l' (lost perform (·.pending) operation l) []
      (if operation.isWrite then tick l.nextSequenceNumber else l.nextSequenceNumber)) :
    Accounts operation l := by
  rw [Accounts, done]
  exact balances

/-- Appending a record loses no entry. -/
theorem accounts_appendRecord (kind : RecordKind) (payload : Bytes) (l : Ledger) :
    Accounts (.appendRecord kind payload) l := by
  have appended := append_cases kind payload l
  cases done : append kind payload l with
  | ok index l' =>
    simp only [done] at appended
    refine accounts_of_ok (by rw [perform, map_apply, done]) ?_
    exact appended.1.balances appended.2
  | error e l' =>
    simp only [done] at appended
    refine accounts_of_error (by rw [perform, map_apply, done]) ?_
    exact appended ▸ Balances.refl l

/-- What a refused entry loses are the entries before it; it has been given no acknowledgement. -/
theorem accounts_writeEntry (entry : Entry) (l : Ledger) : Accounts (.writeEntry entry) l := by
  have wrote := writeEntry_cases entry l
  cases done : writeEntry entry l with
  | ok u l' =>
    simp only [done] at wrote
    have whole : perform (.writeEntry entry) l = .ok none l' := by rw [perform, map_apply, done]
    refine accounts_of_ok whole ?_
    rw [lost_of_ok rfl whole]
    rcases wrote with rfl | ⟨stores, empty⟩
    · refine ⟨rfl, rfl, ?_⟩
      rw [entries_buffering, List.append_nil]
      exact List.Perm.refl _
    · refine ⟨stores.codec, stores.sequence, ?_⟩
      have all : Stores (l.buffering entry) l' ((l.buffering entry).pending ++ []) := by
        rwa [List.append_nil]
      simpa [entries_buffering, Operation.adds] using (all.balances_flushed empty).entries
  | error e l' =>
    simp only [done] at wrote
    have whole : perform (.writeEntry entry) l = .error e l' := by rw [perform, map_apply, done]
    refine accounts_of_error whole ?_
    rw [lost_of_error rfl whole, wrote]
    refine ⟨rfl, rfl, ?_⟩
    simp [Ledger.entries, buffering, records, record]

/-- A flush moves the buffered entries into a record or loses them. -/
theorem accounts_flush (l : Ledger) : Accounts .flush l := by
  have flushed := flush_cases l
  cases done : flush l with
  | ok u l' =>
    simp only [done] at flushed
    have whole : perform .flush l = .ok none l' := by rw [perform, map_apply, done]
    refine accounts_of_ok whole ?_
    rw [lost_of_ok rfl whole]
    exact Stores.balances_flushed (by simpa [Operation.adds] using flushed.1) flushed.2
  | error e l' =>
    simp only [done] at flushed
    have whole : perform .flush l = .error e l' := by rw [perform, map_apply, done]
    refine accounts_of_error whole ?_
    rw [lost_of_error rfl whole, flushed]
    exact balances_emptied l

/-- A batch is appended behind the buffered entries, so it is not its own refusal that loses them. -/
theorem accounts_appendBatch (batch : Batch) (l : Ledger) : Accounts (.appendBatch batch) l := by
  have flushed := flush_cases l
  have split : perform (.appendBatch batch) l =
      (some <$> (flush >>= fun _ => appendEncoded batch) : LedgerM (Option UInt64)) l := rfl
  cases done : flush l with
  | error e between =>
    simp only [done] at flushed
    have first : perform .flush l = .error e between := by rw [perform, map_apply, done]
    refine accounts_of_error (by rw [split, map_apply, bind_apply, done]) ?_
    rw [lost_of_error rfl first, flushed]
    exact balances_emptied l
  | ok u between =>
    simp only [done] at flushed
    obtain ⟨stores, empty⟩ := flushed
    have first : perform .flush l = .ok none between := by rw [perform, map_apply, done]
    have appended := appendEncoded_cases batch between
    cases done' : appendEncoded batch between with
    | error e l' =>
      simp only [done'] at appended
      have whole : perform (.appendBatch batch) l = .error e l' := by
        rw [split, map_apply, bind_apply, done]
        simp only [done']
      refine accounts_of_error whole ?_
      rw [lost_of_ok rfl first, appended]
      exact Stores.balances_flushed (by simpa using stores) empty
    | ok index l' =>
      simp only [done'] at appended
      have whole : perform (.appendBatch batch) l = .ok (some index) l' := by
        rw [split, map_apply, bind_apply, done]
        simp only [done']
      refine accounts_of_ok whole ?_
      rw [lost_of_ok rfl first]
      obtain ⟨more, kept⟩ := appended
      refine Stores.balances_flushed ⟨more.codec.trans stores.codec,
        more.sequence.trans stores.sequence, ?_⟩ (kept.trans empty)
      rw [← stores.codec, more.stored, stores.codec, stores.stored, List.append_assoc]
      rfl

/-- Every operation keeps the account. -/
theorem accounts_perform (operation : Operation) (l : Ledger) : Accounts operation l := by
  cases operation with
  | appendRecord kind payload => exact accounts_appendRecord kind payload l
  | writeEntry entry => exact accounts_writeEntry entry l
  | appendBatch batch => exact accounts_appendBatch batch l
  | flush => exact accounts_flush l
  | roll => exact Balances.refl l
  | finish => exact accounts_flush l

/-! ## runs -/

open scoped List in
/-- **A run keeps the account**: what the ledger has in the end and what was lost on the way is what it
had before and what was accepted on the way. -/
theorem account_performAll (operations : List Operation) (l : Ledger) (start : UInt64) (before : Nat)
    (sequence : l.nextSequenceNumber = tickBy start before) :
    ((performAll perform operations l).2.entries ++ lostAlong perform (·.pending) operations l).Perm
      (l.entries ++
        Operation.accepted l.codec start before operations (performAll perform operations l).1) := by
  -- on the operations; the next number is the first one and the writes so far
  induction operations generalizing l before with
  | nil => exact List.Perm.refl _
  | cons operation rest ih =>
    obtain ⟨codec, next, entries⟩ := accounts_perform operation l
    have counted : (finalState (perform operation l)).nextSequenceNumber =
        tickBy start (if operation.isWrite then before + 1 else before) := by
      rw [next, sequence]
      split
      · rw [tickBy_succ]
      · rfl
    have later := ih (finalState (perform operation l)) _ counted
    rw [codec] at later
    simp only [performAll_cons, lostAlong, Operation.accepted]
    rw [← sequence]
    generalize lost perform (·.pending) operation l = lostHere at entries ⊢
    generalize (if (answerOf (perform operation l)).isOk then
      operation.adds l.codec l.nextSequenceNumber else []) = added at entries ⊢
    generalize finalState (perform operation l) = between at entries later ⊢
    calc (performAll perform rest between).2.entries ++
            (lostHere ++ lostAlong perform (·.pending) rest between)
      _ ~ lostHere ++ ((performAll perform rest between).2.entries ++
            lostAlong perform (·.pending) rest between) := List.perm_append_comm_assoc _ _ _
      _ ~ lostHere ++ (between.entries ++ _) := later.append_left _
      _ ~ between.entries ++ lostHere ++ _ := by
        rw [← List.append_assoc]
        exact List.perm_append_comm.append_right _
      _ ~ l.entries ++ added ++ _ := entries.append_right _
      _ = l.entries ++ (added ++ _) := List.append_assoc _ _ _

/-- The codec of a ledger stays the same. -/
theorem codec_performAll (operations : List Operation) (l : Ledger) :
    (performAll perform operations l).2.codec = l.codec := by
  induction operations generalizing l with
  | nil => rfl
  | cons operation rest ih =>
    rw [performAll_cons]
    exact (ih _).trans (accounts_perform operation l).codec

/-- After a last operation nothing is in the buffer, whether or not it succeeds. -/
theorem pending_finish (l : Ledger) : (finalState (perform .finish l)).pending = [] := by
  have flushed := flush_cases l
  cases done : flush l with
  | ok u l' =>
    rw [perform, map_apply, done]
    simp only [done] at flushed
    exact flushed.2
  | error e l' =>
    rw [perform, map_apply, done]
    simp only [done] at flushed
    exact congrArg (·.pending) flushed

/-- Before the first operation there are no entries. -/
theorem entries_start (config : WriterConfig) (codec : Codec) : (start config codec).entries = [] :=
  rfl

end Ledger

end RaftJournal
