import RaftJournal.Proofs.Entry.Wires
import RaftJournal.Proofs.Stream.Entries
import RaftJournal.Proofs.Writer.Ledger

/-! # The entries of a ledger

The entries that a writer has been given are partly in the payloads of its records and partly in its
buffer. A ledger **`Ledger.Carries`** some entries when its records unpack to the first of them and the
buffer is the rest. Flushing moves entries from the buffer into a record and keeps their order
(**`Ledger.Carries.flush`**), so after any successful operations the ledger carries what has been written,
in the order of the calls: **`Ledger.Carries.run`** with **`Operation.written`**. -/

namespace RaftJournal

/-! ## what has been written -/

namespace Operation

/-- An operation that writes one entry. -/
def isWrite : Operation → Bool
  | .writeEntry _ => true
  | _ => false

/-- An operation that is given entries. -/
def hasEntries : Operation → Bool
  | .writeEntry _ | .appendBatch _ => true
  | _ => false

/-- The entries given to an operation: a written one is numbered, those of a batch are as they
were. -/
def given (next : Nat) : Operation → List Entry
  | .writeEntry entry => [entry.stamp (UInt64.ofNat next)]
  | .appendBatch batch => batch.entries
  | _ => []

/-- The entries given to some operations, in the order of the calls; the written ones are numbered
from `next` on. -/
def written (next : Nat) : List Operation → List Entry
  | [] => []
  | operation :: rest =>
    operation.given next ++ written (if operation.isWrite then next + 1 else next) rest

/-- Only the operations that are given entries matter. -/
theorem written_filter (next : Nat) (operations : List Operation) :
    written next (operations.filter hasEntries) = written next operations := by
  induction operations generalizing next with
  | nil => rfl
  | cons operation rest ih =>
    rw [written, ← ih]
    cases operation with
    | writeEntry entry => rw [List.filter_cons_of_pos rfl, written]
    | appendBatch batch => rw [List.filter_cons_of_pos rfl, written]
    | _ =>
      rw [List.filter_cons_of_neg Bool.false_ne_true]
      rfl

end Operation

/-! ## unpacking -/

/-- A record that unpacks adds its entries to those of the records before it. -/
theorem Codec.unpack_concat {codec : Codec} {records : List LogRecord} {stored added : List Entry}
    {record : LogRecord} (before : codec.unpack none records = (stored, none))
    (last : codec.unpack none [record] = (added, none)) :
    codec.unpack none (records ++ [record]) = (stored ++ added, none) := by
  -- on the records before; none of them stops the unpacking
  induction records generalizing stored with
  | nil =>
    obtain ⟨rfl, -⟩ := Prod.mk.inj before
    exact last
  | cons first rest ih =>
    rw [unpack] at before
    rw [List.cons_append, unpack]
    by_cases machine : first.kind = .stateMachineData
    · rw [if_pos machine] at before ⊢
      cases decoded : codec.decode first.payload with
      | error e =>
        rw [decoded] at before
        cases before
      | ok batch =>
        rw [decoded] at before
        obtain ⟨rfl, none⟩ := Prod.mk.inj before
        simp only
        rw [ih (Prod.ext rfl none), List.append_assoc]
    · rw [if_neg machine] at before ⊢
      exact ih before

/-- A record that is not for the state machine holds no entries. -/
theorem Codec.unpack_foreign (codec : Codec) {record : LogRecord}
    (foreign : record.kind ≠ .stateMachineData) : codec.unpack none [record] = ([], none) := by
  rw [unpack, if_neg foreign]
  rfl

/-- The record of a batch holds the entries of the batch. -/
theorem Codec.unpack_encode (codec : Codec) {record : LogRecord} {batch : Batch}
    (machine : record.kind = .stateMachineData) (payload : record.payload = codec.encode batch)
    (framable : record.Framable) : codec.unpack none [record] = (batch.entries, none) := by
  have short : (codec.encode batch).length < UInt64.size := by
    rw [LogRecord.Framable, LogRecord.length, payload] at framable
    have : UInt32.size ≤ UInt64.size := by decide
    omega
  rw [unpack, if_pos machine, payload, codec.decode_encode short]
  exact Prod.ext (List.append_nil _) rfl

/-! ## holding entries -/

/-- What a successful first part and a successful rest are made of. -/
theorem of_bind_ok {ε σ α β : Type} {x : EStateM ε σ α} {f : α → EStateM ε σ β} {b : β} {s s' : σ}
    (h : (x >>= f) s = .ok b s') : ∃ a between, x s = .ok a between ∧ f a between = .ok b s' := by
  rw [bind_apply] at h
  cases first : x s with
  | error e between =>
    rw [first] at h
    cases h
  | ok a between =>
    rw [first] at h
    exact ⟨a, between, rfl, h⟩

/-- Either part may fail. -/
theorem of_bind_error {ε σ α β : Type} {x : EStateM ε σ α} {f : α → EStateM ε σ β} {e : ε} {s s' : σ}
    (h : (x >>= f) s = .error e s') :
    x s = .error e s' ∨ ∃ a between, x s = .ok a between ∧ f a between = .error e s' := by
  rw [bind_apply] at h
  cases first : x s with
  | error e between =>
    rw [first] at h
    cases h
    exact .inl rfl
  | ok a between =>
    rw [first] at h
    exact .inr ⟨a, between, rfl, h⟩

theorem of_map_ok {ε σ α β : Type} {x : EStateM ε σ α} {f : α → β} {b : β} {s s' : σ}
    (h : (f <$> x) s = .ok b s') : ∃ a, x s = .ok a s' ∧ f a = b := by
  rw [map_eq_pure_bind] at h
  obtain ⟨a, between, first, second⟩ := of_bind_ok h
  cases second
  exact ⟨a, first, rfl⟩

namespace Ledger

/-- In the codec, the entries are those in the records, and after them those in the buffer. -/
def Carries (l : Ledger) (codec : Codec) (entries : List Entry) : Prop :=
  l.codec = codec ∧
    ∃ stored, codec.unpack none l.records = (stored, none) ∧ stored ++ l.pending = entries

variable {l l' : Ledger} {codec : Codec} {entries : List Entry}

/-- At first there are no entries. -/
theorem carries_start (config : WriterConfig) (codec : Codec) : (start config codec).Carries codec [] :=
  ⟨rfl, [], rfl, rfl⟩

/-- What an accepted append does. -/
theorem of_append {kind : RecordKind} {payload : Bytes} {index : UInt64}
    (h : append kind payload l = .ok index l') :
    (l.record l.accepted.length kind payload).Framable ∧
      l' = l.accept kind payload := by
  rw [append] at h
  by_cases framable : (l.record l.accepted.length kind payload).Framable
  · rw [if_neg (not_not_intro framable)] at h
    split at h
    · cases h
    · cases h
      exact ⟨framable, rfl⟩
  · rw [if_pos framable] at h
    cases h

/-- A record between the batches is none of them. -/
theorem Carries.append (h : l.Carries codec entries) {kind : RecordKind} {payload : Bytes} {index : UInt64}
    (accepted : append kind payload l = .ok index l') (foreign : kind ≠ .stateMachineData) :
    l'.Carries codec entries ∧ l'.nextSequenceNumber = l.nextSequenceNumber := by
  obtain ⟨-, rfl⟩ := of_append accepted
  obtain ⟨rfl, stored, unpacked, eq⟩ := h
  refine ⟨⟨rfl, stored ++ [], ?_, by rw [List.append_nil]; exact eq⟩, rfl⟩
  rw [records_accept]
  exact Codec.unpack_concat unpacked (l.codec.unpack_foreign foreign)

/-- A batch is appended behind the entries stored before, which must be all there are. -/
theorem Carries.appendEncoded (h : l.Carries codec entries) (flushed : l.pending = []) {batch : Batch}
    {index : UInt64} (accepted : appendEncoded batch l = .ok index l') :
    l'.Carries codec (entries ++ batch.entries) ∧ l'.pending = [] ∧
      l'.nextSequenceNumber = l.nextSequenceNumber := by
  obtain ⟨framable, rfl⟩ := of_append accepted
  obtain ⟨rfl, stored, unpacked, rfl⟩ := h
  refine ⟨⟨rfl, stored ++ batch.entries, ?_, ?_⟩, flushed, rfl⟩
  · rw [records_accept]
    exact Codec.unpack_concat unpacked (l.codec.unpack_encode rfl rfl framable)
  · show (stored ++ batch.entries) ++ l.pending = (stored ++ l.pending) ++ batch.entries
    rw [flushed, List.append_nil, List.append_nil]

/-- Flushing moves the buffered entries behind those stored before. -/
theorem Carries.flush (h : l.Carries codec entries) {u : Unit} (flushed : flush l = .ok u l') :
    l'.Carries codec entries ∧ l'.pending = [] ∧ l'.nextSequenceNumber = l.nextSequenceNumber := by
  -- an empty buffer is left alone
  cases buffered : l.pending with
  | nil =>
    rw [Ledger.flush] at flushed
    obtain ⟨_, _, got, rest⟩ := of_bind_ok flushed
    cases got
    rw [buffered] at rest
    cases rest
    exact ⟨h, buffered, rfl⟩
  | cons entry more =>
    obtain ⟨_, _, got, rest⟩ := of_bind_ok flushed
    cases got
    rw [buffered] at rest
    obtain ⟨_, cleared, emptied, rest⟩ := of_bind_ok rest
    cases emptied
    obtain ⟨index, after, appended, rest⟩ := of_bind_ok rest
    cases rest
    obtain ⟨rfl, stored, unpacked, rfl⟩ := h
    rw [buffered]
    -- while the batch is being appended, the entries stored before are all there are
    have before : Carries { l with pending := [] } l.codec stored :=
      ⟨rfl, stored, unpacked, List.append_nil _⟩
    exact before.appendEncoded rfl appended

theorem Carries.appendBatch (h : l.Carries codec entries) {batch : Batch} {index : UInt64}
    (accepted : appendBatch batch l = .ok index l') :
    l'.Carries codec (entries ++ batch.entries) ∧ l'.nextSequenceNumber = l.nextSequenceNumber := by
  obtain ⟨_, between, flushed, rest⟩ := of_bind_ok accepted
  obtain ⟨carried, empty, sequence⟩ := h.flush flushed
  obtain ⟨carried, -, sequence'⟩ := carried.appendEncoded empty rest
  exact ⟨carried, sequence'.trans sequence⟩

/-- A written entry is the last one, with the next number. -/
theorem Carries.writeEntry (h : l.Carries codec entries) {entry : Entry} {u : Unit}
    (wrote : writeEntry entry l = .ok u l') :
    l'.Carries codec (entries ++ [entry.stamp l.nextSequenceNumber]) ∧
      l'.nextSequenceNumber = tick l.nextSequenceNumber := by
  obtain ⟨_, between, buffered, rest⟩ := of_bind_ok wrote
  cases buffered
  have carried : Carries
      { l with
        pending := l.pending ++ [entry.stamp l.nextSequenceNumber]
        nextSequenceNumber := tick l.nextSequenceNumber }
      codec (entries ++ [entry.stamp l.nextSequenceNumber]) := by
    obtain ⟨rfl, stored, unpacked, rfl⟩ := h
    exact ⟨rfl, stored, unpacked, (List.append_assoc _ _ _).symm⟩
  obtain ⟨_, _, got, rest⟩ := of_bind_ok rest
  cases got
  split at rest
  · obtain ⟨carried, -, sequence⟩ := carried.flush rest
    exact ⟨carried, sequence⟩
  · cases rest
    exact ⟨carried, rfl⟩

/-! ## runs -/

/-- A successful operation adds the entries given to it. -/
theorem Carries.perform (h : l.Carries codec entries) {start : UInt64} {before : Nat}
    (sequence : l.nextSequenceNumber = tickBy start before) {operation : Operation}
    {index? : Option UInt64} (done : perform operation l = .ok index? l')
    (protocol : ∀ kind payload, operation = .appendRecord kind payload → kind ≠ .stateMachineData)
    (enough : operation.isWrite → start.toNat + before < UInt64.size) :
    l'.Carries codec (entries ++ operation.given (start.toNat + before)) ∧
      l'.nextSequenceNumber = tickBy start (if operation.isWrite then before + 1 else before) := by
  have nothing (l : Ledger) (carried : l.Carries codec entries) : l.Carries codec (entries ++ []) := by
    rwa [List.append_nil]
  cases operation with
  | appendRecord kind payload =>
    obtain ⟨index, accepted, -⟩ := of_map_ok done
    obtain ⟨carried, kept⟩ := h.append accepted (protocol kind payload rfl)
    exact ⟨nothing l' carried, kept.trans sequence⟩
  | writeEntry entry =>
    obtain ⟨_, wrote, -⟩ := of_map_ok done
    obtain ⟨carried, next⟩ := h.writeEntry wrote
    have number : l.nextSequenceNumber = UInt64.ofNat (start.toNat + before) := by
      rw [sequence, tickBy, if_pos (enough rfl)]
    rw [number] at carried
    refine ⟨carried, ?_⟩
    rw [next, sequence, ← tickBy_succ]
    rfl
  | appendBatch batch =>
    obtain ⟨index, accepted, -⟩ := of_map_ok done
    obtain ⟨carried, kept⟩ := h.appendBatch accepted
    exact ⟨carried, kept.trans sequence⟩
  | roll =>
    cases done
    exact ⟨nothing l h, sequence⟩
  | flush =>
    obtain ⟨_, flushed, -⟩ := of_map_ok done
    obtain ⟨carried, -, kept⟩ := h.flush flushed
    exact ⟨nothing l' carried, kept.trans sequence⟩
  | finish =>
    obtain ⟨_, flushed, -⟩ := of_map_ok done
    obtain ⟨carried, -, kept⟩ := h.flush flushed
    exact ⟨nothing l' carried, kept.trans sequence⟩

/-- **A ledger carries what has been written**, in the order of the calls, if all of them succeed. -/
theorem Carries.run (operations : List Operation) (h : l.Carries codec entries) (start : UInt64)
    (before : Nat) (sequence : l.nextSequenceNumber = tickBy start before)
    (succeeded : ∀ answer ∈ (performAll Ledger.perform operations l).1, answer.isOk)
    (protocol : ∀ kind payload, .appendRecord kind payload ∈ operations → kind ≠ .stateMachineData)
    (enough : start.toNat + before + operations.countP Operation.isWrite ≤ UInt64.size) :
    (performAll Ledger.perform operations l).2.Carries codec
      (entries ++ Operation.written (start.toNat + before) operations) := by
  -- on the operations; the ledger carries what was written so far and the next number is the first
  -- one and the writes so far
  induction operations generalizing l entries before with
  | nil =>
    rw [Operation.written, List.append_nil]
    exact h
  | cons operation rest ih =>
    rw [List.countP_cons] at enough
    cases done : Ledger.perform operation l with
    | error e l' =>
      rw [performAll_of_error done] at succeeded
      exact absurd (succeeded _ List.mem_cons_self) Bool.false_ne_true
    | ok index? l' =>
      rw [performAll_of_ok done] at succeeded ⊢
      obtain ⟨carried, next⟩ := h.perform sequence done
        (fun kind payload eq => protocol kind payload (eq ▸ List.mem_cons_self))
        (fun write => by rw [if_pos write] at enough; omega)
      have number : start.toNat + (if operation.isWrite then before + 1 else before) =
          if operation.isWrite then start.toNat + before + 1 else start.toNat + before := by
        split <;> omega
      have room : start.toNat + (if operation.isWrite then before + 1 else before) +
          rest.countP Operation.isWrite ≤ UInt64.size := by
        by_cases write : operation.isWrite
        · rw [if_pos write] at enough ⊢
          omega
        · rw [if_neg write] at enough ⊢
          omega
      have later := ih carried _ next (fun answer mem => succeeded answer (List.mem_cons_of_mem _ mem))
        (fun kind payload mem => protocol kind payload (List.mem_cons_of_mem _ mem)) room
      rw [number] at later
      rw [Operation.written, ← List.append_assoc]
      exact later

/-- After a successful last flush all entries are in the records. -/
theorem Carries.finish (h : l.Carries codec entries)
    (succeeded : ∀ answer ∈ (performAll Ledger.perform [.finish] l).1, answer.isOk) :
    codec.unpack none (performAll Ledger.perform [.finish] l).2.records = (entries, none) := by
  cases done : Ledger.perform .finish l with
  | error e l' =>
    rw [performAll_of_error done] at succeeded
    exact absurd (succeeded _ List.mem_cons_self) Bool.false_ne_true
  | ok index? l' =>
    rw [performAll_of_ok done]
    obtain ⟨_, flushed, -⟩ := of_map_ok done
    obtain ⟨⟨-, stored, unpacked, eq⟩, empty, -⟩ := h.flush flushed
    rw [empty, List.append_nil] at eq
    exact eq ▸ unpacked

/-- After successful operations and a successful last flush the records hold what has been written. -/
theorem unpack_finished (operations : List Operation) (config : WriterConfig) (codec : Codec)
    (succeeded : ∀ answer ∈
      (performAll perform (operations ++ [.finish]) (start config codec)).1, answer.isOk)
    (protocol : ∀ kind payload, .appendRecord kind payload ∈ operations → kind ≠ .stateMachineData)
    (enough : config.startSequenceNumber.toNat + operations.countP Operation.isWrite ≤
      UInt64.size) :
    codec.unpack none (performAll perform (operations ++ [.finish]) (start config codec)).2.records =
      (Operation.written config.startSequenceNumber.toNat operations, none) := by
  rw [performAll_append] at succeeded ⊢
  have carried := (carries_start config codec).run operations config.startSequenceNumber 0
    (tickBy_zero _).symm (fun answer mem => succeeded answer (List.mem_append_left _ mem)) protocol
    enough
  exact carried.finish fun answer mem => succeeded answer (List.mem_append_right _ mem)

end Ledger

end RaftJournal
