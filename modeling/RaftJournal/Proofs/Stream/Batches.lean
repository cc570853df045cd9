import RaftJournal.Proofs.Stream.Entries
import RaftJournal.Proofs.Stream.Trace

/-! # Entries in terms of batches

What is unpacked from some records is said here without unpacking them one after the other
(**`Codec.unpack_eq`**). A payload is a batch, with its entries (**`Codec.entriesIn`**), or there is
something wrong with it (**`Codec.faultIn`**); of the records for the state machine those before the first
with a fault contribute their entries.

Every record stream, in whatever state, gives some records and then perhaps an error
(**`RecordStream.exists_gives`**), so a source over it can be described by them:
**`JournalEntries.gives_entriesIn`**. -/

namespace RaftJournal

/-! ## payloads -/

namespace Codec

/-- The entries of the batch in a record, if its payload is one. -/
def entriesIn (codec : Codec) (record : LogRecord) : List Entry :=
  match codec.decode record.payload with
  | .ok batch => batch.entries
  | .error _ => []

/-- What is wrong with the payload of a record, if it is no batch. -/
def faultIn (codec : Codec) (record : LogRecord) : Option JournalError :=
  match codec.decode record.payload with
  | .ok _ => none
  | .error fault => some (.deserialization record.index fault.message)

variable {codec : Codec} {record : LogRecord}

@[simp] theorem entriesIn_of_ok {batch : Batch} (h : codec.decode record.payload = .ok batch) :
    codec.entriesIn record = batch.entries := by
  simp [entriesIn, h]

@[simp] theorem faultIn_of_ok {batch : Batch} (h : codec.decode record.payload = .ok batch) :
    codec.faultIn record = none := by
  simp [faultIn, h]

@[simp] theorem faultIn_of_error {fault : Fault} (h : codec.decode record.payload = .error fault) :
    codec.faultIn record = some (.deserialization record.index fault.message) := by
  simp [faultIn, h]

/-- Unpacking gives the entries of the batches before the first payload that is none, and the fault of
that payload, or else the error that comes after the records. -/
theorem unpack_eq (codec : Codec) (fault : Option JournalError) (records : List LogRecord) :
    let machine := records.filter fun record => record.kind = .stateMachineData
    codec.unpack fault records =
      ((machine.takeWhile fun record => (codec.faultIn record).isNone).flatMap codec.entriesIn,
        (machine.findSome? codec.faultIn).or fault) := by
  intro machine
  induction records with
  | nil => rfl
  | cons record rest ih =>
    rw [unpack]
    by_cases kind : record.kind = .stateMachineData
    · have split : machine = record :: rest.filter fun record => record.kind = .stateMachineData := by
        simp [machine, kind]
      rw [if_pos kind, split]
      cases decoded : codec.decode record.payload with
      | error fault => simp [decoded]
      | ok batch => simp [decoded, ih]
    · have passed : machine = rest.filter fun record => record.kind = .stateMachineData := by
        simp [machine, kind]
      rw [if_neg kind, passed]
      exact ih

end Codec

/-! ## streams in any state -/

/-- Whatever its state, a record stream gives some records, then an error, if there is one, and then
nothing more. -/
theorem RecordStream.exists_gives (tree : FileTree) (s : RecordStream) :
    ∃ records fault, Gives (next tree) records fault s := by
  have step (s : RecordStream) (items : List LogRecord) (fault : Option JournalError)
      (due : Due tree s items fault) : Hands (Due tree) (s.next tree) items fault := hands_next due
  by_cases ended : s.done = true
  · refine ⟨[], none, Gives.of_hands (Due tree) step ?_⟩
    rw [Due, if_pos ended]
    exact ⟨rfl, rfl⟩
  · refine ⟨_, _, Gives.of_hands (Due tree) step (?_ : Due tree s
      (s.config.select (s.ahead tree s.unopened)).records
      (s.config.select (s.ahead tree s.unopened)).fault)⟩
    rw [Due, if_neg ended]

/-- **A source of entries in terms of its record stream.** Over any record stream, a source hands out
the entries of the batches, one batch after the other, of those records for the state machine that
come before the first whose payload is no batch. Then it gives one error, that of this payload or, if
there is none, that of the record stream, if there is one; after that there is nothing more. Other
records, and batches without entries, add nothing. -/
theorem JournalEntries.gives_entriesIn (tree : FileTree) (stream : RecordStream) (codec : Codec) :
    ∃ records fault, Gives (RecordStream.next tree) records fault stream ∧
      let machine := records.filter fun record => record.kind = .stateMachineData
      Gives (next tree)
        ((machine.takeWhile fun record => (codec.faultIn record).isNone).flatMap codec.entriesIn)
        ((machine.findSome? codec.faultIn).or fault) (ofRecords stream codec) := by
  obtain ⟨records, fault, gives⟩ := stream.exists_gives tree
  refine ⟨records, fault, gives, ?_⟩
  have entries := gives_unpack codec gives
  rwa [codec.unpack_eq] at entries

end RaftJournal
