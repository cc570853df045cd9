import RaftJournal.Proofs.Answers
import RaftJournal.Stream.Journal

/-! # What a stream of entries gives

The entries of a journal are those of the batches in its state-machine records, one batch after the
other, up to the first payload that is no batch or the error of the record stream
(**`Codec.unpack`**). Other records, and batches without entries, add nothing.

**`JournalEntries.gives_unpack`**: whatever the record stream gives, the entries are what is unpacked
from it. -/

namespace RaftJournal

/-- The entries of some records, after which an error may come, and the error that comes after the
entries. -/
def Codec.unpack (codec : Codec) (fault : Option JournalError) :
    List LogRecord → List Entry × Option JournalError
  | [] => ([], fault)
  | record :: rest =>
    if record.kind = .stateMachineData then
      match codec.decode record.payload with
      | .error e => ([], some (.deserialization record.index e.message))
      | .ok batch =>
        (batch.entries ++ (codec.unpack fault rest).1, (codec.unpack fault rest).2)
    else codec.unpack fault rest

namespace JournalEntries

variable {tree : FileTree} {s : JournalEntries}

/-- The source has ended and nothing is due, or the rest of its batch and what is unpacked from the
records that its stream still gives is. -/
def Due (tree : FileTree) (s : JournalEntries) (items : List Entry)
    (fault : Option JournalError) : Prop :=
  if s.done then items = [] ∧ fault = none
  else ∃ records end?, Gives (RecordStream.next tree) records end? s.records ∧
    items = s.batch ++ (s.codec.unpack end? records).1 ∧
    fault = (s.codec.unpack end? records).2

/-- A source that has ended is due nothing. -/
theorem due_finish (s : JournalEntries) : Due tree s.finish [] none := by
  show if true = true then _ else _
  rw [if_pos rfl]
  exact ⟨rfl, rfl⟩

/-- A source with entries of a batch left hands out the first of them. -/
theorem next_of_batch {entry : Entry} {rest : List Entry} (running : s.done = false)
    (batch : s.batch = entry :: rest) :
    s.next tree =
      (.ok (some entry), { s with batch := rest, entriesEmitted := tick s.entriesEmitted }) := by
  rw [next, running, if_neg Bool.false_ne_true]
  split
  · rename_i entry' rest' batch'
    rw [batch] at batch'
    cases batch'
    rfl
  · rename_i batch'
    rw [batch] at batch'
    cases batch'

/-- A source without entries of a batch goes on with its record stream. -/
theorem next_of_no_batch (running : s.done = false) (batch : s.batch = []) :
    s.next tree =
      match s.records.next tree with
      | (.error e, records) => (.error e, { s with records }.finish)
      | (.ok none, records) => (.ok none, { s with records }.finish)
      | (.ok (some record), records) =>
        if record.kind = .stateMachineData then
          match s.codec.decode record.payload with
          | .error fault =>
            (.error (.deserialization record.index fault.message), { s with records }.finish)
          | .ok batch =>
            next tree
              { s with
                records, batch := batch.entries, batchesDecoded := tick s.batchesDecoded }
        else next tree { s with records, recordsSkipped := tick s.recordsSkipped } := by
  rw [next, running, if_neg Bool.false_ne_true]
  split
  · rename_i entry' rest' batch'
    rw [batch] at batch'
    cases batch'
  · split
    next e records asked => exact asked ▸ rfl
    next records asked => exact asked ▸ rfl
    next record records asked => exact asked ▸ rfl

/-- A call hands out the first entry of the rest of a batch. -/
theorem hands_batch {records : List LogRecord} {end? : Option JournalError} {entry : Entry}
    {rest : List Entry} (running : s.done = false) (batch : s.batch = entry :: rest)
    (gives : Gives (RecordStream.next tree) records end? s.records) :
    Hands (Due tree) (s.next tree) (s.batch ++ (s.codec.unpack end? records).1)
      (s.codec.unpack end? records).2 := by
  rw [next_of_batch running batch, batch]
  refine ⟨rfl, ?_⟩
  show if s.done = true then _ else _
  rw [running, if_neg Bool.false_ne_true]
  exact ⟨records, end?, gives, rfl, rfl⟩

/-- A call hands out what comes first of the rest of a batch and of what is unpacked after it. -/
theorem hands_unpack {records : List LogRecord} {end? : Option JournalError}
    (running : s.done = false) (gives : Gives (RecordStream.next tree) records end? s.records) :
    Hands (Due tree) (s.next tree) (s.batch ++ (s.codec.unpack end? records).1)
      (s.codec.unpack end? records).2 := by
  -- Records that add nothing are passed over in one call, so the induction is on the records.
  induction records generalizing s with
  | nil =>
    cases batch : s.batch with
    | cons entry rest =>
      rw [← batch]
      exact hands_batch running batch gives
    | nil =>
      rw [next_of_no_batch running batch, List.nil_append, Codec.unpack]
      cases asked : s.records.next tree with
      | mk answer after =>
        cases end? with
        | none =>
          obtain ⟨head, -⟩ := gives_nil_iff.mp gives
          rw [asked] at head
          obtain rfl : answer = .ok none := head
          exact ⟨rfl, due_finish _⟩
        | some e =>
          obtain ⟨head, -⟩ := gives_fault_iff.mp gives
          rw [asked] at head
          obtain rfl : answer = .error e := head
          exact ⟨rfl, due_finish _⟩
  | cons record records ih =>
    cases batch : s.batch with
    | cons entry rest =>
      rw [← batch]
      exact hands_batch running batch gives
    | nil =>
      rw [next_of_no_batch running batch, List.nil_append, Codec.unpack]
      obtain ⟨head, tail⟩ := gives_cons_iff.mp gives
      cases asked : s.records.next tree with
      | mk answer after =>
        rw [asked] at head tail
        obtain rfl : answer = .ok (some record) := head
        simp only
        by_cases machine : record.kind = .stateMachineData
        · rw [if_pos machine, if_pos machine]
          cases decoded : s.codec.decode record.payload with
          | error e => exact ⟨rfl, due_finish _⟩
          | ok found =>
            exact ih (s := { s with
              records := after, batch := found.entries
              batchesDecoded := tick s.batchesDecoded }) running tail
        · rw [if_neg machine, if_neg machine]
          have passed := ih
            (s := { s with records := after, recordsSkipped := tick s.recordsSkipped }) running tail
          simp only [batch, List.nil_append] at passed ⊢
          exact passed

/-- A source can be opened if its records can, and else fails as they do. -/
theorem ofRoot_of_records {root : String} {config : StreamConfig} {codec : Codec} {p : Prop}
    [Decidable p] {e : JournalError} {stream : RecordStream}
    (opened : RecordStream.ofRoot tree root config = if p then .error e else .ok stream) :
    ofRoot tree root config codec = if p then .error e else .ok (ofRecords stream codec) := by
  rw [ofRoot, opened]
  split <;> rfl

/-- A source gives what is unpacked from the records that its stream gives. -/
theorem gives_unpack {stream : RecordStream} {records : List LogRecord}
    {end? : Option JournalError} (codec : Codec)
    (gives : Gives (RecordStream.next tree) records end? stream) :
    Gives (next tree) (codec.unpack end? records).1 (codec.unpack end? records).2
      (ofRecords stream codec) := by
  refine Gives.of_hands (Due tree) ?_ ?_
  · intro s items fault due
    by_cases ended : s.done = true
    · have kept := due
      rw [Due, if_pos ended] at due
      obtain ⟨rfl, rfl⟩ := due
      rw [next, if_pos ended]
      exact ⟨rfl, kept⟩
    · rw [Due, if_neg ended] at due
      obtain ⟨records, end?, gives, rfl, rfl⟩ := due
      exact hands_unpack (by rwa [Bool.not_eq_true] at ended) gives
  · show if false = true then _ else _
    rw [if_neg Bool.false_ne_true]
    exact ⟨records, end?, gives, rfl, rfl⟩

end JournalEntries

end RaftJournal
