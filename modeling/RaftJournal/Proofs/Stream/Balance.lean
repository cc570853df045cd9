import RaftJournal.Proofs.Stream.Statistics

/-! # Counters that balance

A source counts the records that it skips, the batches that it decodes and the entries that it hands
out, and its record stream counts the records that it reads and the segments that it opens. Between two
calls nothing is lost between these counters: a record that has been read was skipped or decoded, or it
is the one whose payload ended the source, and an entry of a decoded batch was handed out or stands in
the rest of the last one. **`JournalEntries.Accounted`** says so of the records that have been taken and
the answers that have been given; a call preserves it with the records that it takes and the answer that
it gives (**`JournalEntries.Accounted.next`**).

The records that were read from the stream before a source was made over it are counted with its own:
**`JournalEntries.counters_balance`**. -/

namespace RaftJournal

/-! ## errors of record streams -/

/-- Whether an error says that the payload of a record is no batch. -/
def JournalError.isUndecodable : JournalError → Bool
  | .deserialization _ _ => true
  | _ => false

/-- A segment that cannot be opened is not refused for a payload. -/
theorem LogSegment.isUndecodable_of_reader {tree : FileTree} {segment : LogSegment} {e : JournalError}
    (h : segment.reader tree = .error e) : e.isUndecodable = false := by
  rw [reader] at h
  split at h
  · cases h
    rfl
  split at h
  · split at h <;> cases h
    rfl
  split at h
  · cases h
    rfl
  split at h <;> cases h
  rfl

namespace SegmentReader

/-- A frame that is not one is not refused for its payload. -/
theorem isUndecodable_of_parseFrame {r : SegmentReader} {body : Bytes} {stored : UInt32}
    {e : JournalError} (h : r.parseFrame body stored = .error e) : e.isUndecodable = false := by
  rw [parseFrame] at h
  split at h
  · rw [parseBody] at h
    split at h
    · cases h
      rfl
    split at h
    · cases h
      rfl
    split at h <;> cases h
    rfl
  · cases h
    rfl

/-- A segment hands out records without decoding their payloads. -/
theorem isUndecodable_of_next {r : SegmentReader} {e : JournalError} (h : r.next = .error e) :
    e.isUndecodable = false := by
  rw [next] at h
  simp only at h
  split at h
  · split at h <;> cases h
    rfl
  split at h
  · cases h
  split at h
  · cases h
    rfl
  split at h
  · cases h
    rfl
  generalize parsed : r.parseFrame _ _ = result at h
  cases result with
  | error fault =>
    cases h
    exact isUndecodable_of_parseFrame parsed
  | ok record => cases h

/-- So it does when it passes records by. -/
theorem isUndecodable_of_nextFrom {r : SegmentReader} {start : UInt64} {e : JournalError}
    (h : r.nextFrom start = .error e) : e.isUndecodable = false := by
  fun_induction nextFrom start r with
  | case1 r fault failed =>
    cases h
    exact isUndecodable_of_next failed
  | case2 => cases h
  | case3 r record after found below ih => exact ih h
  | case4 => cases h

end SegmentReader

namespace RecordStream

variable {tree : FileTree} {s : RecordStream} {e : JournalError}

/-- A record that has been read is handed out without an error. -/
theorem ne_error_deliver (record : LogRecord) (reader : SegmentReader) :
    (s.deliver record reader).1 ≠ .error e := by
  rw [deliver]
  split <;> rintro ⟨⟩

/-- Going on to the next segment decodes no payload. -/
theorem isUndecodable_of_openNext {unopened : List LogSegment}
    (h : (s.openNext tree unopened).1 = .error e) : e.isUndecodable = false := by
  fun_induction openNext tree s unopened with
  | case1 => cases h
  | case2 s segment rest fault failed =>
    cases h
    exact LogSegment.isUndecodable_of_reader failed
  | case3 s segment rest reader opened s' fault failed =>
    cases h
    exact SegmentReader.isUndecodable_of_nextFrom failed
  | case4 s segment rest reader opened s' ended ih => exact ih h
  | case5 s segment rest reader opened s' record after found => exact absurd h (ne_error_deliver _ _)

/-- A record stream does not look at payloads. -/
theorem isUndecodable_of_next (h : (s.next tree).1 = .error e) : e.isUndecodable = false := by
  rw [next] at h
  split at h
  · cases h
  split at h
  · exact isUndecodable_of_openNext h
  split at h
  · rename_i failed
    cases h
    exact SegmentReader.isUndecodable_of_nextFrom failed
  · exact isUndecodable_of_openNext h
  · exact absurd h (ne_error_deliver _ _)

end RecordStream

/-- No more segments are opened than there are. -/
theorem StreamConfig.opened_le (c : StreamConfig) (tree : FileTree) (calls : Nat)
    (segments : List LogSegment) : c.opened tree calls segments ≤ segments.length := by
  fun_induction opened c tree calls segments with
  | case1 => exact Nat.zero_le _
  | case2 => exact Nat.zero_le _
  | case3 => exact Nat.zero_le _
  | case4 => simp
  | case5 calls segment rest r reads goesOn ih =>
    rw [List.length_cons]
    omega

/-! ## records by what they hold -/

namespace Codec

/-- The batch of a record, if it is for the state machine and its payload is a batch. -/
def batchIn? (codec : Codec) (record : LogRecord) : Option Batch :=
  if record.kind = .stateMachineData then (codec.decode record.payload).toOption else none

/-- Whether a record is for the state machine and its payload is no batch. -/
def refuses (codec : Codec) (record : LogRecord) : Bool :=
  record.kind = .stateMachineData && (codec.decode record.payload).toOption.isNone

variable {codec : Codec} {record : LogRecord}

/-- A record of another kind holds no batch. -/
theorem batchIn?_of_foreign (foreign : record.kind ≠ .stateMachineData) :
    codec.batchIn? record = none := if_neg foreign

/-- A record of another kind is not refused. -/
theorem refuses_of_foreign (foreign : record.kind ≠ .stateMachineData) :
    codec.refuses record = false := by
  rw [refuses, decide_eq_false foreign, Bool.false_and]

/-- A payload that decodes is the batch of its record. -/
theorem batchIn?_of_ok {batch : Batch} (machine : record.kind = .stateMachineData)
    (decodes : codec.decode record.payload = .ok batch) : codec.batchIn? record = some batch := by
  rw [batchIn?, if_pos machine, decodes]
  rfl

/-- A record whose payload decodes is not refused. -/
theorem refuses_of_ok {batch : Batch} (decodes : codec.decode record.payload = .ok batch) :
    codec.refuses record = false := by
  rw [refuses, decodes]
  exact Bool.and_false _

/-- A record whose payload does not decode holds no batch. -/
theorem batchIn?_of_error {fault : Fault} (refused : codec.decode record.payload = .error fault) :
    codec.batchIn? record = none := by
  rw [batchIn?, refused]
  exact ite_self none

/-- A record of the state machine is refused if its payload does not decode. -/
theorem refuses_of_error {fault : Fault} (machine : record.kind = .stateMachineData)
    (refused : codec.decode record.payload = .error fault) : codec.refuses record = true := by
  rw [refuses, decide_eq_true machine, refused]
  rfl

/-- A record is not for the state machine, or holds a batch, or is refused. -/
theorem length_eq_add (codec : Codec) (records : List LogRecord) :
    records.length = records.countP (fun record => record.kind ≠ .stateMachineData) +
      (records.filterMap codec.batchIn?).length + records.countP codec.refuses := by
  induction records with
  | nil => rfl
  | cons record rest ih =>
    rw [List.countP_cons, List.countP_cons, List.length_cons, ih]
    by_cases machine : record.kind = .stateMachineData
    · cases decodes : codec.decode record.payload with
      | ok batch =>
        rw [List.filterMap_cons_some (batchIn?_of_ok machine decodes), refuses_of_ok decodes]
        simp [machine]
        omega
      | error fault =>
        rw [List.filterMap_cons_none (batchIn?_of_error decodes), refuses_of_error machine decodes]
        simp [machine]
        omega
    · rw [List.filterMap_cons_none (batchIn?_of_foreign machine), refuses_of_foreign machine]
      simp [machine]
      omega

end Codec

/-! ## sources in any state -/

namespace JournalEntries

variable {codec : Codec} {read : List LogRecord} {given : List Pulled} {s : JournalEntries}

/-- The records that a source has taken and the answers that it has given account for its state: its
counters show what became of the records and how many entries have been given; these and the rest of the
last batch are the entries of the batches; an error about a payload has been given for each record that
was refused, and it ended the source, as any answer without an entry did. -/
structure Accounted (codec : Codec) (read : List LogRecord) (given : List Pulled)
    (s : JournalEntries) : Prop where
  stored : s.codec = codec
  counts : s.Counts (read.countP fun record => record.kind ≠ .stateMachineData)
    (read.filterMap codec.batchIn?).length (delivered given).length
  entries : delivered given ++ s.batch = (read.filterMap codec.batchIn?).flatMap Batch.entries
  rest : s.batch <:+ ((read.filterMap codec.batchIn?).getLast?.map Batch.entries).getD []
  refused : (faults given).countP JournalError.isUndecodable = read.countP codec.refuses
  once : (faults given).countP JournalError.isUndecodable ≤ if s.done then 1 else 0
  ended : (∃ answer ∈ given, ∀ entry, answer ≠ .ok (some entry)) → s.done = true

namespace Accounted

/-- A source over a record stream has nothing to account for yet. -/
theorem start (records : RecordStream) (codec : Codec) :
    Accounted codec [] [] (ofRecords records codec) where
  stored := rfl
  counts := ⟨counted_zero, counted_zero, counted_zero⟩
  entries := rfl
  rest := List.suffix_refl []
  refused := rfl
  once := Nat.zero_le _
  ended := by simp

variable (h : Accounted codec read given s)

include h

/-- An entry of the last batch is handed out. -/
theorem emitting {entry : Entry} {rest : List Entry} (batch : s.batch = entry :: rest) :
    Accounted codec read (given ++ [.ok (some entry)])
      { s with batch := rest, entriesEmitted := tick s.entriesEmitted } where
  stored := h.stored
  counts := by
    refine ⟨h.counts.skipped, h.counts.decoded, ?_⟩
    rw [delivered_append, List.length_append]
    exact h.counts.emitted.tick
  entries := by
    rw [delivered_append, ← h.entries, batch, List.append_assoc]
    rfl
  rest := (List.suffix_cons entry rest).trans (batch ▸ h.rest)
  refused := by
    rw [faults_append, ← h.refused]
    exact congrArg _ (List.append_nil _)
  once := by
    rw [faults_append]
    exact (List.append_nil (faults given)).symm ▸ h.once
  ended := by
    rintro ⟨answer, mem, without⟩
    rcases List.mem_append.mp mem with mem | mem
    · exact h.ended ⟨answer, mem, without⟩
    · exact absurd (List.mem_singleton.mp mem) (without entry)

/-- The source ends with an answer without an entry, and with no error about a payload. -/
theorem ending (answer : Pulled) (without : delivered [answer] = [])
    (sound : (faults [answer]).countP JournalError.isUndecodable = 0) (records : RecordStream) :
    Accounted codec read (given ++ [answer]) { s with records, done := true } where
  stored := h.stored
  counts := by
    rw [delivered_append, without, List.append_nil]
    exact ⟨h.counts.skipped, h.counts.decoded, h.counts.emitted⟩
  entries := by
    rw [delivered_append, without, List.append_nil]
    exact h.entries
  rest := h.rest
  refused := by rw [faults_append, List.countP_append, sound, Nat.add_zero, h.refused]
  once := by
    rw [faults_append, List.countP_append, sound, Nat.add_zero]
    have atMost : (if s.done then 1 else 0) ≤ 1 := by split <;> decide
    exact Nat.le_trans h.once atMost
  ended _ := rfl

/-- A record without a batch is skipped. -/
theorem passing {record : LogRecord} (foreign : record.kind ≠ .stateMachineData)
    (records : RecordStream) : Accounted codec (read ++ [record]) given (s.passing records) := by
  have batches : (read ++ [record]).filterMap codec.batchIn? = read.filterMap codec.batchIn? := by
    rw [List.filterMap_append, List.filterMap_cons_none (Codec.batchIn?_of_foreign foreign),
      List.filterMap_nil, List.append_nil]
  refine ⟨h.stored, ?_, ?_, ?_, ?_, h.once, h.ended⟩
  · rw [batches, List.countP_append, List.countP_singleton, if_pos (decide_eq_true foreign)]
    exact ⟨h.counts.skipped.tick, h.counts.decoded, h.counts.emitted⟩
  · rw [batches]
    exact h.entries
  · rw [batches]
    exact h.rest
  · rw [List.countP_append, List.countP_singleton,
      if_neg (by rw [Codec.refuses_of_foreign foreign]; exact Bool.false_ne_true), Nat.add_zero]
    exact h.refused

/-- A batch is decoded when the one before has been handed out. -/
theorem taking {record : LogRecord} {batch : Batch} (handed : s.batch = [])
    (machine : record.kind = .stateMachineData) (decodes : codec.decode record.payload = .ok batch)
    (records : RecordStream) : Accounted codec (read ++ [record]) given (s.taking records batch) := by
  have batches : (read ++ [record]).filterMap codec.batchIn? =
      read.filterMap codec.batchIn? ++ [batch] := by
    rw [List.filterMap_append, List.filterMap_cons_some (Codec.batchIn?_of_ok machine decodes),
      List.filterMap_nil]
  refine ⟨h.stored, ?_, ?_, ?_, ?_, h.once, h.ended⟩
  · rw [batches, List.length_append, List.countP_append, List.countP_singleton,
      if_neg (by simpa using machine), Nat.add_zero]
    exact ⟨h.counts.skipped, h.counts.decoded.tick, h.counts.emitted⟩
  · rw [batches, List.flatMap_append, ← h.entries, handed, List.append_nil, List.flatMap_singleton]
    rfl
  · rw [batches, List.getLast?_concat]
    exact List.suffix_refl _
  · rw [List.countP_append, List.countP_singleton,
      if_neg (by rw [Codec.refuses_of_ok decodes]; exact Bool.false_ne_true), Nat.add_zero]
    exact h.refused

/-- A payload that is no batch ends the source with an error about it. -/
theorem refusing {record : LogRecord} {fault : Codec.Fault} (running : s.done = false)
    (machine : record.kind = .stateMachineData) (refused : codec.decode record.payload = .error fault)
    (records : RecordStream) :
    Accounted codec (read ++ [record])
      (given ++ [.error (.deserialization record.index fault.message)])
      { s with records, done := true } := by
  have batches : (read ++ [record]).filterMap codec.batchIn? = read.filterMap codec.batchIn? := by
    rw [List.filterMap_append, List.filterMap_cons_none (Codec.batchIn?_of_error refused),
      List.filterMap_nil, List.append_nil]
  have before : (faults given).countP JournalError.isUndecodable = 0 := by
    have once := h.once
    rw [running, if_neg Bool.false_ne_true] at once
    exact Nat.le_zero.mp once
  refine ⟨h.stored, ?_, ?_, ?_, ?_, ?_, fun _ => rfl⟩
  · rw [batches, List.countP_append, List.countP_singleton, if_neg (by simpa using machine),
      Nat.add_zero, delivered_append]
    simp only [delivered, List.append_nil]
    exact ⟨h.counts.skipped, h.counts.decoded, h.counts.emitted⟩
  · rw [batches, delivered_append]
    simp only [delivered, List.append_nil]
    exact h.entries
  · rw [batches]
    exact h.rest
  · rw [faults_append, List.countP_append, List.countP_append, ← h.refused, List.countP_singleton,
      if_pos (Codec.refuses_of_error machine refused)]
    rfl
  · rw [faults_append, List.countP_append, before]
    exact Nat.le_refl 1

end Accounted

theorem finish_of_no_batch (batch : s.batch = []) (records : RecordStream) :
    { s with records }.finish = { s with records, done := true } := by
  rw [finish, ← batch]

/-- The records that a source takes in some calls are those that its stream hands out when asked so many
times, and with them and the answers to the calls the source is accounted for. -/
def Takes (tree : FileTree) (codec : Codec) (read : List LogRecord) (given : List Pulled)
    (s after : JournalEntries) (asked : Nat) : Prop :=
  after.records = stateAfter (RecordStream.next tree) asked s.records ∧
    Accounted codec (read ++ delivered (answers (RecordStream.next tree) asked s.records)) given after

variable {tree : FileTree} {t after : JournalEntries} {records : RecordStream}

/-- A source may end when it has asked its stream once. -/
theorem takes_one {answer : Except JournalError (Option LogRecord)}
    (asked : s.records.next tree = (answer, records)) (left : after.records = records)
    (accounted : Accounted codec (read ++ delivered [answer]) given after) :
    Takes tree codec read given s after 1 := by
  rw [Takes, stateAfter, answers, asked]
  exact ⟨left, accounted⟩

/-- What is taken after a record is taken with it. -/
theorem Takes.cons {record : LogRecord} {asked : Nat}
    (h : Takes tree codec (read ++ [record]) given t after asked)
    (taken : s.records.next tree = (.ok (some record), records)) (same : t.records = records) :
    Takes tree codec read given s after (asked + 1) := by
  obtain ⟨left, accounted⟩ := h
  rw [same] at left accounted
  rw [List.append_assoc] at accounted
  rw [Takes, stateAfter, answers, taken]
  exact ⟨left, accounted⟩

/-- **A call keeps the accounts**, with the records that it takes and the answer that it gives. -/
theorem Accounted.next (h : Accounted codec read given s) (tree : FileTree) :
    ∃ asked, Takes tree codec read (given ++ [(s.next tree).1]) s (s.next tree).2 asked := by
  -- on the records that are taken in this call
  fun_induction JournalEntries.next tree s generalizing read with
  | case1 s ended =>
    refine ⟨0, rfl, ?_⟩
    have still := h.ending (.ok none) rfl rfl s.records
    rw [answers, delivered_nil, List.append_nil]
    rwa [← ended] at still
  | case2 s running entry rest batch =>
    refine ⟨0, rfl, ?_⟩
    rw [answers, delivered_nil, List.append_nil]
    exact h.emitting batch
  | case3 s running batch e records asked =>
    refine ⟨1, takes_one asked rfl ?_⟩
    have sound : e.isUndecodable = false :=
      RecordStream.isUndecodable_of_next (congrArg Prod.fst asked)
    rw [finish_of_no_batch batch records, delivered, delivered_nil, List.append_nil]
    exact h.ending _ rfl (List.countP_eq_zero.mpr (by simpa [faults] using sound)) records
  | case4 s running batch records asked =>
    refine ⟨1, takes_one asked rfl ?_⟩
    rw [finish_of_no_batch batch records, delivered, delivered_nil, List.append_nil]
    exact h.ending _ rfl rfl records
  | case5 s running batch record records asked machine fault refused =>
    refine ⟨1, takes_one asked rfl ?_⟩
    rw [finish_of_no_batch batch records, delivered, delivered_nil]
    rw [h.stored] at refused
    exact h.refusing (by simpa using running) machine refused records
  | case6 s running batch record records asked machine found decodes ih =>
    rw [h.stored] at decodes
    obtain ⟨more, taken⟩ := ih (h.taking batch machine decodes records)
    exact ⟨more + 1, taken.cons asked rfl⟩
  | case7 s running batch record records asked foreign ih =>
    obtain ⟨more, taken⟩ := ih (h.passing foreign records)
    exact ⟨more + 1, taken.cons asked rfl⟩

/-- Calls keep the accounts. -/
theorem Accounted.run (h : Accounted codec read given s) (tree : FileTree) (calls : Nat) :
    ∃ asked, Takes tree codec read (given ++ answers (JournalEntries.next tree) calls s) s
      (stateAfter (JournalEntries.next tree) calls s) asked := by
  induction calls generalizing read given s with
  | zero =>
    refine ⟨0, rfl, ?_⟩
    rw [answers, answers, delivered_nil, List.append_nil, List.append_nil]
    exact h
  | succ calls ih =>
    obtain ⟨asked, left, accounted⟩ := h.next tree
    obtain ⟨more, left', accounted'⟩ := ih accounted
    rw [left] at left' accounted'
    refine ⟨asked + more, ?_, ?_⟩
    · rw [stateAfter_add (RecordStream.next tree)]
      exact left'
    · rw [answers_add (RecordStream.next tree), delivered_append, ← List.append_assoc]
      rw [List.append_assoc given] at accounted'
      exact accounted'

/-- **Counters balance in every state.** Take a record stream over any segments with any range that has
been asked some times, and a source over it that has been asked some times. Of the records that were
handed out, first by the stream and then to the source, none is missing from the counters: they are the ones
that were handed out before, those that were skipped, those whose batches were decoded, and one more if an
error about a payload has been given. The entries that have been given are counted; they are those of the
decoded batches, but for the rest of the last batch. There are no more segments opened than there are, and
once the source has given an answer without an entry, its state no longer changes. -/
theorem counters_balance (tree : FileTree) (segments : List LogSegment) (config : StreamConfig)
    (codec : Codec) (earlier calls : Nat) :
    let whole := RecordStream.ofSegments segments config
    let before := delivered (answers (RecordStream.next tree) earlier whole)
    let stream := stateAfter (RecordStream.next tree) earlier whole
    let given := answers (next tree) calls (ofRecords stream codec)
    let after := stateAfter (next tree) calls (ofRecords stream codec)
    let failed := (faults given).countP JournalError.isUndecodable
    failed ≤ 1 ∧
    Counted after.stats.recordsRead (before.length + after.stats.recordsSkipped.toNat +
      after.stats.batchesDecoded.toNat + failed) ∧
    Counted after.stats.entriesEmitted (delivered given).length ∧
    (∃ asked,
      let read := delivered (answers (RecordStream.next tree) asked stream)
      let batches := read.filterMap codec.batchIn?
      after.records = stateAfter (RecordStream.next tree) asked stream ∧
      Counted after.stats.recordsSkipped
        (read.countP fun record => record.kind ≠ .stateMachineData) ∧
      Counted after.stats.batchesDecoded batches.length ∧
      failed = read.countP codec.refuses ∧
      delivered given ++ after.batch = batches.flatMap Batch.entries ∧
      after.batch <:+ (batches.getLast?.map Batch.entries).getD []) ∧
    after.stats.segmentsOpened.toNat ≤ segments.length ∧
    ((∃ answer ∈ given, ∀ entry, answer ≠ .ok (some entry)) →
      ∀ more, stateAfter (next tree) more after = after) := by
  intro whole before stream given after failed
  obtain ⟨asked, left, accounted⟩ := (Accounted.start stream codec).run tree calls
  change after.records = stateAfter (RecordStream.next tree) asked stream at left
  change Accounted codec (delivered (answers (RecordStream.next tree) asked stream)) given after
    at accounted
  -- the stream has been asked by the source after it had been asked before
  obtain ⟨read, opened⟩ := RecordStream.counted_stateAfter (s := whole) tree (earlier + asked)
    counted_zero counted_zero
  rw [stateAfter_add, ← left] at read opened
  rw [answers_add, delivered_append, List.length_append, Nat.zero_add,
    codec.length_eq_add (delivered (answers (RecordStream.next tree) asked stream))] at read
  rw [Nat.zero_add] at opened
  have atMost := config.opened_le tree (earlier + asked) segments
  have failed_eq := accounted.refused
  have skipped := accounted.counts.skipped
  have decoded := accounted.counts.decoded
  refine ⟨?_, ?_, accounted.counts.emitted, ⟨asked, left, skipped, decoded, failed_eq,
    accounted.entries, accounted.rest⟩, ?_, fun some more => ?_⟩
  · exact Nat.le_trans accounted.once (by split <;> decide)
  · -- where a counter of the source has stopped, that of the stream has stopped as well
    have same : failed = _ := failed_eq
    have skips : after.stats.recordsSkipped.toNat = _ := skipped
    have decodes : after.stats.batchesDecoded.toNat = _ := decoded
    have reads : after.stats.recordsRead.toNat = min (before.length + _) _ := read
    rw [Counted, reads, skips, decodes, same]
    omega
  · have opens : after.stats.segmentsOpened.toNat = _ := opened
    rw [opens]
    exact Nat.le_trans (Nat.min_le_left _ _) atMost
  · exact stateAfter_of_done (accounted.ended some) more

/-- Two records without batches, in one segment. -/
def twoBare : FileTree := RecordStream.shelf [("log_0-4", [1, 3].map RecordStream.bare)]

/-- A source that is made when one of two records has been read counts that one as read, too, though it
has neither skipped nor decoded it. -/
theorem unbalanced_of_two :
    let whole := RecordStream.ofSegments [RecordStream.shelved 0 4] ⟨.defaultGroup, 0, none⟩
    let source := ofRecords (stateAfter (RecordStream.next twoBare) 1 whole) .packed
    let stats := (stateAfter (next twoBare) 1 source).stats
    answers (next twoBare) 1 source = [.ok none] ∧
      stats.recordsRead = 2 ∧ stats.recordsSkipped = 1 ∧ stats.batchesDecoded = 0 ∧
      stats.recordsRead ≠ stats.recordsSkipped + stats.batchesDecoded := by
  intro whole source stats
  have file : twoBare.read (RecordStream.shelved 0 4).path =
      .ok (.ofList (segmentBytes ([1, 3].map RecordStream.bare))) := by decide +kernel
  have both := RecordStream.gives_of_bytes file (by decide) .defaultGroup
  have gives : Gives (RecordStream.next twoBare) [RecordStream.bare 3] none source.records :=
    both.after 1
  have entries : answers (next twoBare) 1 source = [.ok none] := gives_unpack .packed gives 1
  have drained := drains (s := source) rfl rfl gives rfl ⟨counted_zero, counted_zero, counted_zero⟩
  have left : (stateAfter (next twoBare) 1 source).records =
      stateAfter (RecordStream.next twoBare) 2 source.records := drained.records
  -- one of the three calls to the record stream has been made before
  obtain ⟨read, -⟩ :=
    RecordStream.counted_stateAfter (s := whole) twoBare (1 + 2) counted_zero counted_zero
  rw [stateAfter_add, both.delivered_answers] at read
  have shown : Counted stats.recordsRead 2 := by
    show Counted (stateAfter (next twoBare) 1 source).records.recordsRead 2
    rw [left]
    exact read
  have two : stats.recordsRead = 2 := shown.unique rfl
  have one : stats.recordsSkipped = 1 := drained.counts.skipped.unique rfl
  have zero : stats.batchesDecoded = 0 := drained.counts.decoded.unique rfl
  exact ⟨entries, two, one, zero, by rw [two, one, zero]; decide⟩

end JournalEntries

end RaftJournal
