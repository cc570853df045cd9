import RaftJournal.Proofs.Stream.Entries
import RaftJournal.Proofs.Stream.Pruning

/-! # What has been counted in the end

A source that is asked until it has nothing more has opened all of its segments and read all of their
records, if they can be read: each record was skipped or decoded, and each entry of the batches handed out.
The call that finds the end of a batch goes on to the next record, so the records are taken one by one and
the entries of each before the next one (**`JournalEntries.drains`**). **`JournalEntries.counts_drained`** is
what the counters show then, and from then on. -/

namespace RaftJournal

/-! ## segments -/

/-- Enough calls open all segments that can be read, if no record is out of the range. -/
theorem StreamConfig.opened_of_readable {tree : FileTree} {segments : List LogSegment} (group : Uuid)
    (readable : ∀ s ∈ segments, s.Readable tree) {calls : Nat}
    (enough : (traceOf tree segments).records.length < calls) :
    opened ⟨group, 0, none⟩ tree calls segments = segments.length := by
  induction segments generalizing calls with
  | nil => exact opened_nil _ tree calls
  | cons segment rest ih =>
    obtain ⟨r, reads, sound⟩ := readable segment List.mem_cons_self
    obtain ⟨more, rfl⟩ : ∃ more, calls = more + 1 := Nat.exists_eq_add_one.mpr (Nat.zero_lt_of_lt enough)
    rw [traceOf, reads] at enough
    simp only [Trace.followedBy, sound, List.length_append] at enough
    have whole : reached ⟨group, 0, none⟩ r.trace = r.trace.records :=
      List.filter_eq_self.mpr fun record _ => decide_eq_true UInt64.zero_le
    have endless : stopsIn ⟨group, 0, none⟩ r.trace = false :=
      List.any_eq_false.mpr fun record _ => Bool.false_ne_true
    have others := ih (fun s mem => readable s (List.mem_cons_of_mem _ mem))
      (Nat.lt_sub_of_add_lt (Nat.add_comm _ _ ▸ enough))
    rw [opened_cons, reads]
    simp only
    rw [openedAfter, if_neg (by simp [sound, endless]), whole, others, List.length_cons, Nat.add_comm]

namespace JournalEntries

variable {tree : FileTree} {s : JournalEntries} {skipped decoded emitted : Nat}

/-- The counters of a source show so many records and batches and entries. -/
structure Counts (s : JournalEntries) (skipped decoded emitted : Nat) : Prop where
  skipped : Counted s.recordsSkipped skipped
  decoded : Counted s.batchesDecoded decoded
  emitted : Counted s.entriesEmitted emitted

/-! ## calls -/

/-- A source that has ended stays as it is. -/
theorem stateAfter_of_done (ended : s.done = true) (calls : Nat) :
    stateAfter (next tree) calls s = s := by
  induction calls with
  | zero => rfl
  | succ calls ih =>
    rw [stateAfter, next, if_pos ended]
    exact ih

/-- As many calls as there are entries in the rest of a batch hand them out, and the records are left
alone. -/
theorem drains_batch (tree : FileTree) (running : s.done = false) (counts : s.Counts skipped decoded emitted) :
    ∃ number, stateAfter (next tree) s.batch.length s =
        { s with batch := [], entriesEmitted := number } ∧ Counted number (emitted + s.batch.length) := by
  generalize batch : s.batch = entries
  induction entries generalizing s emitted with
  | nil =>
    refine ⟨s.entriesEmitted, ?_, counts.emitted⟩
    show s = _
    rw [← batch]
  | cons entry rest ih =>
    obtain ⟨number, drained, counted⟩ :=
      ih (s := { s with batch := rest, entriesEmitted := tick s.entriesEmitted }) running
        ⟨counts.skipped, counts.decoded, counts.emitted.tick⟩ rfl
    refine ⟨number, ?_, ?_⟩
    · rw [List.length_cons, stateAfter, next_of_batch running batch]
      exact drained
    · rw [List.length_cons, Nat.add_comm rest.length, ← Nat.add_assoc]
      exact counted

/-- The source after a record without a batch. -/
def passing (s : JournalEntries) (records : RecordStream) : JournalEntries :=
  { s with records, recordsSkipped := tick s.recordsSkipped }

/-- The source after a record with a batch. -/
def taking (s : JournalEntries) (records : RecordStream) (batch : Batch) : JournalEntries :=
  { s with records, batch := batch.entries, batchesDecoded := tick s.batchesDecoded }

section Records

variable {record : LogRecord} {records : RecordStream} (running : s.done = false)
  (batch : s.batch = []) (asked : s.records.next tree = (.ok (some record), records))

include running batch asked

/-- A record without a batch is passed over within a call. -/
theorem stateAfter_passing (foreign : record.kind ≠ .stateMachineData) (calls : Nat) :
    stateAfter (next tree) (calls + 1) s = stateAfter (next tree) (calls + 1) (s.passing records) := by
  have goesOn : s.next tree = (s.passing records).next tree := by
    rw [next_of_no_batch running batch, asked]
    exact if_neg foreign
  rw [stateAfter, stateAfter, goesOn]

/-- The call that takes a batch goes on with it. -/
theorem stateAfter_taking {found : Batch} (machine : record.kind = .stateMachineData)
    (decodes : s.codec.decode record.payload = .ok found) (calls : Nat) :
    stateAfter (next tree) (calls + 1) s =
      stateAfter (next tree) (calls + 1) (s.taking records found) := by
  have goesOn : s.next tree = (s.taking records found).next tree := by
    rw [next_of_no_batch running batch, asked]
    simp only
    rw [if_pos machine, decodes]
    rfl
  rw [stateAfter, stateAfter, goesOn]

end Records

/-! ## to the end -/

/-- A source with some records ahead has ended after all of them and has counted them, with so many
entries. -/
structure Drained (tree : FileTree) (s after : JournalEntries) (ahead : List LogRecord)
    (skipped decoded emitted : Nat) : Prop where
  ended : after.done = true
  records : after.records = stateAfter (RecordStream.next tree) (ahead.length + 1) s.records
  counts : after.Counts
    (skipped + ahead.countP fun record => record.kind ≠ .stateMachineData)
    (decoded + ahead.countP fun record => record.kind = .stateMachineData) emitted

/-- A record that has been taken is one of those before the end. -/
theorem Drained.cons {t after : JournalEntries} {record : LogRecord} {ahead : List LogRecord}
    (h : Drained tree t after ahead (skipped + if record.kind = .stateMachineData then 0 else 1)
      (decoded + if record.kind = .stateMachineData then 1 else 0) emitted)
    (taken : t.records = (s.records.next tree).2) :
    Drained tree s after (record :: ahead) skipped decoded emitted := by
  refine ⟨h.ended, ?_, ?_, ?_, h.counts.emitted⟩
  · rw [h.records, taken]
    rfl
  · have counted := h.counts.skipped
    rw [List.countP_cons, Nat.add_comm (ahead.countP _), ← Nat.add_assoc]
    by_cases machine : record.kind = .stateMachineData <;> simpa [machine] using counted
  · have counted := h.counts.decoded
    rw [List.countP_cons, Nat.add_comm (ahead.countP _), ← Nat.add_assoc]
    by_cases machine : record.kind = .stateMachineData <;> simpa [machine] using counted

/-- **A source takes record after record.** One call more than there are entries comes to the end, if all
that its stream still gives are records whose payloads can be decoded. -/
theorem drains {ahead : List LogRecord} {entries : List Entry} (running : s.done = false)
    (batch : s.batch = []) (gives : Gives (RecordStream.next tree) ahead none s.records)
    (unpacked : s.codec.unpack none ahead = (entries, none))
    (counts : s.Counts skipped decoded emitted) :
    Drained tree s (stateAfter (next tree) (entries.length + 1) s) ahead skipped decoded
      (emitted + entries.length) := by
  induction ahead generalizing s entries skipped decoded emitted with
  | nil =>
    cases unpacked
    obtain ⟨head, -⟩ := gives_nil_iff.mp gives
    rw [List.length_nil, stateAfter, next_of_no_batch running batch]
    cases asked : s.records.next tree with
    | mk answer after =>
      rw [asked] at head
      obtain rfl : answer = .ok none := head
      exact ⟨rfl, (congrArg Prod.snd asked).symm, counts.skipped, counts.decoded, counts.emitted⟩
  | cons record ahead ih =>
    obtain ⟨head, tail⟩ := gives_cons_iff.mp gives
    rw [Codec.unpack] at unpacked
    cases asked : s.records.next tree with
    | mk answer after =>
      have taken : after = (s.records.next tree).2 := (congrArg Prod.snd asked).symm
      rw [asked] at head tail
      obtain rfl : answer = .ok (some record) := head
      by_cases machine : record.kind = .stateMachineData
      · rw [if_pos machine] at unpacked
        cases decodes : s.codec.decode record.payload with
        | error fault =>
          rw [decodes] at unpacked
          cases unpacked
        | ok found =>
          rw [decodes] at unpacked
          obtain ⟨rfl, sound⟩ := Prod.mk.inj unpacked
          generalize rest : (s.codec.unpack none ahead).1 = entries
          -- the entries of the batch are handed out before the next record is taken
          have counts' : (s.taking after found).Counts skipped (decoded + 1) emitted :=
            ⟨counts.skipped, counts.decoded.tick, counts.emitted⟩
          obtain ⟨number, drained, counted⟩ :=
            drains_batch tree (s := s.taking after found) running counts'
          have more := ih (s := { s.taking after found with batch := [], entriesEmitted := number })
            running rfl tail (Prod.ext rest sound) ⟨counts'.skipped, counts'.decoded, counted⟩
          have calls : (found.entries ++ entries).length = (s.taking after found).batch.length +
              entries.length := List.length_append
          rw [stateAfter_taking running batch asked machine decodes, calls, Nat.add_assoc,
            stateAfter_add, drained, ← Nat.add_assoc]
          refine Drained.cons (t := s.taking after found) ?_ taken
          rw [if_pos machine, if_pos machine]
          exact ⟨more.ended, more.records, more.counts⟩
      · rw [if_neg machine] at unpacked
        rw [stateAfter_passing running batch asked machine]
        refine Drained.cons (t := s.passing after) ?_ taken
        rw [if_neg machine, if_neg machine]
        exact ih (s := s.passing after) running batch tail unpacked
          ⟨counts.skipped.tick, counts.decoded, counts.emitted⟩

/-- **What the counters show in the end.** A source of all records of some segments, which can be read
and whose records can be decoded, hands out the entries of the batches and then has nothing more. When it
has said so, and from then on, its counters show the segments, the records, those without a batch and those
with one, and the entries. -/
theorem counts_drained {segments : List LogSegment} {entries : List Entry} {codec : Codec} (group : Uuid)
    (readable : ∀ s ∈ segments, s.Readable tree)
    (unpacked : codec.unpack none (traceOf tree segments).records = (entries, none)) {calls : Nat}
    (enough : entries.length < calls) :
    let records := (traceOf tree segments).records
    let source := ofRecords (.ofSegments segments ⟨group, 0, none⟩) codec
    let stats := (stateAfter (next tree) calls source).stats
    Gives (next tree) entries none source ∧ Counted stats.segmentsOpened segments.length ∧
      Counted stats.recordsRead records.length ∧
      Counted stats.recordsSkipped (records.countP fun record => record.kind ≠ .stateMachineData) ∧
      Counted stats.batchesDecoded (records.countP fun record => record.kind = .stateMachineData) ∧
      Counted stats.entriesEmitted entries.length := by
  intro records source stats
  have gives := RecordStream.gives_select tree segments ⟨group, 0, none⟩
  rw [StreamConfig.select_all, fault_traceOf_of_readable readable] at gives
  have whole := gives_unpack codec gives
  rw [unpacked] at whole
  have fresh : source.Counts 0 0 0 := ⟨counted_zero, counted_zero, counted_zero⟩
  have drained := drains (s := source) rfl rfl gives unpacked fresh
  have counts := drained.counts
  rw [Nat.zero_add, Nat.zero_add, Nat.zero_add] at counts
  -- the calls after the end change nothing
  have last : stateAfter (next tree) calls source =
      stateAfter (next tree) (entries.length + 1) source := by
    obtain ⟨more, rfl⟩ := Nat.exists_eq_add_of_le enough
    rw [Nat.succ_eq_add_one, stateAfter_add, stateAfter_of_done drained.ended]
  -- the records have been asked for once more than there are any
  obtain ⟨read, opened⟩ := RecordStream.counted_stateAfter (s := source.records) tree
    (records.length + 1) counted_zero counted_zero
  rw [← drained.records, ← last] at read opened
  have handed : delivered (answers (RecordStream.next tree) (records.length + 1) source.records) =
      records := (gives.delivered_answers _).trans (List.take_of_length_le (Nat.le_succ _))
  rw [handed, Nat.zero_add] at read
  have due : source.records.toOpen tree (records.length + 1) = segments.length :=
    StreamConfig.opened_of_readable group readable (Nat.lt_succ_self _)
  rw [due, Nat.zero_add] at opened
  rw [← last] at counts
  exact ⟨whole, opened, read, counts.skipped, counts.decoded, counts.emitted⟩

end JournalEntries

end RaftJournal
