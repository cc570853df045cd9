import RaftJournal.Proofs.Storage.Changes
import RaftJournal.Proofs.Writer.Losses
import RaftJournal.Proofs.Writer.Tallies
import RaftJournal.Proofs.Writer.Tiling

/-! # The numbers that a writer gives

Records are numbered from the first index on and written entries from the first sequence number on. Both
counters stay at the largest word, so the numbers rise as long as there are more of them, and after that
the last one is given again and again.

* **`Ledger.map_index_records`**: the indices of the records of a ledger.
* **`Writer.stampsAlong_eq`**: the sequence numbers with which a run stamps entries.
* **`Evolves.persists`**: a segment that has been listed stays, with its records first in its file.

**`Writer.numbers_rise_or_stay`** is all of it, for every run. At the last index a segment may replace the
one before it: **`Writer.does_append_roll`**. -/

namespace RaftJournal

/-- A counter after so many more events shows their number, or the largest word. -/
theorem toNat_tickBy_eq_min (n : UInt64) (count : Nat) :
    (tickBy n count).toNat = min (n.toNat + count) (UInt64.size - 1) := by
  have largest : (0xFFFFFFFFFFFFFFFF : UInt64).toNat = UInt64.size - 1 := rfl
  by_cases fits : n.toNat + count < UInt64.size
  · rw [toNat_tickBy fits]
    omega
  · rw [tickBy, if_neg fits, largest]
    omega

/-- As long as there are more words, counting gives rising ones. -/
theorem pairwise_tickBy {n : UInt64} {count : Nat} (h : n.toNat + count ≤ UInt64.size) :
    ((List.range count).map (tickBy n)).Pairwise (· < ·) := by
  rw [List.pairwise_map]
  refine List.pairwise_lt_range.imp_of_mem fun {before later} _ mem less => ?_
  have inside := List.mem_range.mp mem
  rw [UInt64.lt_iff_toNat_lt, toNat_tickBy (by omega), toNat_tickBy (by omega)]
  omega

/-! ## indices -/

/-- The index in an answer. -/
def Answer.index? : Answer → Option UInt64
  | .ok index? => index?
  | .error _ => none

namespace Ledger

variable {l l' : Ledger}

/-- The records of a ledger are numbered from the first index on. -/
theorem map_index_records (l : Ledger) :
    l.records.map (·.index) = (List.range l.accepted.length).map (tickBy l.config.startIndex) := by
  apply List.ext_getElem
  · simp [records]
  · intro before inside _
    simp [records, record]

/-- No operation takes back a record or numbers it anew. -/
theorem Grows.records {α : Type} {x : LedgerM α} (h : Grows x) (l : Ledger) :
    l.records <+: (finalState (x l)).records := by
  obtain ⟨config, more, accepted⟩ := h l
  have same : (finalState (x l)).record = l.record := by
    funext before kind payload
    rw [record, record, config]
  rw [Ledger.records, Ledger.records, ← accepted, List.mapIdx_append, same]
  exact List.prefix_append _ _

/-- The index that an append gives is that of the last record. -/
theorem records_of_append {kind : RecordKind} {payload : Bytes} {index : UInt64}
    (done : append kind payload l = .ok index l') :
    ∃ record, l'.records = l.records ++ [record] ∧ record.index = index := by
  obtain ⟨framable, rfl⟩ := of_append done
  refine ⟨_, records_accept l kind payload, ?_⟩
  rw [append, if_neg (not_not_intro framable)] at done
  split at done
  · cases done
  · cases done
    rfl

/-- The index that an operation gives is that of the last record that it has added. -/
theorem records_of_perform {operation : Operation} {index : UInt64}
    (done : perform operation l = .ok (some index) l') :
    ∃ front record, l'.records = front ++ [record] ∧ record.index = index ∧ l.records <+: front := by
  cases operation with
  | appendRecord kind payload =>
    obtain ⟨found, appended, gives⟩ := of_map_ok done
    cases gives
    obtain ⟨record, records, same⟩ := records_of_append appended
    exact ⟨_, record, records, same, List.prefix_refl _⟩
  | appendBatch batch =>
    obtain ⟨found, appended, gives⟩ := of_map_ok done
    cases gives
    -- the record of the batch comes after that of the buffered entries
    obtain ⟨_, between, flushed, last⟩ := of_bind_ok appended
    obtain ⟨record, records, same⟩ := records_of_append last
    have earlier := grows_flush.records l
    rw [flushed] at earlier
    exact ⟨_, record, records, same, earlier⟩
  | roll => cases done
  | writeEntry entry | flush | finish =>
    -- the other operations give no index
    obtain ⟨_, _, gives⟩ := of_map_ok done
    cases gives

/-- **The indices that operations give are those of records**, in the same order. -/
theorem indices_sublist (operations : List Operation) (l : Ledger) :
    ∃ more, (performAll perform operations l).2.records = l.records ++ more ∧
      ((performAll perform operations l).1.filterMap Answer.index?).Sublist
        (more.map (·.index)) := by
  -- on the operations; each index is that of a record which the operation has added
  induction operations generalizing l with
  | nil => exact ⟨[], (List.append_nil _).symm, List.Sublist.slnil⟩
  | cons operation rest ih =>
    rw [performAll_cons]
    obtain ⟨later, records, sublist⟩ := ih (finalState (perform operation l))
    simp only
    cases answered : (answerOf (perform operation l)).index? with
    | none =>
      obtain ⟨here, first⟩ := (grows_perform operation).records l
      refine ⟨here ++ later, by rw [records, ← first, List.append_assoc], ?_⟩
      rw [List.filterMap_cons_none answered, List.map_append]
      exact sublist.trans (List.sublist_append_right _ _)
    | some index =>
      obtain ⟨after, done⟩ : ∃ after, perform operation l = .ok (some index) after := by
        cases result : perform operation l with
        | error e after =>
          rw [result] at answered
          cases answered
        | ok index? after =>
          rw [result] at answered
          exact ⟨after, by rw [show index? = some index from answered]⟩
      obtain ⟨_, record, first, same, here, rfl⟩ := records_of_perform done
      have added : (finalState (perform operation l)).records = l.records ++ here ++ [record] := by
        rw [done]
        exact first
      refine ⟨here ++ record :: later, ?_, ?_⟩
      · rw [records, added]
        simp
      · rw [List.filterMap_cons_some answered, List.map_append, List.map_cons, same]
        exact (sublist.cons_cons index).trans (List.sublist_append_right _ _)

end Ledger

/-! ## sequence numbers -/

namespace Writer

/-- The sequence number with which an operation stamps an entry: one that writes an entry buffers it with
that number, whether or not it succeeds then. -/
def stampOf (desk : Desk) : Operation → List UInt64
  | .writeEntry entry =>
    ((finalState (buffer entry desk)).writer.pending.getLast?.bind Entry.sequenceNumber).toList
  | _ => []

/-- The sequence numbers with which operations stamp entries, one after the other. -/
def stampsAlong : List Operation → Desk → List UInt64
  | [], _ => []
  | operation :: rest, desk =>
    stampOf desk operation ++ stampsAlong rest (finalState (perform operation desk))

theorem stampOf_eq (desk : Desk) (operation : Operation) :
    stampOf desk operation =
      if operation.isWrite then [desk.writer.nextSequenceNumber] else [] := by
  cases operation with
  | writeEntry entry =>
    show ((desk.writer.pending ++ [entry.stamp desk.writer.nextSequenceNumber]).getLast?.bind
      Entry.sequenceNumber).toList = _
    rw [List.getLast?_concat]
    rfl
  | _ => rfl

/-- **Written entries are stamped with one number after the other.** -/
theorem stampsAlong_eq {site : Site} {desk : Desk} {ledger : Ledger} (operations : List Operation)
    (h : Tracks site (fun _ => True) [] desk ledger)
    (granted : ∀ answer ∈ (performAll perform operations desk).1, ¬ answer.isIo)
    {start : UInt64} {before : Nat} (sequence : ledger.nextSequenceNumber = tickBy start before) :
    stampsAlong operations desk =
      (List.range' before (operations.countP Operation.isWrite)).map (tickBy start) := by
  induction operations generalizing desk ledger before with
  | nil => rfl
  | cons operation rest ih =>
    rw [performAll_cons, List.forall_mem_cons, isIo_answerOf] at granted
    obtain ⟨-, after⟩ := (tracks_perform h operation fun _ _ => trivial).of_granted granted.1
    have next := (Ledger.accounts_perform operation ledger).sequence
    rw [stampsAlong, stampOf_eq, h.sequence]
    by_cases write : operation.isWrite
    · rw [if_pos write, sequence, ← tickBy_succ] at next
      rw [ih after granted.2 next, if_pos write,
        List.countP_cons_of_pos write, List.range'_succ, List.map_cons, sequence]
      rfl
    · rw [if_neg write, sequence] at next
      rw [ih after granted.2 next, if_neg write,
        List.countP_cons_of_neg write]
      rfl

end Writer

/-! ## files -/

/-- What has become of a segment whose files were those of the first tree: it starts where it did, its
records are still the first of its file, and if it was closed it and its file are as they were. -/
structure LogSegment.Persists (tree tree' : FileTree) (s s' : LogSegment) : Prop where
  start : s'.start = s.start
  records : ∃ r r', s.reader tree = .ok r ∧ s'.reader tree' = .ok r' ∧
    r.trace.records <+: r'.trace.records
  closed : s.last ≠ none → s' = s ∧ tree'.read s'.path = tree.read s.path

/-- The volumes that a desk shows are segments that persist. -/
theorem Evolves.persists {site : Site} {tree tree' : FileTree} {volumes volumes' : List Volume}
    (h : Evolves volumes volumes') (holds : Holds site tree volumes)
    (holds' : Holds site tree' volumes') :
    ∀ s ∈ segmentsIn tree site.dir, ∃ s' ∈ segmentsIn tree' site.dir, s.Persists tree tree' s' := by
  intro s mem
  rw [holds.segmentsIn_eq] at mem
  obtain ⟨v, member, rfl⟩ := List.mem_map.mp mem
  obtain ⟨v', member', becomes⟩ := h v member
  obtain ⟨r, opened, trace⟩ := holds.reader_segment member
  obtain ⟨r', opened', trace'⟩ := holds'.reader_segment member'
  refine ⟨v'.segment site, ?_, becomes.start, ⟨r, r', opened, opened', ?_⟩, fun closed => ?_⟩
  · rw [holds'.segmentsIn_eq]
    exact List.mem_map_of_mem member'
  · rw [trace, trace']
    exact becomes.records
  · obtain rfl := becomes.closed closed
    exact ⟨rfl, by rw [holds'.read_segment member', holds.read_segment member]⟩

namespace Writer

variable {tree made : FileTree} {root : String} {config : WriterConfig} {codec : Codec} {w : Writer}

/-- As long as the indices suffice, the segments of a group persist in a longer run. -/
theorem segments_persist (first later : List Operation)
    (created : create tree root config codec = (.ok w, made))
    (granted : ∀ answer ∈ (performAll perform (first ++ later) ⟨w, made⟩).1, ¬ answer.isIo)
    (numbered : (performAll Ledger.perform (first ++ later) (.start config codec)).2.Numbered) :
    let before := (performAll perform first ⟨w, made⟩).2.tree
    let after := (performAll perform (first ++ later) ⟨w, made⟩).2.tree
    let dir := groupDirectory root config.group
    ∀ s ∈ segmentsIn before dir, ∃ s' ∈ segmentsIn after dir, s.Persists before after s' := by
  intro before after dir
  obtain ⟨site, -, same, start⟩ := exists_site created fun _ => True
  rw [performAll_append, List.forall_mem_append] at granted
  rw [performAll_append] at numbered
  have demanded (operations : List Operation) (l : Ledger) :
      ∀ index ∈ l.rollsAlong operations, True := fun _ _ => trivial
  obtain ⟨-, tracks⟩ := tracks_performAll first start.tracks (demanded _ _) granted.1
  -- what the files show after the first operations is what is tracked from there on
  have follows := tracks.follows (Ledger.numbered_of_performAll numbered)
  obtain ⟨volumes, shows, divided⟩ := follows.shows
  have again : Tracks site (fun _ => True) volumes _ _ :=
    ⟨follows.toBooks, fun _ => ⟨volumes, shows, .refl volumes, divided⟩⟩
  obtain ⟨-, tracks'⟩ := tracks_performAll later again (demanded _ _) granted.2
  obtain ⟨volumes', shows', evolves, -⟩ := tracks'.shows numbered
  have persists := evolves.persists shows.holds shows'.holds
  rw [same] at persists
  have whole : after = (performAll perform later (performAll perform first ⟨w, made⟩).2).2.tree := by
    show (performAll perform (first ++ later) ⟨w, made⟩).2.tree = _
    rw [performAll_append]
  rw [whole]
  exact persists

/-- **Numbers rise as long as there are more of them**, and then stay. Take a created writer and any
operations in which the file system refuses nothing. The answers are those of the ledger, and the indices
in them are indices of its records, of which the next one has the first index and as many more as there
are records before it, or the largest word if there is no such index; the entries that are written are
stamped with sequence numbers in the same way. So as long as there are more sequence numbers the stamps
rise, and as long as there are more indices the indices do, and then no segment replaces another one: each
one listed after some of the operations persists. -/
theorem numbers_rise_or_stay (operations : List Operation)
    (created : create tree root config codec = (.ok w, made))
    (granted : ∀ answer ∈ (performAll perform operations ⟨w, made⟩).1, ¬ answer.isIo) :
    let run := performAll perform operations ⟨w, made⟩
    let promised := performAll Ledger.perform operations (.start config codec)
    let indices := promised.2.records.map (·.index)
    let stamps := stampsAlong operations ⟨w, made⟩
    let dir := groupDirectory root config.group
    run.1 = promised.1 ∧
      (run.1.filterMap Answer.index?).Sublist indices ∧
      run.2.writer.nextIndex.toNat =
        min (config.startIndex.toNat + indices.length) (UInt64.size - 1) ∧
      indices.map UInt64.toNat = (List.range indices.length).map
        (fun before => min (config.startIndex.toNat + before) (UInt64.size - 1)) ∧
      stamps.map UInt64.toNat = (List.range (operations.countP Operation.isWrite)).map
        (fun before => min (config.startSequenceNumber.toNat + before) (UInt64.size - 1)) ∧
      (config.startSequenceNumber.toNat + stamps.length ≤ UInt64.size → stamps.Pairwise (· < ·)) ∧
      (config.startIndex.toNat + indices.length ≤ UInt64.size →
        indices.Pairwise (· < ·) ∧
        ∀ first later, operations = first ++ later →
          let before := (performAll perform first ⟨w, made⟩).2.tree
          ∀ s ∈ segmentsIn before dir, ∃ s' ∈ segmentsIn run.2.tree dir,
            s.Persists before run.2.tree s') := by
  intro run promised indices stamps dir
  obtain ⟨site, -, -, start⟩ := exists_site created fun _ => True
  obtain ⟨answers, tracks⟩ :=
    tracks_performAll operations start.tracks (fun _ _ => trivial) granted
  have final := (Ledger.grows_performAll operations (.start config codec)).1
  have numbers : indices = (List.range promised.2.accepted.length).map (tickBy config.startIndex) := by
    show promised.2.records.map (·.index) = _
    rw [Ledger.map_index_records, final]
    rfl
  have count : indices.length = promised.2.accepted.length := by
    rw [numbers, List.length_map, List.length_range]
  have stamped : stamps = (List.range (operations.countP Operation.isWrite)).map
      (tickBy config.startSequenceNumber) := by
    rw [List.range_eq_range']
    exact stampsAlong_eq operations start.tracks granted (tickBy_zero _).symm
  have counts (n : UInt64) (total : Nat) : ((List.range total).map (tickBy n)).map UInt64.toNat =
      (List.range total).map fun before => min (n.toNat + before) (UInt64.size - 1) := by
    rw [List.map_map]
    exact List.map_congr_left fun before _ => toNat_tickBy_eq_min n before
  refine ⟨answers, ?_, ?_, ?_, ?_, fun suffice => ?_, fun suffice => ⟨?_, ?_⟩⟩
  · obtain ⟨more, records, sublist⟩ := Ledger.indices_sublist operations (.start config codec)
    have all : promised.2.records = more := records
    rw [answers]
    show List.Sublist _ (promised.2.records.map (·.index))
    rw [all]
    exact sublist
  · rw [tracks.index, final, toNat_tickBy_eq_min, count]
    rfl
  · rw [count, numbers, counts]
  · rw [stamped, counts]
  · rw [stamped, List.length_map, List.length_range] at suffice
    rw [stamped]
    exact pairwise_tickBy suffice
  · rw [count] at suffice
    rw [numbers]
    exact pairwise_tickBy suffice
  · rintro first later rfl
    exact segments_persist first later created granted
      (Ledger.numbered_performAll_iff.mpr (count ▸ suffice))

/-- Three more indices and two more sequence numbers. -/
def spentConfig : WriterConfig :=
  ⟨.defaultGroup, 160, 64, 3, 0xFFFFFFFFFFFFFFFD, 0xFFFFFFFFFFFFFFFE⟩

/-- A fresh writer with these. -/
def spentDesk : Desk := freshDesk "j" spentConfig .packed

/-- Three records and three entries. -/
def threeOfEach : List Operation :=
  [.appendRecord .metadata [7], .appendRecord .metadata [8], .appendRecord .metadata [9],
    .writeEntry (smallEntry 1), .writeEntry (smallEntry 2), .writeEntry (smallEntry 3)]

/-- The indices rise to the last one, and the segment of the first two records persists; the third entry
is numbered like the second. -/
theorem numbers_rise_or_stay_of_three :
    create .empty "j" spentConfig .packed = (.ok spentDesk.writer, spentDesk.tree) ∧
    (∀ answer ∈ (performAll perform threeOfEach spentDesk).1, ¬ answer.isIo) ∧
    ((performAll Ledger.perform threeOfEach (.start spentConfig .packed)).2.records.map
      (·.index)).map UInt64.toNat = [UInt64.size - 3, UInt64.size - 2, UInt64.size - 1] ∧
    (stampsAlong threeOfEach spentDesk).map UInt64.toNat =
      [UInt64.size - 2, UInt64.size - 1, UInt64.size - 1] ∧
    ∀ s ∈ segmentsIn (performAll perform (threeOfEach.take 2) spentDesk).2.tree
        (groupDirectory "j" .defaultGroup),
      ∃ s' ∈ segmentsIn (performAll perform threeOfEach spentDesk).2.tree
          (groupDirectory "j" .defaultGroup),
        s.Persists (performAll perform (threeOfEach.take 2) spentDesk).2.tree
          (performAll perform threeOfEach spentDesk).2.tree s' := by
  have created : create .empty "j" spentConfig .packed =
      (.ok spentDesk.writer, spentDesk.tree) := by decide +kernel
  have granted : ∀ answer ∈ (performAll perform threeOfEach spentDesk).1, ¬ answer.isIo := by
    decide +kernel
  have three : ((performAll Ledger.perform threeOfEach (.start spentConfig .packed)).2.records.map
      (·.index)).length = 3 := by decide +kernel
  obtain ⟨-, -, -, indices, stamps, -, suffice⟩ :=
    numbers_rise_or_stay threeOfEach created granted
  rw [three] at indices suffice
  obtain ⟨-, persist⟩ := suffice (by decide)
  exact ⟨created, granted, indices, stamps, persist (threeOfEach.take 2) (threeOfEach.drop 2) rfl⟩

/-- A fourth record is given the index of the third without an error, and the third entry the sequence
number of the second. -/
theorem numbers_repeat_of_four :
    create .empty "j" spentConfig .packed = (.ok spentDesk.writer, spentDesk.tree) ∧
    (performAll perform (threeOfEach ++ [.appendRecord .metadata [10]]) spentDesk).1 =
      [.ok (some 0xFFFFFFFFFFFFFFFD), .ok (some 0xFFFFFFFFFFFFFFFE),
        .ok (some 0xFFFFFFFFFFFFFFFF), .ok none, .ok none, .ok none,
        .ok (some 0xFFFFFFFFFFFFFFFF)] ∧
    stampsAlong threeOfEach spentDesk =
      [0xFFFFFFFFFFFFFFFE, 0xFFFFFFFFFFFFFFFF, 0xFFFFFFFFFFFFFFFF] := by
  refine ⟨?_, ?_, ?_⟩ <;> decide +kernel

/-! ## the last index -/

/-- The bytes of an open segment are in its file. -/
def Stored (segment : OpenSegment) (desk : Desk) : Prop :=
  desk.writer.current = some segment ∧ desk.tree.read segment.path = .ok segment.content

/-- Closing moves the file of the open segment, cut to what has been written, to its closed name, and replaces
the file that had this name. -/
theorem does_roll_of_stored {desk : Desk} {segment : OpenSegment} (stored : Stored segment desk) :
    Does (roll desk) fun _ after =>
      after.tree.read
        (Path.join desk.writer.dir (SegmentName.closedName segment.start segment.last)) =
        .ok ⟨segment.written, 0⟩ := by
  obtain ⟨current, read⟩ := stored
  apply Does.get_bind
  rw [current]
  refine Does.modify_bind ((does_onFiles fun tree done => FileTree.read_of_resize done).bind ?_)
  rintro - cut ⟨same, content, read', resized⟩
  cases read.symm.trans read'
  rw [Content.resize, OpenSegment.content, if_pos (Nat.le_refl _), List.take_length] at resized
  refine Does.get_bind ((does_onFiles fun tree done => FileTree.read_of_rename done).bind ?_)
  rintro - moved ⟨-, content', read'', renamed⟩
  cases resized.symm.trans read''
  rw [same] at renamed
  exact .done renamed

/-- A segment is made of its first record, in a new file or in an old one that is emptied for it. -/
theorem does_openSegment (record : LogRecord) (desk : Desk) :
    Does (openSegment record desk) fun segment after => after.writer = desk.writer ∧
      segment.start = record.index ∧ segment.last = record.index ∧
      segment.written = LogRecord.segmentHeader ++ record.frame ∧
      ∀ content, (after.tree.store segment.handle content).read segment.path = .ok content := by
  apply Does.get_bind
  apply Does.get_bind
  cases made : desk.tree.create (Path.join desk.writer.dir (SegmentName.openName record.index)) with
  | error fault => exact .refused rfl
  | ok opened =>
    obtain ⟨handle, tree⟩ := opened
    refine Does.modify_bind ?_
    cases FileTree.checkLength desk.writer.config.segmentSize.toNat with
    | error fault => exact .refused rfl
    | ok u => exact .done ⟨rfl, rfl, rfl, rfl, FileTree.read_of_create made⟩

/-- **A segment of one record replaces the one of its name.** Without an open segment a record that is
appended, and then closed on demand, is afterwards the only one in the file named for its index. -/
theorem does_append_roll {desk : Desk} (closed : desk.writer.current = none) {kind : RecordKind}
    {payload : Bytes} (framed : (desk.writer.record kind payload).Framable)
    (small : ¬ desk.writer.emptyRoom < (desk.writer.record kind payload).frame.length) :
    Does ((appendRecord kind payload >>= fun _ => roll) desk) fun _ after =>
      after.tree.read (Path.join desk.writer.dir
        (SegmentName.closedName desk.writer.nextIndex desk.writer.nextIndex)) =
        .ok ⟨LogRecord.segmentHeader ++ (desk.writer.record kind payload).frame, 0⟩ := by
  have places : Does ((rollIfFull (desk.writer.record kind payload).frame.length >>= fun _ =>
      place (desk.writer.record kind payload)) desk) fun _ placed =>
      placed.writer.dir = desk.writer.dir ∧ ∃ segment, Stored segment placed ∧
        segment.start = desk.writer.nextIndex ∧ segment.last = desk.writer.nextIndex ∧
        segment.written = LogRecord.segmentHeader ++ (desk.writer.record kind payload).frame := by
    -- there is no segment to be closed for it
    have ready : Does (rollIfFull (desk.writer.record kind payload).frame.length desk) fun _ after =>
        after = desk := by
      apply Does.get_bind
      rw [closed]
      exact .done rfl
    refine ready.bind ?_
    rintro - _ rfl
    apply Does.get_bind
    rw [closed]
    refine (does_openSegment _ _).bind ?_
    rintro segment opened ⟨same, start, last, written, stored⟩
    have dir := congrArg Writer.dir same
    exact .done ⟨dir, segment, ⟨rfl, stored _⟩, start, last, written⟩
  refine (does_appendRecord framed small places).bind ?_
  rintro - after ⟨-, placed, ⟨dir, segment, stored, start, last, written⟩, counted⟩
  cases counted
  refine Does.mono (does_roll_of_stored stored) fun _ final read => ?_
  rw [start, last, written] at read
  exact dir ▸ read

/-- At the last index the second record replaces the segment of the first, without an error. -/
example :
    let desk := freshDesk "j" { spentConfig with startIndex := 0xFFFFFFFFFFFFFFFF } .packed
    let run := performAll perform
      [.appendRecord .metadata [7], .roll, .appendRecord .metadata [8], .roll] desk
    run.1 = [.ok (some 0xFFFFFFFFFFFFFFFF), .ok none, .ok (some 0xFFFFFFFFFFFFFFFF), .ok none] ∧
      (segmentsIn run.2.tree desk.writer.dir).map (fun s => (s.start, s.last)) =
        [(0xFFFFFFFFFFFFFFFF, some 0xFFFFFFFFFFFFFFFF)] ∧
      run.2.tree.read (Path.join desk.writer.dir
          (SegmentName.closedName 0xFFFFFFFFFFFFFFFF 0xFFFFFFFFFFFFFFFF)) =
        .ok ⟨LogRecord.segmentHeader ++ (desk.writer.record .metadata [8]).frame, 0⟩ := by
  decide +kernel

end Writer

end RaftJournal
