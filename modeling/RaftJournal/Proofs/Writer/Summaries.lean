import RaftJournal.Proofs.Stream.Statistics
import RaftJournal.Proofs.Writer.Accounts
import RaftJournal.Proofs.Writer.RoundTrip
import RaftJournal.Proofs.Writer.Tallies
import RaftJournal.Proofs.Writer.Tiling

/-! # Summaries of writers

A writer counts its records, the entries in them and the segments that it has closed, each where it is made.
A desk is **`Summed`** with a ledger when the summary shows the records of the ledger and the entries of
their batches, also after appends that have been refused for their size, and when the segments are those
closed and the one that is open. So the summary of a writer that has finished shows what a source counts
that goes through the files: **`Writer.statistics_agree`**. -/

namespace RaftJournal

/-- An action that does something and keeps something else. -/
theorem Does.keeping {α γ : Type} {x : WriterM α} {f : Writer → γ} {P : α → Desk → Prop} {desk : Desk}
    (h : Does (x desk) P) (kept : Writer.Keeps f x) :
    Does (x desk) fun a after => P a after ∧ f after.writer = f desk.writer := by
  have same := kept desk
  generalize x desk = result at h same ⊢
  cases h with
  | done h => exact .done ⟨h, same⟩
  | refused io => exact .refused io

/-- What else holds after results that agree, whether they are given or refused for a size. -/
theorem Agrees.strengthen {α : Type} {R R' : Desk → Ledger → Prop}
    {result : EStateM.Result JournalError Desk α} {promised : EStateM.Result JournalError Ledger α}
    (h : Agrees R result promised)
    (done : ∀ a after ledger, result = .ok a after → promised = .ok a ledger → R after ledger →
      R' after ledger)
    (failed : ∀ e after ledger, result = .error e after → ¬ e.isIo → promised = .error e ledger →
      R after ledger → R' after ledger) : Agrees R' result promised := by
  by_cases refused : Refused result
  · exact .inl refused
  · have same := h.resolve_left refused
    cases promised with
    | ok a ledger =>
      obtain ⟨after, rfl, related⟩ := same.exists_ok
      exact .inr ⟨rfl, done a after ledger rfl rfl related⟩
    | error e ledger =>
      obtain ⟨after, rfl, related⟩ := same.exists_error
      exact .inr ⟨rfl, failed e after ledger rfl refused rfl related⟩

/-! ## segments -/

/-- The summary shows the segments that have been closed: all but the open one. -/
def Closes (site : Site) (desk : Desk) : Prop :=
  ∃ closed, Counted desk.writer.summary.segments closed ∧
    desk.tree.nodes.length =
      site.tree.nodes.length + (closed + if desk.writer.current.isSome then 1 else 0)

section Segments

variable {site : Site} {desk : Desk} {volumes : List Volume} {record : LogRecord}

/-- There is one file for each volume. -/
theorem Shows.length_nodes (h : Shows site desk volumes) :
    desk.tree.nodes.length = site.tree.nodes.length + volumes.length := by
  rw [h.holds.nodes, List.length_append, List.length_map]

/-- Closing the open segment is counted. -/
theorem Writer.segments_roll (desk : Desk) :
    Does (roll desk) fun _ after => after.writer.summary.segments =
      if desk.writer.current.isSome then tick desk.writer.summary.segments
      else desk.writer.summary.segments := by
  refine (Writer.writer_roll desk).mono fun _ after rolled => ?_
  rw [rolled]
  split <;> rfl

theorem closes_roll (h : Shows site desk volumes) (closes : Closes site desk) :
    Does (Writer.roll desk) fun _ after => Closes site after := by
  refine ((shows_roll h).imp_and fun _ : True => Writer.segments_roll desk).mono ?_
  rintro - after ⟨⟨none, volumes', shows, -, parts⟩, counted⟩
  obtain ⟨closed, shown, total⟩ := closes
  have same : volumes'.length = volumes.length := by
    have lengths := congrArg List.length parts
    rwa [List.length_map, List.length_map] at lengths
  rw [h.length_nodes] at total
  refine ⟨volumes.length, ?_, ?_⟩
  · rw [counted trivial]
    cases current : desk.writer.current with
    | none =>
      rw [current] at total
      obtain rfl : volumes.length = closed := Nat.add_left_cancel total
      exact shown
    | some segment =>
      rw [current] at total
      rw [Nat.add_left_cancel total]
      exact shown.tick
  · rw [shows.length_nodes, none, same]
    rfl

theorem closes_rollIfFull (h : Shows site desk volumes) (closes : Closes site desk) (size : Nat) :
    Does (Writer.rollIfFull size desk) fun _ after => Closes site after := by
  apply Does.get_bind
  cases desk.writer.current with
  | none => exact .done closes
  | some segment =>
    show Does ((if segment.remaining < size then Writer.roll else pure () : WriterM Unit) desk) _
    split
    · exact closes_roll h closes
    · exact .done closes

/-- A segment that is made for a record is open afterwards. -/
theorem closes_place (h : Shows site desk volumes) (framable : record.Framable)
    (later : ∀ r ∈ (volumes.map (·.records)).flatten, r.index < record.index)
    (fits : (segmentBytes [record]).length ≤ desk.writer.config.segmentSize.toNat)
    (room : ∀ segment, desk.writer.current = some segment →
      record.frame.length ≤ segment.remaining) (closes : Closes site desk) :
    Does (Writer.place record desk) fun _ after => Closes site after := by
  refine ((shows_place h framable later fits room).keeping
    (Writer.keeps_place (f := fun w => w.summary.segments) (fun _ _ => rfl) record)).mono ?_
  rintro - after ⟨⟨open_, volumes', shows, -, put⟩, same⟩
  obtain ⟨closed, shown, total⟩ := closes
  have lengths := put.length_eq
  rw [List.length_map, List.length_map] at lengths
  rw [h.length_nodes] at total
  refine ⟨closed, ?_, ?_⟩
  · show Counted after.writer.summary.segments closed
    rw [same]
    exact shown
  · rw [shows.length_nodes, lengths, if_pos (Option.isSome_iff_ne_none.mpr open_)]
    split at total
    · next opened => rw [if_pos opened]; omega
    · next opened => rw [if_neg opened]; omega

theorem closes_append (h : Shows site desk volumes) (framable : record.Framable)
    (later : ∀ r ∈ (volumes.map (·.records)).flatten, r.index < record.index)
    (fits : (segmentBytes [record]).length ≤ desk.writer.config.segmentSize.toNat)
    (closes : Closes site desk) :
    Does ((Writer.rollIfFull record.frame.length >>= fun _ => Writer.place record) desk) fun _ after =>
      Closes site after := by
  have ready := (shows_rollIfFull h record.frame.length).imp_and fun _ : True =>
    (Writer.book_rollIfFull record.frame.length desk).imp_and fun _ : True =>
      closes_rollIfFull h closes record.frame.length
  refine Does.bind ready ?_
  rintro - ready ⟨⟨⟨volumes', shows, -, parts⟩, room, -⟩, made⟩
  obtain ⟨book, closes'⟩ := made trivial
  have config : ready.writer.config = desk.writer.config := by rw [book]
  rw [← parts] at later
  exact closes_place shows framable later (config ▸ fits) room (closes' trivial)

end Segments

/-! ## appends -/

namespace Writer

variable {desk after : Desk} {kind : RecordKind} {payload : Bytes} {batch : Batch} {e : JournalError}
  {index : UInt64}

/-- What a successful append has done: room has been made for the record, which has been placed and
counted. -/
theorem of_appendRecord_ok (done : appendRecord kind payload desk = .ok index after) :
    let record := desk.writer.record kind payload
    record.Framable ∧ ¬ desk.writer.emptyRoom < record.frame.length ∧
      ∃ placed, (rollIfFull record.frame.length >>= fun _ => place record) desk = .ok () placed ∧
        count record placed = .ok () after := by
  intro record
  rw [appendRecord_apply] at done
  simp only at done
  split at done
  · cases done
  · next framable =>
    split at done
    · cases done
    · next room =>
      rw [← bind_assoc] at done
      obtain ⟨_, placed, places, rest⟩ := of_bind_ok done
      cases rest
      exact ⟨not_not.mp framable, room, placed, places, rfl⟩

/-- A batch that is refused for its size leaves everything as it was. -/
theorem of_appendEncoded_error (failed : appendEncoded batch desk = .error e after)
    (size : ¬ e.isIo) : after = desk := by
  rcases of_bind_error failed with got | ⟨_, _, got, rest⟩
  · cases got
  cases got
  rcases of_bind_error rest with refused | ⟨_, _, -, counted⟩
  · exact of_appendRecord_error refused size
  · cases counted

end Writer

/-- An append that a ledger refuses leaves it as it was. -/
theorem Ledger.of_append_error {l l' : Ledger} {kind : RecordKind} {payload : Bytes} {e : JournalError}
    (failed : append kind payload l = .error e l') : l' = l := by
  rw [append] at failed
  split at failed
  · cases failed
    rfl
  · split at failed
    · cases failed
      rfl
    · cases failed

/-! ## records -/

/-- The desk tracks the ledger, and its summary shows the records of the ledger and the segments closed. -/
structure Recorded (site : Site) (desk : Desk) (ledger : Ledger) : Prop
    extends Tracks site (fun _ => True) [] desk ledger where
  records : Counted desk.writer.summary.records ledger.accepted.length
  last : desk.writer.summary.lastIndex = ledger.records.getLast?.map (·.index)
  closes : ledger.Numbered → Closes site desk

section Records

variable {site : Site} {desk after : Desk} {ledger promised : Ledger}

/-- A record that is appended is counted with its index. -/
theorem Recorded.append (h : Recorded site desk ledger) {kind : RecordKind} {payload : Bytes}
    {index : UInt64} (done : Writer.appendRecord kind payload desk = .ok index after)
    (accepted : Ledger.append kind payload ledger = .ok index promised)
    (tracks : Tracks site (fun _ => True) [] after promised) : Recorded site after promised := by
  obtain ⟨framable, room, placed, places, counted⟩ := Writer.of_appendRecord_ok done
  obtain ⟨-, rfl⟩ := Ledger.of_append accepted
  have kept : Writer.Keeps (fun w => (w.summary.records, w.summary.lastIndex))
      (Writer.rollIfFull (desk.writer.record kind payload).frame.length >>= fun _ =>
        Writer.place (desk.writer.record kind payload)) :=
    (Writer.keeps_rollIfFull (fun _ _ => rfl) (fun _ _ => rfl) _).bind fun _ =>
      Writer.keeps_place (fun _ _ => rfl) _
  have same := kept desk
  rw [places] at same
  obtain ⟨records, -⟩ := Prod.mk.inj same
  cases counted
  refine ⟨tracks, ?_, ?_, fun numbered => ?_⟩
  · show Counted (tick placed.writer.summary.records) (ledger.accepted ++ [(kind, payload)]).length
    rw [List.length_append, List.length_singleton]
    exact (records ▸ h.records).tick
  · show some (desk.writer.record kind payload).index = _
    rw [Ledger.records_accept, List.getLast?_concat, h.record_eq]
    rfl
  · have before := Nat.le_of_lt numbered.room
    obtain ⟨volumes, shows, -, divided⟩ := h.shows before
    have closes := closes_append shows framable (h.record_eq kind payload ▸ divided.later numbered.room)
      (LogRecord.fits_of_room room) (h.closes before)
    rw [places] at closes
    cases closes with
    | done closes => exact closes

theorem recorded_appendRecord (h : Recorded site desk ledger) (kind : RecordKind) (payload : Bytes) :
    Agrees (Recorded site) (Writer.appendRecord kind payload desk)
      (Ledger.append kind payload ledger) := by
  refine (agrees_appendRecord h.toTracks kind payload).strengthen ?_ ?_
  · exact fun index after promised done accepted tracks => h.append done accepted tracks
  · intro e after promised failed size refused tracks
    obtain rfl := Writer.of_appendRecord_error failed size
    obtain rfl := Ledger.of_append_error refused
    exact h

/-- The number of entries is no matter of records. -/
theorem recorded_appendEncoded (h : Recorded site desk ledger) (batch : Batch) :
    Agrees (Recorded site) (Writer.appendEncoded batch desk)
      (Ledger.appendEncoded batch ledger) := by
  rw [Writer.appendEncoded, Ledger.appendEncoded]
  refine Agrees.get_bind (Agrees.promised_get_bind ?_)
  rw [h.codec, ← bind_pure (Ledger.append .stateMachineData (ledger.codec.encode batch))]
  refine (recorded_appendRecord h _ _).bind fun index after promised _ recorded => ?_
  exact .inr ⟨rfl, recorded.with_summary _, recorded.records, recorded.last, recorded.closes⟩

end Records

/-! ## entries -/

/-- The summary shows the records of the ledger and the entries of their batches. -/
structure Summed (site : Site) (desk : Desk) (ledger : Ledger) : Prop
    extends Recorded site desk ledger where
  entries : ∃ stored, ledger.codec.unpack none ledger.records = (stored, none) ∧
    Counted desk.writer.summary.entries stored.length

section Entries

variable {site : Site} {desk : Desk} {ledger : Ledger}

/-- A record of another kind has no entries. -/
theorem summed_appendRecord (h : Summed site desk ledger) {kind : RecordKind}
    (foreign : kind ≠ .stateMachineData) (payload : Bytes) :
    Agrees (Summed site) (Writer.appendRecord kind payload desk)
      (Ledger.append kind payload ledger) := by
  refine (recorded_appendRecord h.toRecorded kind payload).strengthen ?_ ?_
  · intro index after promised done accepted recorded
    have kept := Writer.keeps_appendRecord kind payload desk
    rw [done] at kept
    have same : after.writer.summary.entries = desk.writer.summary.entries := congrArg Prod.fst kept
    obtain ⟨-, rfl⟩ := Ledger.of_append accepted
    obtain ⟨stored, unpacked, counted⟩ := h.entries
    refine ⟨recorded, stored, ?_, same ▸ counted⟩
    rw [Ledger.records_accept, ← List.append_nil stored]
    exact Codec.unpack_concat unpacked (ledger.codec.unpack_foreign foreign)
  · intro e after promised failed size refused recorded
    obtain rfl := Writer.of_appendRecord_error failed size
    obtain rfl := Ledger.of_append_error refused
    exact h

/-- The entries of a batch are counted once the record of the batch has been appended. -/
theorem summed_appendEncoded (h : Summed site desk ledger) (batch : Batch) :
    Agrees (Summed site) (Writer.appendEncoded batch desk)
      (Ledger.appendEncoded batch ledger) := by
  refine (recorded_appendEncoded h.toRecorded batch).strengthen ?_ ?_
  · intro index after promised done accepted recorded
    obtain ⟨framable, rfl⟩ := Ledger.of_append accepted
    obtain ⟨_, _, got, rest⟩ := of_bind_ok done
    cases got
    obtain ⟨_, between, appended, rest⟩ := of_bind_ok rest
    cases rest
    have kept := Writer.keeps_appendRecord .stateMachineData (desk.writer.codec.encode batch) desk
    rw [appended] at kept
    have same : between.writer.summary.entries = desk.writer.summary.entries := congrArg Prod.fst kept
    obtain ⟨stored, unpacked, counted⟩ := h.entries
    refine ⟨recorded, stored ++ batch.entries, ?_, ?_⟩
    · rw [Ledger.records_accept]
      exact Codec.unpack_concat unpacked (ledger.codec.unpack_encode rfl rfl framable)
    · show Counted (tickBy between.writer.summary.entries batch.entries.length) _
      rw [List.length_append, same]
      exact counted.tickBy batch.entries.length
  · intro e after promised failed size refused recorded
    obtain rfl := Writer.of_appendEncoded_error failed size
    obtain rfl := Ledger.of_append_error refused
    exact h

/-- Entries in the buffer are not counted. -/
theorem ledgered_summed (site : Site) : Ledgered (Summed site) :=
  ⟨fun h => h.toBooks, summed_appendEncoded, fun h _ _ _ _ entries sequence =>
    ⟨⟨h.with_buffer entries sequence, h.records, h.last, h.closes⟩, h.entries⟩⟩

/-- Closing a segment is counted, and is nothing to the records and the entries. -/
theorem Summed.does_roll (h : Summed site desk ledger) :
    Does (Writer.roll desk) fun _ after => Summed site after ledger := by
  have closes (numbered : ledger.Numbered) : Does (Writer.roll desk) fun _ after => Closes site after := by
    obtain ⟨volumes, shows, -, -⟩ := h.shows numbered
    exact closes_roll shows (h.closes numbered)
  have kept := Writer.keeps_roll
    (f := fun w => (w.summary.records, w.summary.lastIndex, w.summary.entries))
    (fun _ _ => rfl) (fun _ _ => rfl)
  refine (((h.toTracks.does_roll trivial).imp_and closes).keeping kept).mono ?_
  rintro - after ⟨⟨tracks, closes⟩, same⟩
  obtain ⟨records, same⟩ := Prod.mk.inj same
  obtain ⟨last, entries⟩ := Prod.mk.inj same
  exact ⟨⟨tracks, records ▸ h.records, last.trans h.last, closes⟩, entries ▸ h.entries⟩

/-! ## runs -/

/-- A writer that has been created has counted nothing. -/
theorem summed_start {tree made : FileTree} {root : String} {config : WriterConfig} {codec : Codec}
    {w : Writer} (created : Writer.create tree root config codec = (.ok w, made)) :
    ∃ site : Site, site.tree = made ∧ site.dir = groupDirectory root config.group ∧
      Summed site ⟨w, made⟩ (Ledger.start config codec) := by
  obtain ⟨site, rfl, dir, follows⟩ := Writer.exists_site created fun _ => True
  obtain ⟨_, _, _, _, rfl⟩ := Writer.of_create created
  exact ⟨site, rfl, dir, ⟨follows.tracks, counted_zero, rfl, fun _ => ⟨0, counted_zero, rfl⟩⟩, [], rfl,
    counted_zero⟩

/-- **What is written is counted.** In a run in which the file system refuses nothing and no record for
the state machine is appended but by batches, the summary shows what the ledger has. -/
theorem Summed.run (h : Summed site desk ledger) (operations : List Operation)
    (protocol : ∀ kind payload, .appendRecord kind payload ∈ operations → kind ≠ .stateMachineData)
    (granted : ∀ answer ∈ (performAll Writer.perform operations desk).1, ¬ answer.isIo) :
    Summed site (performAll Writer.perform operations desk).2
      (performAll Ledger.perform operations ledger).2 := by
  -- what is still to come has no such record either
  obtain ⟨-, summed, -⟩ := agrees_performAll
    (R := fun rest desk ledger => Summed site desk ledger ∧
      ∀ kind payload, .appendRecord kind payload ∈ rest → kind ≠ .stateMachineData)
    (fun operation rest desk ledger related => by
      obtain ⟨summed, protocol⟩ := related
      refine ((ledgered_summed site).perform summed operation ?_ fun _ summed => summed.does_roll).imp
        fun _ summed => ⟨summed, fun kind payload mem => protocol kind payload (List.mem_cons_of_mem _ mem)⟩
      rintro kind payload rfl
      exact summed_appendRecord summed (protocol kind payload List.mem_cons_self) payload)
    operations ⟨h, protocol⟩ granted
  exact summed

end Entries

/-! ## reading it back -/

/-- The counters of a source and a summary that is one of so many records show the same. -/
structure StreamStats.Matches (stats : StreamStats) (summary : WriterSummary) (records : Nat) : Prop where
  read : stats.recordsRead = summary.records
  emitted : stats.entriesEmitted = summary.entries
  opened : stats.segmentsOpened = summary.segments
  /-- The records without a batch and those with one are all records, as far as a counter shows them. -/
  shown : tickBy stats.recordsSkipped stats.batchesDecoded.toNat = summary.records
  sum : records < UInt64.size →
    stats.recordsSkipped.toNat + stats.batchesDecoded.toNat = summary.records.toNat

/-- A source over the files of a desk without an open segment counts what the summary shows. -/
theorem Summed.matches {site : Site} {desk : Desk} {ledger : Ledger} (h : Summed site desk ledger)
    (numbered : ledger.Numbered) (closed : desk.writer.current = none) (group : Uuid) :
    let summary := desk.writer.summary
    let segments := segmentsIn desk.tree site.dir
    let stream := RecordStream.ofSegments segments ⟨group, 0, none⟩
    let source := JournalEntries.ofRecords stream ledger.codec
    ∃ entries, Gives (RecordStream.next desk.tree) ledger.records none stream ∧
      Gives (JournalEntries.next desk.tree) entries none source ∧
      Counted summary.segments segments.length ∧ Counted summary.entries entries.length ∧
      ∀ calls, entries.length < calls →
        (stateAfter (JournalEntries.next desk.tree) calls source).stats.Matches summary
          ledger.records.length := by
  intro summary segments stream source
  obtain ⟨volumes, shows, -, divided⟩ := h.shows numbered
  have listed : segments = volumes.map (Volume.segment site) := shows.holds.segmentsIn_eq
  have trace : traceOf desk.tree segments = ⟨ledger.records, none⟩ := by
    rw [listed, shows.holds.traceOf_eq fun v mem => mem, List.flatMap_def, divided.records]
  have readable : ∀ s ∈ segments, s.Readable desk.tree := by
    rw [listed, List.forall_mem_map]
    intro v mem
    obtain ⟨r, reads, given⟩ := shows.holds.reader_segment mem
    exact ⟨r, reads, congrArg Trace.fault given⟩
  -- without an open segment all segments are closed ones
  have files : Counted summary.segments segments.length := by
    obtain ⟨count, counted, total⟩ := h.closes numbered
    rw [shows.length_nodes, closed] at total
    rw [listed, List.length_map, Nat.add_left_cancel total]
    exact counted
  have given := RecordStream.gives_select desk.tree segments ⟨group, 0, none⟩
  rw [StreamConfig.select_all, trace] at given
  have held : (traceOf desk.tree segments).records = ledger.records := congrArg Trace.records trace
  obtain ⟨stored, unpacked, counted⟩ := h.entries
  have batches : ledger.codec.unpack none (traceOf desk.tree segments).records = (stored, none) :=
    held ▸ unpacked
  refine ⟨stored, given, ?_, files, counted, fun calls enough => ?_⟩
  · have drained := JournalEntries.counts_drained group readable batches (Nat.lt_succ_self _)
    exact drained.1
  · obtain ⟨-, opened, read, skipped, decoded, emitted⟩ :=
      JournalEntries.counts_drained group readable batches enough
    rw [held] at read skipped decoded
    have records : Counted summary.records ledger.records.length := ledger.length_records ▸ h.records
    -- every record either has a batch or has none
    have parts : (ledger.records.countP fun record => record.kind ≠ .stateMachineData) +
        (ledger.records.countP fun record => record.kind = .stateMachineData) = ledger.records.length := by
      rw [Nat.add_comm, List.length_eq_countP_add_countP fun record => record.kind = .stateMachineData]
      simp
    refine ⟨read.unique records, emitted.unique counted, opened.unique files, ?_, fun few => ?_⟩
    · have both := skipped.add decoded
      rw [parts] at both
      exact both.unique records
    · rw [skipped.toNat_eq (by omega), decoded.toNat_eq (by omega), records.toNat_eq few, parts]

namespace Writer

/-- An action that reports something has succeeded. -/
theorem of_run' {α : Type} {x : WriterM α} {desk : Desk} {a : α} (reported : x.run' desk = some a) :
    ∃ after, x desk = .ok a after := by
  delta EStateM.run' EStateM.run at reported
  cases done : x desk with
  | ok b after =>
    rw [done] at reported
    cases reported
    exact ⟨after, rfl⟩
  | error e after =>
    rw [done] at reported
    cases reported

/-- What `finish` reports is the summary of the writer that it leaves. -/
theorem summary_of_finish {desk after : Desk} {summary : WriterSummary}
    (finished : finish desk = .ok summary after) : summary = after.writer.summary := by
  obtain ⟨_, _, -, rest⟩ := of_bind_ok finished
  obtain ⟨_, rolled, -, rest⟩ := of_bind_ok rest
  cases rest
  rfl

variable {tree made : FileTree} {root : String} {config : WriterConfig} {codec : Codec} {w : Writer}

/-- **What a writer and a source have counted is the same.** Take a created writer, operations in which the
file system refuses nothing, though some may have been refused for their size, and a `finish` that succeeds,
where no record for the state machine is appended but by batches and where the indices suffice. Then a
source over the files of the group gives some entries and nothing more, without an error, and its counters
show from then on what `finish` has reported: the records, the entries and the segments, which are those
listed. Every record has been skipped or decoded, and the last index is that of the last record, if there
is one. Only the empty path is not taken as a root; the segments of the group are read all the same. -/
theorem statistics_agree (operations : List Operation) {summary : WriterSummary} {after : Desk}
    (created : create tree root config codec = (.ok w, made))
    (granted : ∀ answer ∈ (performAll perform operations ⟨w, made⟩).1, ¬ answer.isIo)
    (finished : finish (performAll perform operations ⟨w, made⟩).2 = .ok summary after)
    (protocol : ∀ kind payload, .appendRecord kind payload ∈ operations → kind ≠ .stateMachineData)
    (numbered : config.startIndex.toNat +
      (performAll Ledger.perform (operations ++ [.finish]) (.start config codec)).2.accepted.length ≤
        UInt64.size) :
    let segments := segmentsIn after.tree (groupDirectory root config.group)
    let stream := RecordStream.ofSegments segments ⟨config.group, 0, none⟩
    let source := JournalEntries.ofRecords stream codec
    listSegments after.tree root config.group =
        (if root = "" then .error (.invalidDirectory "") else .ok segments) ∧
      JournalEntries.ofRoot after.tree root ⟨config.group, 0, none⟩ codec =
        (if root = "" then .error (.invalidDirectory "") else .ok source) ∧
      ∃ records entries, Gives (RecordStream.next after.tree) records none stream ∧
        Gives (JournalEntries.next after.tree) entries none source ∧
        summary.lastIndex = records.getLast?.map (·.index) ∧ Counted summary.records records.length ∧
        Counted summary.segments segments.length ∧ Counted summary.entries entries.length ∧
        ∀ calls, entries.length < calls →
          (stateAfter (JournalEntries.next after.tree) calls source).stats.Matches summary
            records.length := by
  intro segments stream source
  have last : perform .finish (performAll perform operations ⟨w, made⟩).2 = .ok none after := by
    rw [perform, map_apply, finished]
  have whole : performAll perform (operations ++ [.finish]) ⟨w, made⟩ =
      ((performAll perform operations ⟨w, made⟩).1 ++ [.ok none], after) := by
    rw [performAll_append, performAll_of_ok last]
    rfl
  obtain ⟨site, rfl, dir, start⟩ := summed_start created
  have summed := start.run (operations ++ [.finish])
    (fun kind payload mem => protocol kind payload (by simpa using mem))
    (by
      rw [whole, List.forall_mem_append, List.forall_mem_singleton]
      exact ⟨granted, Bool.false_ne_true⟩)
  have enough :
      (performAll Ledger.perform (operations ++ [.finish]) (.start config codec)).2.Numbered :=
    Ledger.numbered_performAll_iff.mpr numbered
  have codec_eq := Ledger.codec_performAll (operations ++ [.finish]) (.start config codec)
  rw [whole] at summed
  generalize (performAll Ledger.perform (operations ++ [.finish]) (.start config codec)).2 = ledger
    at enough summed codec_eq
  obtain rfl : ledger.codec = codec := codec_eq
  have counted := summed.matches enough (current_of_closes rfl last) config.group
  rw [dir, ← summary_of_finish finished] at counted
  obtain ⟨entries, given, handed, counts⟩ := counted
  obtain rfl := summary_of_finish finished
  obtain ⟨volumes, shows, -, -⟩ := summed.shows enough
  have extended := shows.holds.extends_site
  have directory : after.tree.isDirectory (groupDirectory root config.group) := dir ▸ shows.holds.isDirectory
  exact ⟨listSegments_eq created extended directory,
    JournalEntries.ofRoot_of_records (ofRoot_eq created extended directory), ledger.records, entries,
    given, handed, summed.last, ledger.length_records ▸ summed.records, counts⟩

/-- An append that is too large, a batch without entries, a segment closed on demand, and an entry. -/
def mixedCalls : List Operation :=
  [.appendRecord .metadata (List.replicate 200 0), .appendBatch ⟨[]⟩, .roll, .writeEntry ⟨none, none⟩]

/-- Two records with one entry have been written to two segments, and this is what a source counts. -/
theorem statistics_agree_of_mixed :
    create .empty "j" roomyConfig .packed = (.ok (roomyDesk "j").writer, (roomyDesk "j").tree) ∧
    (∀ answer ∈ (performAll perform mixedCalls (roomyDesk "j")).1, ¬ answer.isIo) ∧
    (∀ kind payload, .appendRecord kind payload ∈ mixedCalls → kind ≠ .stateMachineData) ∧
    roomyConfig.startIndex.toNat +
      (performAll Ledger.perform (mixedCalls ++ [.finish])
        (.start roomyConfig .packed)).2.accepted.length ≤ UInt64.size ∧
    ∃ after source entries,
      finish (performAll perform mixedCalls (roomyDesk "j")).2 = .ok ⟨2, 1, 2, some 6⟩ after ∧
      JournalEntries.ofRoot after.tree "j" ⟨.defaultGroup, 0, none⟩ .packed = .ok source ∧
      Gives (JournalEntries.next after.tree) entries none source ∧
      ∀ calls, entries.length < calls →
        (stateAfter (JournalEntries.next after.tree) calls source).stats.Matches ⟨2, 1, 2, some 6⟩ 2 := by
  have created : create .empty "j" roomyConfig .packed =
      (.ok (roomyDesk "j").writer, (roomyDesk "j").tree) := by decide +kernel
  have granted : ∀ answer ∈ (performAll perform mixedCalls (roomyDesk "j")).1, ¬ answer.isIo := by
    decide +kernel
  have protocol : ∀ kind payload, .appendRecord kind payload ∈ mixedCalls →
      kind ≠ .stateMachineData := by
    intro kind payload mem
    simp [mixedCalls] at mem
    rw [mem.1]
    decide
  have numbered : roomyConfig.startIndex.toNat +
      (performAll Ledger.perform (mixedCalls ++ [.finish])
        (.start roomyConfig .packed)).2.accepted.length ≤ UInt64.size := by decide +kernel
  have reported : finish.run' (performAll perform mixedCalls (roomyDesk "j")).2 =
      some ⟨2, 1, 2, some 6⟩ := by decide +kernel
  obtain ⟨after, finished⟩ := of_run' reported
  obtain ⟨-, opened, records, entries, -, given, -, two, -, -, matched⟩ :=
    statistics_agree mixedCalls created granted finished protocol numbered
  have length : records.length = 2 := by
    unfold Counted at two
    simp at two
    omega
  exact ⟨created, granted, protocol, numbered, after, _, entries, finished, opened, given,
    length ▸ matched⟩

/-- Under the empty path a writer finishes whose entry a source does not come to: it does not take the
empty path as a root. -/
theorem statistics_unread_of_empty_path :
    create .empty "" roomyConfig .packed = (.ok (roomyDesk "").writer, (roomyDesk "").tree) ∧
    (performAll perform [.writeEntry ⟨none, none⟩] (roomyDesk "")).1 = [.ok none] ∧
    ∃ after,
      finish (performAll perform [.writeEntry ⟨none, none⟩] (roomyDesk "")).2 =
        .ok ⟨1, 1, 1, some 5⟩ after ∧
      JournalEntries.ofRoot after.tree "" ⟨.defaultGroup, 0, none⟩ .packed =
        .error (.invalidDirectory "") := by
  have reported : finish.run' (performAll perform [.writeEntry ⟨none, none⟩] (roomyDesk "")).2 =
      some ⟨1, 1, 1, some 5⟩ := by decide +kernel
  obtain ⟨after, finished⟩ := of_run' reported
  exact ⟨by decide +kernel, by decide +kernel, after, finished, rfl⟩

end Writer

end RaftJournal
