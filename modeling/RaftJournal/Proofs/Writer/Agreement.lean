import RaftJournal.Proofs.Writer.Placing

/-! # Writers keep to their ledgers

A desk **`Follows`** a ledger when both are about to do the same and the records in the files of the
desk are those of the ledger. It **`Tracks`** a ledger when this is so as long as the indices suffice,
and both are about to do the same in any case. A writer's operation **`Agrees`** with that of its ledger:
unless the file system refuses, both give the same answer and the desk tracks the ledger afterwards.

The records of the ledger are **`Ledger.Divided`** among the segments: where one ends it had no room for
the next record, or it was closed on demand.

* **`agrees_appendRecord`** and **`Tracks.does_roll`** are the only operations that look at files; the
  others are composed of them, in the same way for everything that is kept with the batches
  (**`Ledgered`**).
* **`tracks_performAll`** is the same for a whole run, and **`follows_performAll`** for one for which the
  indices suffice. -/

namespace RaftJournal

/-! ## following a ledger -/

/-- The records of a ledger are those of some parts, one after the other, of which two that follow each
other are parted. There may be no open part only at first, or if the last has been closed on demand. -/
structure Ledger.Divided (l : Ledger) (rolled : Nat → Prop) (closed : Prop)
    (parts : List (List LogRecord)) : Prop where
  records : parts.flatten = l.records
  parted : parts.IsChain (Parted l.config.segmentSize.toNat rolled)
  free : closed → parts = [] ∨ rolled l.nextIndex

/-- The writer of the desk goes by what the ledger goes by. -/
structure Books (desk : Desk) (ledger : Ledger) : Prop where
  config : desk.writer.config = ledger.config
  codec : desk.writer.codec = ledger.codec
  pending : desk.writer.pending = ledger.pending
  sequence : desk.writer.nextSequenceNumber = ledger.nextSequenceNumber
  index : desk.writer.nextIndex = tickBy ledger.config.startIndex ledger.accepted.length

/-- The desk goes on like the ledger and has its records in the files, where segments have been closed on
demand at the given indices only. -/
structure Follows (site : Site) (rolled : Nat → Prop) (desk : Desk) (ledger : Ledger) : Prop
    extends Books desk ledger where
  shows : ∃ volumes, Shows site desk volumes ∧
    ledger.Divided rolled (desk.writer.current = none) (volumes.map (·.records))

/-- The desk goes on like the ledger. As long as the indices suffice it has its records in the files, where
the volumes that there were before are still there. -/
structure Tracks (site : Site) (rolled : Nat → Prop) (before : List Volume) (desk : Desk)
    (ledger : Ledger) : Prop extends Books desk ledger where
  shows : ledger.Numbered → ∃ volumes, Shows site desk volumes ∧ Evolves before volumes ∧
    ledger.Divided rolled (desk.writer.current = none) (volumes.map (·.records))

/-- Both give the same answer, and the desk and the ledger afterwards are related. -/
def Same {α : Type} (R : Desk → Ledger → Prop) (result : EStateM.Result JournalError Desk α)
    (promised : EStateM.Result JournalError Ledger α) : Prop :=
  match result, promised with
  | .ok a desk, .ok b ledger => a = b ∧ R desk ledger
  | .error e desk, .error e' ledger => e = e' ∧ R desk ledger
  | _, _ => False

/-- The error of a result is one of the file system. -/
def Refused {α : Type} (result : EStateM.Result JournalError Desk α) : Prop :=
  match result with
  | .ok _ _ => False
  | .error e _ => e.isIo

/-- The file system refuses, or both do the same. -/
def Agrees {α : Type} (R : Desk → Ledger → Prop) (result : EStateM.Result JournalError Desk α)
    (promised : EStateM.Result JournalError Ledger α) : Prop :=
  Refused result ∨ Same R result promised

section Relations

variable {R R' : Desk → Ledger → Prop} {desk : Desk} {ledger : Ledger}

/-- What the file system refuses is an error of it. -/
theorem Refused.exists_eq {α : Type} {result : EStateM.Result JournalError Desk α}
    (h : Refused result) : ∃ e after, result = .error e after ∧ e.isIo := by
  cases result with
  | ok a after => cases h
  | error e after => exact ⟨e, after, rfl, h⟩

/-- Where the ledger has an answer the desk has the same one. -/
theorem Same.exists_ok {α : Type} {result : EStateM.Result JournalError Desk α} {a : α}
    (h : Same R result (.ok a ledger)) : ∃ after, result = .ok a after ∧ R after ledger := by
  cases result with
  | ok b after =>
    obtain ⟨rfl, related⟩ := h
    exact ⟨after, rfl, related⟩
  | error e after => cases h

/-- An error that is promised is given, and the states still correspond. -/
theorem Same.exists_error {α : Type} {result : EStateM.Result JournalError Desk α}
    {e : JournalError} (h : Same R result (.error e ledger)) :
    ∃ after, result = .error e after ∧ R after ledger := by
  cases result with
  | ok b after => cases h
  | error e' after =>
    obtain ⟨rfl, related⟩ := h
    exact ⟨after, rfl, related⟩

/-- States that agree may be told less of. -/
theorem Agrees.imp {α : Type} {result : EStateM.Result JournalError Desk α}
    {promised : EStateM.Result JournalError Ledger α} (h : Agrees R result promised)
    (imp : ∀ after, R after (finalState promised) → R' after (finalState promised)) :
    Agrees R' result promised := by
  refine h.imp_right fun same => ?_
  cases promised with
  | ok a ledger =>
    obtain ⟨after, rfl, related⟩ := same.exists_ok
    exact ⟨rfl, imp after related⟩
  | error e ledger =>
    obtain ⟨after, rfl, related⟩ := same.exists_error
    exact ⟨rfl, imp after related⟩

/-- Where the file system does not refuse, both give the same answer and are related afterwards. -/
theorem Agrees.of_granted {result : EStateM.Result JournalError Desk (Option UInt64)}
    {promised : EStateM.Result JournalError Ledger (Option UInt64)} (h : Agrees R result promised)
    (granted : ¬ Refused result) :
    answerOf result = answerOf promised ∧ R (finalState result) (finalState promised) := by
  have same := h.resolve_left granted
  cases promised with
  | ok index? ledger =>
    obtain ⟨after, rfl, related⟩ := same.exists_ok
    exact ⟨rfl, related⟩
  | error e ledger =>
    obtain ⟨after, rfl, related⟩ := same.exists_error
    exact ⟨rfl, related⟩

/-- Actions that agree one after the other agree together. -/
theorem Agrees.bind {α β : Type} {x : WriterM α} {y : LedgerM α} {f : α → WriterM β}
    {g : α → LedgerM β} (hx : Agrees R (x desk) (y ledger))
    (hf : ∀ a after promised, y ledger = .ok a promised → R after promised →
      Agrees R (f a after) (g a promised)) : Agrees R ((x >>= f) desk) ((y >>= g) ledger) := by
  rw [bind_apply, bind_apply]
  rcases hx with refused | same
  · obtain ⟨e, after, hr, io⟩ := refused.exists_eq
    rw [hr]
    exact .inl io
  · cases hy : y ledger with
    | error e ledger' =>
      rw [hy] at same
      obtain ⟨after, hr, related⟩ := same.exists_error
      rw [hr]
      exact .inr ⟨rfl, related⟩
    | ok a ledger' =>
      rw [hy] at same
      obtain ⟨after, hr, related⟩ := same.exists_ok
      rw [hr]
      exact hf a after ledger' hy related

theorem Agrees.get_bind {α : Type} {f : Desk → WriterM α}
    {promised : EStateM.Result JournalError Ledger α} (h : Agrees R (f desk desk) promised) :
    Agrees R ((get >>= f) desk) promised := h

theorem Agrees.promised_get_bind {α : Type} {result : EStateM.Result JournalError Desk α}
    {f : Ledger → LedgerM α} (h : Agrees R result (f ledger ledger)) :
    Agrees R result ((get >>= f) ledger) := h

theorem agrees_pure {α : Type} (h : R desk ledger) (a : α) :
    Agrees R ((pure a : WriterM α) desk) ((pure a : LedgerM α) ledger) :=
  .inr ⟨rfl, h⟩

/-- What becomes of the answer does not matter. -/
theorem Agrees.map {α β : Type} {x : WriterM α} {y : LedgerM α}
    (h : Agrees R (x desk) (y ledger)) (f : α → β) :
    Agrees R ((f <$> x) desk) ((f <$> y) ledger) := by
  rw [map_eq_pure_bind, map_eq_pure_bind]
  exact h.bind fun a _ _ _ related => agrees_pure related (f a)

/-- What a writer does to its files alone is nothing to the ledger. -/
theorem Agrees.of_does {α : Type} {x : WriterM Unit} {f : WriterM α}
    {promised : EStateM.Result JournalError Ledger α} {P : Desk → Prop}
    (does : Does (x desk) fun _ after => P after)
    (hf : ∀ after, P after → Agrees R (f after) promised) :
    Agrees R ((x >>= fun _ => f) desk) promised := by
  rw [bind_apply]
  generalize x desk = result at does ⊢
  cases does with
  | refused io => exact .inl io
  | done h => exact hf _ h

end Relations

variable {site : Site} {rolled : Nat → Prop} {before : List Volume} {desk : Desk} {ledger : Ledger}

/-- The volumes of a desk that follows a ledger may be told from those that come later. -/
theorem Follows.tracks (h : Follows site rolled desk ledger) :
    Tracks site rolled [] desk ledger := by
  obtain ⟨volumes, shows, divided⟩ := h.shows
  exact ⟨h.toBooks, fun _ => ⟨volumes, shows, fun v mem => absurd mem List.not_mem_nil, divided⟩⟩

/-- As long as the indices suffice, a desk that tracks a ledger follows it. -/
theorem Tracks.follows (h : Tracks site rolled before desk ledger) (numbered : ledger.Numbered) :
    Follows site rolled desk ledger := by
  obtain ⟨volumes, shows, -, divided⟩ := h.shows numbered
  exact ⟨h.toBooks, volumes, shows, divided⟩

/-- What the files are is nothing to the book. -/
theorem Books.of_sameBook (h : Books desk ledger) {after : Desk}
    (book : desk.writer.SameBook after.writer) : Books after ledger := by
  refine ⟨?_, ?_, ?_, ?_, ?_⟩
  · rw [book]
    exact h.config
  · rw [book]
    exact h.codec
  · rw [book]
    exact h.pending
  · rw [book]
    exact h.sequence
  · rw [book]
    exact h.index

/-! ## records -/

/-- After a segment has been closed on demand the desk tracks the ledger as before. -/
theorem Tracks.does_roll (h : Tracks site rolled before desk ledger)
    (demanded : rolled ledger.nextIndex) :
    Does (Writer.roll desk) fun _ after => Tracks site rolled before after ledger := by
  have files (numbered : ledger.Numbered) : Does (Writer.roll desk) fun _ after =>
      ∃ volumes, Shows site after volumes ∧ Evolves before volumes ∧
        ledger.Divided rolled (after.writer.current = none) (volumes.map (·.records)) := by
    obtain ⟨volumes, shows, evolves, divided⟩ := h.shows numbered
    refine (shows_roll shows).mono ?_
    rintro - after ⟨-, volumes', shows', evolves', parts⟩
    refine ⟨volumes', shows', evolves.trans evolves', ?_⟩
    rw [parts]
    exact ⟨divided.records, divided.parted, fun _ => .inr demanded⟩
  refine ((Writer.book_roll desk).imp_and files).mono ?_
  rintro - after ⟨book, shows⟩
  exact ⟨h.toBooks.of_sameBook book, shows⟩

/-- The next record is numbered by the next index, if there is one. -/
theorem Ledger.toNat_index_record {l : Ledger} (room : l.nextIndex < UInt64.size) (kind : RecordKind)
    (payload : Bytes) : (l.record l.accepted.length kind payload).index.toNat = l.nextIndex :=
  toNat_tickBy room

/-- The records of a ledger are divided as before if the next one is placed behind them. -/
theorem Ledger.Divided.accept {closed closed' : Prop} {parts parts' : List (List LogRecord)}
    (h : ledger.Divided rolled closed parts) (filled : [] ∉ parts)
    (room : ledger.nextIndex < UInt64.size) {kind : RecordKind} {payload : Bytes}
    (placed : Placed ledger.config.segmentSize.toNat
      (ledger.record ledger.accepted.length kind payload) closed parts parts')
    (open_ : ¬ closed') : (ledger.accept kind payload).Divided rolled closed' parts' := by
  refine ⟨?_, ?_, fun none => absurd none open_⟩
  · rw [placed.flatten_eq, h.records, records_accept]
  · refine placed.parted h.parted filled ?_
    rw [toNat_index_record room]
    exact h.free

/-- The records before are numbered below the next index, if that has not run out. -/
theorem Ledger.Divided.later {closed : Prop} {parts : List (List LogRecord)}
    (h : ledger.Divided rolled closed parts) (room : ledger.nextIndex < UInt64.size)
    {kind : RecordKind} {payload : Bytes} :
    ∀ r ∈ parts.flatten, r.index < (ledger.record ledger.accepted.length kind payload).index := by
  intro r mem
  rw [h.records] at mem
  rw [UInt64.lt_iff_toNat_lt, toNat_index_record room]
  exact toNat_index_of_mem (Nat.le_of_lt room) mem

/-- There is an index for a record after which they still suffice. -/
theorem Ledger.Numbered.room {kind : RecordKind} {payload : Bytes}
    (numbered : (ledger.accept kind payload).Numbered) : ledger.nextIndex < UInt64.size := by
  have total : ledger.config.startIndex.toNat + (ledger.accepted ++ [(kind, payload)]).length ≤
    UInt64.size := numbered
  rw [List.length_append, List.length_singleton] at total
  exact total

/-- A record that is accepted is placed behind those of the ledger, if there is an index for it. -/
theorem Tracks.does_append (h : Tracks site rolled before desk ledger) {kind : RecordKind}
    {payload : Bytes} (framable : (ledger.record ledger.accepted.length kind payload).Framable)
    (fits : (segmentBytes [ledger.record ledger.accepted.length kind payload]).length ≤
      ledger.config.segmentSize.toNat)
    (numbered : (ledger.accept kind payload).Numbered) :
    Does ((Writer.rollIfFull (ledger.record ledger.accepted.length kind payload).frame.length >>=
      fun _ => Writer.place (ledger.record ledger.accepted.length kind payload)) desk)
      fun _ after => ∃ volumes, Shows site after volumes ∧ Evolves before volumes ∧
        (ledger.accept kind payload).Divided rolled (after.writer.current = none)
          (volumes.map (·.records)) := by
  have room := numbered.room
  obtain ⟨volumes, shows, evolves, divided⟩ := h.shows (Nat.le_of_lt room)
  rw [← h.config] at fits
  refine (shows_append shows framable (divided.later room) fits).mono ?_
  rintro - after ⟨open_, volumes', shows', evolves', placed⟩
  rw [h.config] at placed
  exact ⟨volumes', shows', evolves.trans evolves',
    divided.accept shows.holds.nil_not_mem room placed open_⟩

/-- What is left to do for a record that is accepted: it is placed and counted. -/
theorem agrees_place (h : Tracks site rolled before desk ledger) {kind : RecordKind}
    {payload : Bytes} (framable : (ledger.record ledger.accepted.length kind payload).Framable)
    (fits : (segmentBytes [ledger.record ledger.accepted.length kind payload]).length ≤
      ledger.config.segmentSize.toNat) :
    Agrees (Tracks site rolled before)
      ((do
        Writer.rollIfFull (ledger.record ledger.accepted.length kind payload).frame.length
        Writer.place (ledger.record ledger.accepted.length kind payload)
        Writer.count (ledger.record ledger.accepted.length kind payload)
        pure (ledger.record ledger.accepted.length kind payload).index : WriterM UInt64) desk)
      (.ok (ledger.record ledger.accepted.length kind payload).index
        (ledger.accept kind payload)) := by
  have placed := (Writer.book_append (ledger.record ledger.accepted.length kind payload) desk).imp_and
    (h.does_append framable fits)
  rw [← bind_assoc]
  refine Agrees.of_does placed ?_
  rintro after ⟨book, files⟩
  have books := h.toBooks.of_sameBook book
  refine .inr ⟨rfl, ⟨books.config, books.codec, books.pending, books.sequence, ?_⟩,
    fun numbered => ?_⟩
  · show tick after.writer.nextIndex = tickBy _ (ledger.accepted ++ [(kind, payload)]).length
    rw [List.length_append, List.length_singleton, tickBy_succ]
    exact congrArg tick books.index
  · obtain ⟨volumes, shows, rest⟩ := files numbered
    exact ⟨volumes, shows.of_writer rfl rfl rfl, rest⟩

/-- Both go on with the same record. -/
theorem Books.record_eq (h : Books desk ledger) (kind : RecordKind) (payload : Bytes) :
    desk.writer.record kind payload = ledger.record ledger.accepted.length kind payload := by
  rw [Writer.record, Ledger.record, h.index, h.config]

/-- A frame is not empty, so where it fits behind the header there is room for the header. -/
theorem LogRecord.fits_of_room {record : LogRecord} {size : Nat}
    (room : ¬ size - segmentHeaderSize < record.frame.length) :
    (segmentBytes [record]).length ≤ size := by
  rw [segmentHeaderSize_eq, length_frame, overhead_eq] at room
  rw [length_segmentBytes, List.flatMap_singleton, length_frame, overhead_eq]
  omega

/-- An append is accepted or refused like that of the ledger. -/
theorem agrees_appendRecord (h : Tracks site rolled before desk ledger) (kind : RecordKind)
    (payload : Bytes) :
    Agrees (Tracks site rolled before) (Writer.appendRecord kind payload desk)
      (Ledger.append kind payload ledger) := by
  have room : desk.writer.emptyRoom =
      ledger.config.segmentSize.toNat - LogRecord.segmentHeaderSize := by
    rw [Writer.emptyRoom, h.config]
  -- the checks are the same on both sides and come before any file is touched
  rw [Writer.appendRecord_apply, Ledger.append]
  simp only
  rw [h.record_eq, room, h.config]
  by_cases framable : (ledger.record ledger.accepted.length kind payload).Framable
  · rw [if_neg (not_not_intro framable), if_neg (not_not_intro framable)]
    split
    · exact .inr ⟨rfl, h⟩
    · next small => exact agrees_place h framable (LogRecord.fits_of_room small)
  · rw [if_pos framable, if_pos framable]
    exact .inr ⟨rfl, h⟩

/-! ## entries -/

/-- The summary of a writer is nothing to the ledger. -/
theorem Tracks.with_summary (h : Tracks site rolled before desk ledger) (summary : WriterSummary) :
    Tracks site rolled before { desk with writer := { desk.writer with summary } } ledger := by
  refine ⟨⟨h.config, h.codec, h.pending, h.sequence, h.index⟩, fun numbered => ?_⟩
  obtain ⟨volumes, shows, rest⟩ := h.shows numbered
  exact ⟨volumes, shows.of_writer rfl rfl rfl, rest⟩

/-- Nor are the buffer and the sequence numbers to the files. -/
theorem Tracks.with_buffer (h : Tracks site rolled before desk ledger)
    {pending pending' : List Entry} {number number' : UInt64} (entries : pending = pending')
    (sequence : number = number') :
    Tracks site rolled before
      { desk with writer := { desk.writer with pending, nextSequenceNumber := number } }
      { ledger with pending := pending', nextSequenceNumber := number' } := by
  refine ⟨⟨h.config, h.codec, entries, sequence, h.index⟩, fun numbered => ?_⟩
  obtain ⟨volumes, shows, evolves, divided⟩ := h.shows numbered
  exact ⟨volumes, shows.of_writer rfl rfl rfl, evolves,
    ⟨divided.records, divided.parted, divided.free⟩⟩

/-- Appending an encoded batch agrees with the ledger. -/
theorem agrees_appendEncoded (h : Tracks site rolled before desk ledger) (batch : Batch) :
    Agrees (Tracks site rolled before) (Writer.appendEncoded batch desk)
      (Ledger.appendEncoded batch ledger) := by
  rw [Writer.appendEncoded, Ledger.appendEncoded]
  refine Agrees.get_bind (Agrees.promised_get_bind ?_)
  rw [h.codec, ← bind_pure (Ledger.append .stateMachineData (ledger.codec.encode batch))]
  refine (agrees_appendRecord h _ _).bind fun index after promised _ tracks => ?_
  exact .inr ⟨rfl, tracks.with_summary _⟩

/-- Desks and ledgers that go by the same books stay related when a batch is appended to both, and the
buffer and the sequence numbers are nothing to the relation. -/
structure Ledgered (R : Desk → Ledger → Prop) : Prop where
  books : ∀ {desk ledger}, R desk ledger → Books desk ledger
  encoded : ∀ {desk ledger}, R desk ledger → ∀ batch,
    Agrees R (Writer.appendEncoded batch desk) (Ledger.appendEncoded batch ledger)
  buffer : ∀ {desk ledger}, R desk ledger → ∀ {pending pending' : List Entry} {number number' : UInt64},
    pending = pending' → number = number' →
      R { desk with writer := { desk.writer with pending, nextSequenceNumber := number } }
        { ledger with pending := pending', nextSequenceNumber := number' }

namespace Ledgered

variable {R : Desk → Ledger → Prop} (hR : Ledgered R) (h : R desk ledger)

include hR h

/-- The buffered entries leave the buffer before they are appended, on both sides. -/
theorem flush : Agrees R (Writer.flush desk) (Ledger.flush ledger) := by
  -- both take the branch of an empty or of a filled buffer
  refine Agrees.get_bind (Agrees.promised_get_bind ?_)
  rw [(hR.books h).pending]
  cases ledger.pending with
  | nil => exact agrees_pure h ()
  | cons entry rest =>
    refine Agrees.bind ?_ fun _ after promised _ related => ?_
    · exact .inr ⟨rfl, hR.buffer h rfl (hR.books h).sequence⟩
    · exact (hR.encoded related _).bind fun _ _ _ _ related => agrees_pure related ()

theorem appendBatch (batch : Batch) :
    Agrees R (Writer.appendBatch batch desk) (Ledger.appendBatch batch ledger) :=
  (hR.flush h).bind fun _ _ _ _ related => hR.encoded related batch

theorem stamped (entry : Entry) : Agrees R (Writer.buffer entry desk) (Ledger.buffer entry ledger) := by
  have books := hR.books h
  have entries : desk.writer.pending ++ [entry.stamp desk.writer.nextSequenceNumber] =
      ledger.pending ++ [entry.stamp ledger.nextSequenceNumber] := by
    rw [books.pending, books.sequence]
  exact .inr ⟨rfl, hR.buffer h entries (congrArg tick books.sequence)⟩

theorem writeEntry (entry : Entry) :
    Agrees R (Writer.writeEntry entry desk) (Ledger.writeEntry entry ledger) := by
  refine (hR.stamped h entry).bind fun _ after promised _ related => ?_
  refine Agrees.get_bind (Agrees.promised_get_bind ?_)
  show Agrees R
    ((if after.writer.config.batchLimit ≤ after.writer.pending.length then Writer.flush
      else pure () : WriterM Unit) after) _
  rw [(hR.books related).config, (hR.books related).pending]
  split
  · exact hR.flush related
  · exact agrees_pure related ()

/-- Every operation keeps desks and ledgers related, if single records and the closing of segments do. -/
theorem perform (operation : Operation)
    (append : ∀ kind payload, operation = .appendRecord kind payload →
      Agrees R (Writer.appendRecord kind payload desk) (Ledger.append kind payload ledger))
    (roll : ∀ {desk promised}, promised.nextIndex ∈ ledger.rollsOf operation → R desk promised →
      Does (Writer.roll desk) fun _ after => R after promised) :
    Agrees R (Writer.perform operation desk) (Ledger.perform operation ledger) := by
  cases operation with
  | appendRecord kind payload => exact (append kind payload rfl).map _
  | writeEntry entry => exact (hR.writeEntry h entry).map _
  | appendBatch batch => exact (hR.appendBatch h batch).map _
  | flush => exact (hR.flush h).map _
  | roll =>
    rw [Writer.perform, map_eq_pure_bind]
    exact Agrees.of_does (roll List.mem_cons_self h) fun after related => agrees_pure related none
  | finish =>
    rw [Writer.perform, Ledger.perform, map_eq_pure_bind, map_eq_pure_bind, Writer.finish,
      bind_assoc]
    refine (hR.flush h).bind fun _ after promised flushed related => ?_
    have closes : promised.nextIndex ∈ ledger.rollsOf .finish := by
      rw [Ledger.rollsOf, Ledger.perform, map_apply, flushed]
      exact List.mem_cons_self
    rw [bind_assoc]
    exact Agrees.of_does (roll closes related) fun _ related => .inr ⟨rfl, related⟩

end Ledgered

/-- A desk that tracks a ledger does so whatever batches are appended. -/
theorem ledgered_tracks (site : Site) (rolled : Nat → Prop) (before : List Volume) :
    Ledgered (Tracks site rolled before) :=
  ⟨fun h => h.toBooks, agrees_appendEncoded, Tracks.with_buffer⟩

/-- Flushing agrees with the ledger. -/
theorem agrees_flush (h : Tracks site rolled before desk ledger) :
    Agrees (Tracks site rolled before) (Writer.flush desk) (Ledger.flush ledger) :=
  (ledgered_tracks site rolled before).flush h

/-- Buffering an entry agrees with the ledger. -/
theorem agrees_buffer (h : Tracks site rolled before desk ledger) (entry : Entry) :
    Agrees (Tracks site rolled before) (Writer.buffer entry desk) (Ledger.buffer entry ledger) :=
  (ledgered_tracks site rolled before).stamped h entry

/-! ## runs -/

/-- Every operation agrees with that of the ledger, if segments may be closed where it closes one. -/
theorem tracks_perform (h : Tracks site rolled before desk ledger) (operation : Operation)
    (demanded : ∀ index ∈ ledger.rollsOf operation, rolled index) :
    Agrees (Tracks site rolled before) (Writer.perform operation desk)
      (Ledger.perform operation ledger) :=
  (ledgered_tracks site rolled before).perform h operation
    (fun kind payload _ => agrees_appendRecord h kind payload)
    fun closes tracks => tracks.does_roll (demanded _ closes)

/-- While the indices suffice, a desk that follows a ledger goes on following it. -/
theorem agrees_perform (h : Follows site rolled desk ledger) (operation : Operation)
    (demanded : ∀ index ∈ ledger.rollsOf operation, rolled index)
    (numbered : (finalState (Ledger.perform operation ledger)).Numbered) :
    Agrees (Follows site rolled) (Writer.perform operation desk)
      (Ledger.perform operation ledger) :=
  (tracks_perform h.tracks operation demanded).imp fun _ tracks => tracks.follows numbered

/-- The file system has refused an operation. -/
def Answer.isIo : Answer → Bool
  | .ok _ => false
  | .error e => e.isIo

/-- An answer is an error of the file system just where the result has been refused. -/
theorem isIo_answerOf {result : EStateM.Result JournalError Desk (Option UInt64)} :
    (answerOf result).isIo ↔ Refused result := by
  cases result with
  | ok index? after => exact ⟨fun io => absurd io Bool.false_ne_true, fun refused => refused.elim⟩
  | error e after => exact Iff.rfl

/-- A successful answer is no refusal of the file system. -/
theorem Answer.not_isIo_of_isOk {answer : Answer} (h : answer.isOk) : ¬ answer.isIo := by
  cases answer with
  | ok index? => exact Bool.false_ne_true
  | error e => exact absurd h Bool.false_ne_true

/-- Where every operation agrees with that of the ledger, a run does. What relates desks and ledgers may
say something about the operations that are still to come. -/
theorem agrees_performAll {R : List Operation → Desk → Ledger → Prop}
    (step : ∀ operation rest desk ledger, R (operation :: rest) desk ledger →
      Agrees (R rest) (Writer.perform operation desk) (Ledger.perform operation ledger))
    (operations : List Operation) (h : R operations desk ledger)
    (granted : ∀ answer ∈ (performAll Writer.perform operations desk).1, ¬ answer.isIo) :
    (performAll Writer.perform operations desk).1 =
        (performAll Ledger.perform operations ledger).1 ∧
      R [] (performAll Writer.perform operations desk).2
        (performAll Ledger.perform operations ledger).2 := by
  induction operations generalizing desk ledger with
  | nil => exact ⟨rfl, h⟩
  | cons operation rest ih =>
    rw [performAll_cons, List.forall_mem_cons, isIo_answerOf] at granted
    -- an operation that fails for its size leaves the desk and the ledger related as well
    obtain ⟨answer, related⟩ := (step operation rest desk ledger h).of_granted granted.1
    obtain ⟨answers, related'⟩ := ih related granted.2
    rw [performAll_cons, performAll_cons, answer, answers]
    exact ⟨rfl, related'⟩

/-- **A writer keeps to its ledger.** In a run in which the file system refuses nothing the writer gives
the answers of the ledger, and tracks it. -/
theorem tracks_performAll (operations : List Operation) (h : Tracks site rolled before desk ledger)
    (demanded : ∀ index ∈ ledger.rollsAlong operations, rolled index)
    (granted : ∀ answer ∈ (performAll Writer.perform operations desk).1, ¬ answer.isIo) :
    (performAll Writer.perform operations desk).1 =
        (performAll Ledger.perform operations ledger).1 ∧
      Tracks site rolled before (performAll Writer.perform operations desk).2
        (performAll Ledger.perform operations ledger).2 := by
  obtain ⟨answers, tracks, -⟩ := agrees_performAll
    (R := fun rest desk ledger => Tracks site rolled before desk ledger ∧
      ∀ index ∈ ledger.rollsAlong rest, rolled index)
    (fun operation rest desk ledger related => by
      obtain ⟨tracks, demanded⟩ := related
      rw [Ledger.rollsAlong, List.forall_mem_append] at demanded
      exact (tracks_perform tracks operation demanded.1).imp fun _ tracks => ⟨tracks, demanded.2⟩)
    operations ⟨h, demanded⟩ granted
  exact ⟨answers, tracks⟩

/-- If the indices suffice as well, the writer has its records in the files. -/
theorem follows_performAll (operations : List Operation) (h : Follows site rolled desk ledger)
    (demanded : ∀ index ∈ ledger.rollsAlong operations, rolled index)
    (granted : ∀ answer ∈ (performAll Writer.perform operations desk).1, ¬ answer.isIo)
    (numbered : (performAll Ledger.perform operations ledger).2.Numbered) :
    (performAll Writer.perform operations desk).1 =
        (performAll Ledger.perform operations ledger).1 ∧
      Follows site rolled (performAll Writer.perform operations desk).2
        (performAll Ledger.perform operations ledger).2 := by
  obtain ⟨answers, tracks⟩ := tracks_performAll operations h.tracks demanded granted
  exact ⟨answers, tracks.follows numbered⟩

end RaftJournal
