import RaftJournal.Proofs.Writer.Packing

/-! # What the system grants

The system refuses a writer that has been created for two things only: a path that is too long, and a
segment that is to be larger than a file may be. So where it takes a file of the size of a segment, and the
records that a writer without rolls is going to have can be packed into parts with names that it takes
(**`Suits`**), it refuses nothing up to the end: **`Writer.granted_performAll`**.

Such a writer has packed its records when it has finished (**`Writer.packed_of_finish`**). -/

namespace RaftJournal

section Actions

variable {α β : Type} {desk : Desk}

/-- The system does not refuse two actions, one after the other, if it refuses neither. -/
theorem not_refused_bind {x : WriterM α} {f : α → WriterM β} (hx : ¬ Refused (x desk))
    (hf : ∀ a after, x desk = .ok a after → ¬ Refused (f a after)) : ¬ Refused ((x >>= f) desk) := by
  rw [bind_apply]
  cases done : x desk with
  | ok a after => exact hf a after done
  | error e after =>
    rw [done] at hx
    exact hx

theorem not_refused_get_bind {f : Desk → WriterM β} (h : ¬ Refused (f desk desk)) :
    ¬ Refused ((get >>= f) desk) := h

theorem not_refused_modify_bind {g : Desk → Desk} {f : PUnit → WriterM β}
    (h : ¬ Refused (f ⟨⟩ (g desk))) : ¬ Refused ((modify g >>= f) desk) := h

theorem not_refused_map {x : WriterM α} (hx : ¬ Refused (x desk)) (f : α → β) :
    ¬ Refused ((f <$> x) desk) := by
  rw [map_eq_pure_bind]
  exact not_refused_bind hx fun _ _ _ refused => refused

/-- Work on the files that can be done is done. -/
theorem not_refused_onFiles_bind {path : String} {act : FileTree → Except FileFault FileTree}
    {tree : FileTree} {f : Unit → WriterM β} (done : act desk.tree = .ok tree)
    (h : ¬ Refused (f () { desk with tree })) : ¬ Refused ((Writer.onFiles path act >>= f) desk) := by
  rw [bind_apply, Writer.onFiles_apply, done]
  exact h

end Actions

/-! ## files -/

section Files

variable {site : Site} {desk : Desk} {volumes : List Volume} {record : LogRecord}

/-- The open segment is closed if its new name is taken. -/
theorem granted_roll (h : Shows site desk volumes)
    (named : ∀ segment, desk.writer.current = some segment →
      FileTree.Fits site.dir (SegmentName.closedName segment.start segment.last)) :
    ¬ Refused (Writer.roll desk) := by
  apply not_refused_get_bind
  cases current : desk.writer.current with
  | none => exact id
  | some segment =>
    obtain ⟨front, v, rfl, opened, -⟩ := h.current segment current
    have open_ : v.name.last = none := congrArg SegmentName.last opened.name
    have start : v.name.start = segment.start := congrArg SegmentName.start opened.name
    have fits := named segment current
    rw [← start] at fits
    obtain ⟨cut, resized, holds⟩ := h.holds.resize_last
    obtain ⟨renamed, done, -⟩ := holds.rename_of_fits open_ opened.last fits
    refine not_refused_modify_bind (not_refused_onFiles_bind (?_ : _ = Except.ok cut)
      (not_refused_get_bind (not_refused_onFiles_bind (?_ : _ = Except.ok renamed) id)))
    · rw [opened.path, opened.written]
      exact resized
    · show cut.rename _ (Path.join desk.writer.dir _) = _
      rw [opened.path, h.dir, ← start]
      exact done

/-- A new segment is opened if its name is taken, and a file of its size. -/
theorem granted_openSegment (h : Shows site desk volumes) (framable : record.Framable)
    (later : ∀ r ∈ (volumes.map (·.records)).flatten, r.index < record.index)
    (allowed : FileTree.checkLength desk.writer.config.segmentSize.toNat = .ok ())
    (named : FileTree.Fits site.dir (SegmentName.openName record.index)) :
    ¬ Refused (Writer.openSegment record desk) := by
  have created : ∃ handle made,
      desk.tree.create (Path.join desk.writer.dir (SegmentName.openName record.index)) =
        .ok (handle, made) := by
    obtain ⟨made, created, -⟩ := h.holds.store_first named framable (h.holds.start_lt later) 0
    rw [h.dir]
    exact ⟨_, made, created⟩
  obtain ⟨handle, made, created⟩ := created
  rw [Writer.openSegment]
  apply not_refused_get_bind
  apply not_refused_get_bind
  rw [created]
  apply not_refused_modify_bind
  rw [allowed]
  exact id

/-- The open segment has the last part of the records, and is named for it. -/
theorem Shows.part_of_current (h : Shows site desk volumes) {segment : OpenSegment}
    (current : desk.writer.current = some segment) :
    ∃ part, (volumes.map (·.records)).getLast? = some part ∧ segment.written = segmentBytes part ∧
      ∃ first, part.head? = some first ∧ ∃ last, part.getLast? = some last ∧
        first.index = segment.start ∧ last.index = segment.last := by
  obtain ⟨front, v, rfl, opened, -⟩ := h.current segment current
  have start : v.name.start = segment.start := congrArg SegmentName.start opened.name
  obtain ⟨first, found, first_eq⟩ :=
    Option.map_eq_some_iff.mp (h.holds.sound v List.mem_concat_self).starts
  obtain ⟨last, found', last_eq⟩ := Option.map_eq_some_iff.mp opened.last
  refine ⟨v.records, ?_, opened.written, first, found, last, found', first_eq.trans start, last_eq⟩
  rw [List.map_append, List.map_singleton, List.getLast?_concat]

/-- A segment that is too full for a record is closed if its new name is taken. -/
theorem granted_rollIfFull (h : Shows site desk volumes) {size : Nat}
    (named : ∀ segment, desk.writer.current = some segment → segment.remaining < size →
      FileTree.Fits site.dir (SegmentName.closedName segment.start segment.last)) :
    ¬ Refused (Writer.rollIfFull size desk) := by
  apply not_refused_get_bind
  cases current : desk.writer.current with
  | none => exact id
  | some segment =>
    show ¬ Refused ((if segment.remaining < size then Writer.roll else pure () : WriterM Unit) desk)
    split
    · next full =>
      refine granted_roll h fun other same => ?_
      obtain rfl := Option.some.inj (current.symm.trans same)
      exact named _ current full
    · exact id

/-- A record is placed in the open segment, or in a new one if that can be opened. -/
theorem granted_place (h : Shows site desk volumes) (framable : record.Framable)
    (later : ∀ r ∈ (volumes.map (·.records)).flatten, r.index < record.index)
    (allowed : FileTree.checkLength desk.writer.config.segmentSize.toNat = .ok ())
    (named : desk.writer.current = none →
      FileTree.Fits site.dir (SegmentName.openName record.index)) :
    ¬ Refused (Writer.place record desk) := by
  apply not_refused_get_bind
  cases current : desk.writer.current with
  | some segment => exact id
  | none =>
    exact not_refused_bind (granted_openSegment h framable later allowed (named current))
      fun _ _ _ => id

/-- A record is placed behind others that are packed, if it can be packed with them into parts with names
that the system takes. -/
theorem granted_append {records : List LogRecord} (h : Shows site desk volumes)
    (framable : record.Framable)
    (later : ∀ r ∈ (volumes.map (·.records)).flatten, r.index < record.index)
    (fits : (segmentBytes [record]).length ≤ desk.writer.config.segmentSize.toNat)
    (allowed : FileTree.checkLength desk.writer.config.segmentSize.toNat = .ok ())
    (packed : Packed desk.writer.config.segmentSize.toNat records (volumes.map (·.records)))
    (free : desk.writer.current = none → volumes = [])
    (suits : Suits site.dir desk.writer.config.segmentSize.toNat (records ++ [record])) :
    ¬ Refused ((Writer.rollIfFull record.frame.length >>= fun _ => Writer.place record) desk) := by
  -- a record that does not fit starts the last of the parts that are named, behind all that there are
  have named (full : ∀ last ∈ (volumes.map (·.records)).getLast?,
      desk.writer.config.segmentSize.toNat < (segmentBytes last).length + record.frame.length) :
      Named site.dir (volumes.map (·.records) ++ [[record]]) := by
    obtain ⟨parts, packed', named⟩ := suits
    rwa [packed'.unique (packed.concat fits full)] at named
  refine not_refused_bind (granted_rollIfFull h fun segment current full => ?_) fun _ ready done => ?_
  · obtain ⟨part, last, written, first, found, final, found', start, stop⟩ := h.part_of_current current
    have ends := (named fun other same => ?_).ends
    · rw [List.dropLast_concat] at ends
      rw [← start, ← stop]
      exact ends part (List.mem_of_getLast? last) first found final found'
    · cases last.symm.trans same
      rw [OpenSegment.remaining, h.capacity segment current, written] at full
      omega
  · have rolled := (Writer.book_rollIfFull record.frame.length desk).imp_and fun _ : True =>
      shows_rollIfFull h record.frame.length
    rw [done] at rolled
    cases rolled with
    | done rolled =>
      obtain ⟨book, ready_shows⟩ := rolled
      obtain ⟨⟨volumes', shows, -, parts⟩, -, full⟩ := ready_shows trivial
      have config : ready.writer.config = desk.writer.config := by rw [book]
      rw [← parts] at later
      refine granted_place shows framable later (config ▸ allowed) fun none => ?_
      have starts := (named ?_).starts
      · exact starts [record] List.mem_concat_self record rfl
      · rcases full none with none | full
        · rw [free none]
          rintro last ⟨⟩
        · exact full

end Files

/-! ## operations -/

/-- No index is one at which a segment has been closed on demand. -/
abbrev never : Nat → Prop := fun _ => False

section Operations

variable {site : Site} {desk : Desk} {ledger : Ledger}

/-- While nothing is closed on demand, the records of a desk are packed. -/
theorem Follows.packed (h : Follows site never desk ledger) :
    ∃ volumes, Shows site desk volumes ∧
      Packed ledger.config.segmentSize.toNat ledger.records (volumes.map (·.records)) ∧
      (desk.writer.current = none → volumes = []) := by
  obtain ⟨volumes, shows, divided⟩ := h.shows
  exact ⟨volumes, shows, shows.packed h.config divided fun _ _ => id,
    fun none => List.map_eq_nil_iff.mp ((divided.free none).resolve_right id)⟩

/-- An append is not refused where its ledger is suited. -/
theorem granted_appendRecord (h : Follows site never desk ledger) {kind : RecordKind}
    {payload : Bytes} (suited : (finalState (Ledger.append kind payload ledger)).Suited site.dir) :
    ¬ Refused (Writer.appendRecord kind payload desk) := by
  have same : desk.writer.record kind payload =
      ledger.record ledger.accepted.length kind payload := by
    rw [Writer.record, Ledger.record, h.index, h.config]
  rw [Writer.appendRecord_apply, same, Writer.emptyRoom, h.config]
  rw [Ledger.append] at suited
  simp only at suited ⊢
  by_cases framable : (ledger.record ledger.accepted.length kind payload).Framable
  · rw [if_neg (not_not_intro framable)] at suited ⊢
    split
    · exact Bool.false_ne_true
    · next small =>
      rw [if_neg small] at suited
      have room := suited.numbered.room
      obtain ⟨volumes, shows, packed, free⟩ := h.packed
      have later : ∀ r ∈ (volumes.map (·.records)).flatten,
          r.index < (ledger.record ledger.accepted.length kind payload).index := by
        intro r mem
        rw [packed.records] at mem
        rw [UInt64.lt_iff_toNat_lt, Ledger.toNat_index_record room]
        exact Ledger.toNat_index_of_mem (Nat.le_of_lt room) mem
      have fits : (segmentBytes [ledger.record ledger.accepted.length kind payload]).length ≤
          ledger.config.segmentSize.toNat := by
        rw [LogRecord.segmentHeaderSize_eq, LogRecord.length_frame, LogRecord.overhead_eq] at small
        rw [length_segmentBytes, List.flatMap_singleton, LogRecord.length_frame,
          LogRecord.overhead_eq]
        omega
      have allowed := suited.allowed
      have suits := suited.suits
      simp only [finalState] at allowed suits
      rw [Ledger.records_accept] at suits
      rw [← h.config] at fits packed
      rw [← bind_assoc]
      exact not_refused_bind (granted_append shows framable later fits (h.config ▸ allowed) packed
        free (h.config ▸ suits)) fun _ _ _ => id
  · rw [if_pos framable]
    exact Bool.false_ne_true

theorem granted_appendEncoded (h : Follows site never desk ledger) {batch : Batch}
    (suited : (finalState (Ledger.appendEncoded batch ledger)).Suited site.dir) :
    ¬ Refused (Writer.appendEncoded batch desk) := by
  apply not_refused_get_bind
  rw [h.codec]
  exact not_refused_bind (granted_appendRecord h suited) fun _ _ _ => id

theorem granted_flush (h : Follows site never desk ledger)
    (suited : (finalState (Ledger.flush ledger)).Suited site.dir) :
    ¬ Refused (Writer.flush desk) := by
  have numbered := (Ledger.grows_flush.suited suited).numbered
  apply not_refused_get_bind
  rw [h.pending]
  cases buffered : ledger.pending with
  | nil => exact id
  | cons entry rest =>
    rw [Ledger.finalState_flush buffered] at suited
    have cleared := (h.tracks.with_buffer (Eq.refl []) h.sequence).follows numbered
    exact not_refused_modify_bind
      (not_refused_bind (granted_appendEncoded cleared suited) fun _ _ _ => id)

/-- What comes after an action that is not refused is not refused if its ledger is suited then. -/
theorem granted_bind {α β : Type} {x : WriterM α} {y : LedgerM α} {f : α → WriterM β}
    {g : α → LedgerM β} (agrees : Agrees (Tracks site never []) (x desk) (y ledger))
    (grows : ∀ a, Ledger.Grows (g a))
    (suited : (finalState ((y >>= g) ledger)).Suited site.dir)
    (hx : (finalState (y ledger)).Suited site.dir → ¬ Refused (x desk))
    (hf : ∀ a after promised, Follows site never after promised →
      (finalState (g a promised)).Suited site.dir → ¬ Refused (f a after)) :
    ¬ Refused ((x >>= f) desk) := by
  rw [bind_apply] at suited
  cases kept : y ledger with
  | error e promised =>
    -- the desk fails like the ledger, so nothing comes after
    rw [kept] at suited hx agrees
    refine not_refused_bind (hx suited) fun a after done => ?_
    have same := agrees.resolve_left (hx suited)
    rw [done] at same
    exact same.elim
  | ok b promised =>
    rw [kept] at suited hx agrees
    have between := (grows b).suited suited
    refine not_refused_bind (hx between) fun a after done => ?_
    have same := agrees.resolve_left (hx between)
    rw [done] at same
    obtain ⟨rfl, tracks⟩ := same
    exact hf a after promised (tracks.follows between.numbered) suited

theorem granted_appendBatch (h : Follows site never desk ledger) {batch : Batch}
    (suited : (finalState (Ledger.appendBatch batch ledger)).Suited site.dir) :
    ¬ Refused (Writer.appendBatch batch desk) :=
  granted_bind (agrees_flush h.tracks) (fun _ => Ledger.grows_appendEncoded batch) suited
    (granted_flush h) fun _ _ _ follows => granted_appendEncoded follows

theorem granted_writeEntry (h : Follows site never desk ledger) {entry : Entry}
    (suited : (finalState (Ledger.writeEntry entry ledger)).Suited site.dir) :
    ¬ Refused (Writer.writeEntry entry desk) := by
  refine granted_bind (agrees_buffer h.tracks entry) (fun _ => Ledger.grows_flushIfFull) suited
    (fun _ => id) fun _ after promised follows suited => ?_
  apply not_refused_get_bind
  show ¬ Refused ((if after.writer.config.batchLimit ≤ after.writer.pending.length then Writer.flush
    else pure () : WriterM Unit) after)
  rw [follows.config, follows.pending]
  split
  · next full =>
    have flushes : Ledger.flushIfFull promised = Ledger.flush promised := by
      show (if promised.config.batchLimit ≤ promised.pending.length then Ledger.flush
        else pure () : LedgerM Unit) promised = _
      rw [if_pos full]
    exact granted_flush follows (flushes ▸ suited)
  · exact id

/-- An operation that closes nothing on demand is not refused where its ledger is suited. -/
theorem granted_perform (h : Follows site never desk ledger) {operation : Operation}
    (open_ : ¬ operation.closes)
    (suited : (finalState (Ledger.perform operation ledger)).Suited site.dir) :
    ¬ Refused (Writer.perform operation desk) := by
  cases operation with
  | appendRecord kind payload =>
    rw [Ledger.perform, finalState_map] at suited
    exact not_refused_map (granted_appendRecord h suited) _
  | writeEntry entry =>
    rw [Ledger.perform, finalState_map] at suited
    exact not_refused_map (granted_writeEntry h suited) _
  | appendBatch batch =>
    rw [Ledger.perform, finalState_map] at suited
    exact not_refused_map (granted_appendBatch h suited) _
  | flush =>
    rw [Ledger.perform, finalState_map] at suited
    exact not_refused_map (granted_flush h suited) _
  | roll => exact absurd rfl open_
  | finish => exact absurd rfl open_

/-- A writer that finishes is not refused if the system takes all names of the parts into which its
records are packed. -/
theorem granted_finish (h : Follows site never desk ledger)
    (suited : (finalState (Ledger.perform .finish ledger)).Suited site.dir)
    (named : ∀ parts, Packed (finalState (Ledger.perform .finish ledger)).config.segmentSize.toNat
        (finalState (Ledger.perform .finish ledger)).records parts →
      ∀ part ∈ parts, ∀ first ∈ part.head?, ∀ last ∈ part.getLast?,
        FileTree.Fits site.dir (SegmentName.closedName first.index last.index)) :
    ¬ Refused (Writer.perform .finish desk) := by
  rw [Ledger.perform, finalState_map] at suited named
  refine not_refused_map ?_ _
  have granted := granted_flush h suited
  refine not_refused_bind granted fun u after done => not_refused_bind ?_ fun _ _ _ => id
  -- what is left to do is to close the last segment
  have same := (agrees_flush h.tracks).resolve_left granted
  rw [done] at same
  cases flushed : Ledger.flush ledger with
  | error e promised =>
    rw [flushed] at same
    exact same.elim
  | ok b promised =>
    rw [flushed] at same suited named
    obtain ⟨volumes, shows, packed, -⟩ := (same.2.follows suited.numbered).packed
    refine granted_roll shows fun segment current => ?_
    obtain ⟨part, last, -, first, found, final, found', start, stop⟩ := shows.part_of_current current
    rw [← start, ← stop]
    exact named _ packed part (List.mem_of_getLast? last) first found final found'

end Operations

/-! ## runs -/

section Runs

variable {site : Site} {desk : Desk} {ledger : Ledger}

/-- An operation that is not to close a segment closes none on demand. -/
theorem Ledger.rollsOf_of_open {operation : Operation} (open_ : ¬ operation.closes) (l : Ledger) :
    l.rollsOf operation = [] := by
  rw [rollsOf]
  split
  · exact if_neg open_
  · rfl

/-- Without rolls nothing is refused where the ledger is suited in the end, and nothing is closed on
demand. -/
theorem granted_performAll (operations : List Operation)
    (open_ : ∀ operation ∈ operations, ¬ operation.closes) (h : Follows site never desk ledger)
    (suited : (performAll Ledger.perform operations ledger).2.Suited site.dir) :
    (∀ answer ∈ (performAll Writer.perform operations desk).1, ¬ answer.isIo) ∧
      Follows site never (performAll Writer.perform operations desk).2
        (performAll Ledger.perform operations ledger).2 := by
  -- on the operations; a ledger that is suited in the end has been suited all along
  induction operations generalizing desk ledger with
  | nil => exact ⟨fun answer mem => absurd mem List.not_mem_nil, h⟩
  | cons operation rest ih =>
    rw [List.forall_mem_cons] at open_
    rw [performAll_cons] at suited
    have grown := Ledger.grows_performAll rest (finalState (Ledger.perform operation ledger))
    have between := suited.of_grown grown.1 grown.2
    have granted := granted_perform h open_.1 between
    have rolls : ∀ index ∈ ledger.rollsOf operation, never index := by
      rw [Ledger.rollsOf_of_open open_.1]
      exact fun index mem => absurd mem List.not_mem_nil
    obtain ⟨-, follows⟩ :=
      (agrees_perform h operation rolls between.numbered).of_granted granted
    obtain ⟨others, last⟩ := ih open_.2 follows suited
    rw [performAll_cons, performAll_cons, List.forall_mem_cons, isIo_answerOf]
    exact ⟨⟨granted, others⟩, last⟩

end Runs

/-! ## created writers -/

namespace Writer

variable {tree made : FileTree} {root : String} {config : WriterConfig} {codec : Codec} {w : Writer}
  {operations : List Operation}

/-- Nothing is refused to a created writer without rolls that finishes, if the system takes a file of the
size of a segment, and the names of the parts into which its records are packed. -/
theorem granted_of_named (created : create tree root config codec = (.ok w, made))
    (open_ : ∀ operation ∈ operations, ¬ operation.closes)
    {promised : Ledger}
    (promise : (performAll Ledger.perform (operations ++ [.finish]) (.start config codec)).2 = promised)
    (numbered : promised.Numbered)
    (allowed : FileTree.checkLength config.segmentSize.toNat = .ok ())
    {parts : List (List LogRecord)} (packed : Packed config.segmentSize.toNat promised.records parts)
    (named : ∀ part ∈ parts, ∀ first ∈ part.head?, ∀ last ∈ part.getLast?,
      FileTree.Fits (groupDirectory root config.group) (SegmentName.openName first.index) ∧
        FileTree.Fits (groupDirectory root config.group)
          (SegmentName.closedName first.index last.index)) :
    ∀ answer ∈ (performAll perform (operations ++ [.finish]) ⟨w, made⟩).1, ¬ answer.isIo := by
  have same : promised.config = config := by
    rw [← promise]
    exact (Ledger.grows_performAll (operations ++ [.finish]) (.start config codec)).1
  obtain ⟨site, rfl, dir, start⟩ := exists_site created never
  rw [← dir] at named
  have suited : promised.Suited site.dir := by
    refine ⟨numbered, same ▸ allowed, parts, same ▸ packed, fun part mem first found => ?_,
      fun part mem first found last found' => ?_⟩
    · have some_ : part ≠ [] := by
        rintro rfl
        cases found
      exact (named part mem first found _ (List.getLast?_eq_some_getLast some_)).1
    · exact (named part (List.dropLast_subset parts mem) first found last found').2
  rw [performAll_append] at promise
  generalize before : (performAll Ledger.perform operations (.start config codec)).2 = between at promise
  rw [performAll_cons] at promise
  replace promise : finalState (Ledger.perform .finish between) = promised := promise
  have grown := Ledger.grows_perform .finish between
  rw [promise] at grown
  obtain ⟨granted, follows⟩ := granted_performAll operations open_ start
    (before ▸ suited.of_grown grown.1 grown.2)
  rw [before] at follows
  rw [performAll_append, List.forall_mem_append, performAll_cons, List.forall_mem_cons, isIo_answerOf]
  refine ⟨granted, granted_finish follows (promise ▸ suited) ?_, fun answer mem =>
    absurd mem List.not_mem_nil⟩
  rw [promise, same]
  intro parts' packed' part mem first found last found'
  rw [packed'.unique packed] at mem
  exact (named part mem first found last found').2

/-- A run without rolls that finishes has closed a segment on demand in the end only. -/
theorem rollsAlong_of_finish (open_ : ∀ operation ∈ operations, ¬ operation.closes) (l : Ledger) :
    ∀ index ∈ l.rollsAlong (operations ++ [.finish]),
      index = (performAll Ledger.perform (operations ++ [.finish]) l).2.nextIndex := by
  induction operations generalizing l with
  | nil =>
    intro index mem
    rw [List.nil_append, performAll_cons]
    rw [List.nil_append, Ledger.rollsAlong, Ledger.rollsAlong, List.append_nil, Ledger.rollsOf] at mem
    show index = (finalState (Ledger.perform .finish l)).nextIndex
    cases done : Ledger.perform .finish l with
    | ok index? after =>
      rw [done] at mem
      exact List.mem_singleton.mp mem
    | error e after =>
      rw [done] at mem
      cases mem
  | cons operation rest ih =>
    rw [List.forall_mem_cons] at open_
    rw [List.cons_append, Ledger.rollsAlong, Ledger.rollsOf_of_open open_.1, List.nil_append,
      performAll_cons]
    exact ih open_.2 _

/-- **A writer without rolls packs its records.** When it has finished, and the system has refused nothing,
its segments are those into which the records of its ledger are packed. -/
theorem packed_of_finish (created : create tree root config codec = (.ok w, made))
    (open_ : ∀ operation ∈ operations, ¬ operation.closes)
    (granted : ∀ answer ∈ (performAll perform (operations ++ [.finish]) ⟨w, made⟩).1, ¬ answer.isIo)
    (numbered :
      (performAll Ledger.perform (operations ++ [.finish]) (.start config codec)).2.Numbered) :
    let run := performAll perform (operations ++ [.finish]) ⟨w, made⟩
    let promised := performAll Ledger.perform (operations ++ [.finish]) (.start config codec)
    run.1 = promised.1 ∧ ∃ (site : Site) (volumes : List Volume),
      site.tree = made ∧ site.dir = groupDirectory root config.group ∧ Shows site run.2 volumes ∧
        Packed config.segmentSize.toNat promised.2.records (volumes.map (·.records)) := by
  intro run promised
  obtain ⟨site, rfl, dir, start⟩ := exists_site created (· = promised.2.nextIndex)
  obtain ⟨answers, follows⟩ :=
    follows_performAll _ start (rollsAlong_of_finish open_ _) granted numbered
  obtain ⟨volumes, shows, divided⟩ := follows.shows
  have same : promised.2.config = config :=
    (Ledger.grows_performAll (operations ++ [.finish]) (.start config codec)).1
  have packed := shows.packed follows.config divided fun record mem =>
    Nat.ne_of_lt (Ledger.toNat_index_of_mem numbered mem)
  rw [same] at packed
  exact ⟨answers, site, volumes, rfl, dir, shows, packed⟩

/-- So a writer without rolls that finishes succeeds where its ledger does. -/
theorem succeeded_of_named (created : create tree root config codec = (.ok w, made))
    (open_ : ∀ operation ∈ operations, ¬ operation.closes) {promised : List Answer × Ledger}
    (promise : performAll Ledger.perform (operations ++ [.finish]) (.start config codec) = promised)
    (accepted : ∀ answer ∈ promised.1, answer.isOk) (numbered : promised.2.Numbered)
    (allowed : FileTree.checkLength config.segmentSize.toNat = .ok ())
    {parts : List (List LogRecord)}
    (packed : Packed config.segmentSize.toNat promised.2.records parts)
    (named : ∀ part ∈ parts, ∀ first ∈ part.head?, ∀ last ∈ part.getLast?,
      FileTree.Fits (groupDirectory root config.group) (SegmentName.openName first.index) ∧
        FileTree.Fits (groupDirectory root config.group)
          (SegmentName.closedName first.index last.index)) :
    ∀ answer ∈ (performAll perform (operations ++ [.finish]) ⟨w, made⟩).1, answer.isOk := by
  subst promise
  have granted := granted_of_named created open_ rfl numbered allowed packed named
  obtain ⟨answers, -⟩ := packed_of_finish created open_ granted numbered
  rw [answers]
  exact accepted

end Writer

end RaftJournal
