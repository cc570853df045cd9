import Mathlib.Data.List.Chain
import RaftJournal.Proofs.Writer.Ledger
import RaftJournal.Proofs.Writer.Volumes

/-! # Records on their way into files

A desk **`Shows`** some volumes when its files hold them and its open segment, if there is one, is the
last of them: the file of that one is as long as a segment may be, and those of the others end with
their records. Closing the open segment changes its name and its length, but no record
(**`shows_roll`**), and a record is **`Placed`** behind the others, in the open segment or, if it does
not fit there, in a new one (**`shows_append`**), unless the file system refuses. No volume is replaced
by another one: each has become what it was, with more records (**`Evolves`**). What the writer itself
goes by is left alone all the while, also where the indices have run out (**`Writer.book_append`**).

* **`Placed.parted`**: two segments that follow each other are **`Parted`**, that is, the second was
  started for want of room or after the first had been closed on demand. -/

namespace RaftJournal

/-- Whether an error is one of the file system. -/
def JournalError.isIo : JournalError → Bool
  | .io _ _ => true
  | _ => false

/-! ## actions that the file system may refuse -/

/-- The file system has refused, or the result is as is said. -/
inductive Does {α : Type} : EStateM.Result JournalError Desk α → (α → Desk → Prop) → Prop
  /-- The action succeeds, with a result that is as is said. -/
  | done {P : α → Desk → Prop} {a : α} {desk : Desk} (h : P a desk) : Does (.ok a desk) P
  /-- The file system refuses. -/
  | refused {P : α → Desk → Prop} {e : JournalError} {desk : Desk} (h : e.isIo) :
    Does (.error e desk) P

/-- Actions one after the other: the second starts on the desk that the first leaves. -/
theorem Does.bind {α β : Type} {x : WriterM α} {f : α → WriterM β} {P : α → Desk → Prop}
    {Q : β → Desk → Prop} {desk : Desk} (hx : Does (x desk) P)
    (hf : ∀ a desk, P a desk → Does (f a desk) Q) : Does ((x >>= f) desk) Q := by
  rw [bind_apply]
  generalize x desk = result at hx ⊢
  cases hx with
  | done h => exact hf _ _ h
  | refused io => exact .refused io

/-- What comes of an action may be told less of. -/
theorem Does.mono {α : Type} {result : EStateM.Result JournalError Desk α} {P Q : α → Desk → Prop}
    (h : Does result P) (imp : ∀ a desk, P a desk → Q a desk) : Does result Q := by
  cases h with
  | done h => exact .done (imp _ _ h)
  | refused io => exact .refused io

/-- What an action does, and what else it does under a condition. -/
theorem Does.imp_and {α : Type} {result : EStateM.Result JournalError Desk α} {P Q : α → Desk → Prop}
    {condition : Prop} (h : Does result P) (h' : condition → Does result Q) :
    Does result fun a desk => P a desk ∧ (condition → Q a desk) := by
  cases h with
  | done h =>
    refine .done ⟨h, fun holds => ?_⟩
    cases h' holds with
    | done h => exact h
  | refused io => exact .refused io

/-- An error of the action is one of the file system. -/
theorem Does.isIo_of_error {α : Type} {result : EStateM.Result JournalError Desk α}
    {P : α → Desk → Prop} {e : JournalError} {after : Desk} (h : Does result P)
    (failed : result = .error e after) : e.isIo := by
  subst failed
  cases h with
  | refused io => exact io

theorem Does.get_bind {α : Type} {f : Desk → WriterM α} {Q : α → Desk → Prop} {desk : Desk}
    (h : Does (f desk desk) Q) : Does ((get >>= f) desk) Q := h

theorem Does.modify_bind {α : Type} {g : Desk → Desk} {f : PUnit → WriterM α}
    {Q : α → Desk → Prop} {desk : Desk} (h : Does (f ⟨⟩ (g desk)) Q) :
    Does ((modify g >>= f) desk) Q := h

namespace Writer

/-- Work on the files either changes the files alone or is refused. -/
theorem onFiles_apply (path : String) (act : FileTree → Except FileFault FileTree) (desk : Desk) :
    onFiles path act desk =
      match act desk.tree with
      | .ok tree => .ok () { desk with tree }
      | .error fault => .error (.ofFault path fault) desk := by
  rw [onFiles, bind_apply]
  show (match act desk.tree with
    | .ok tree => modify fun desk => { desk with tree }
    | .error fault => throw (.ofFault path fault) : WriterM Unit) desk = _
  cases act desk.tree <;> rfl

/-- An access to the files leaves the writer alone. -/
theorem does_onFiles {path : String} {act : FileTree → Except FileFault FileTree} {desk : Desk}
    {P : FileTree → Prop} (h : ∀ tree, act desk.tree = .ok tree → P tree) :
    Does (onFiles path act desk) fun _ after =>
      after.writer = desk.writer ∧ P after.tree := by
  rw [onFiles_apply]
  cases done : act desk.tree with
  | ok tree => exact .done ⟨rfl, h tree done⟩
  | error fault => exact .refused rfl

/-- Work on the files leaves the writer as it is. -/
theorem does_onFiles_writer (path : String) (act : FileTree → Except FileFault FileTree)
    (desk : Desk) : Does (onFiles path act desk) fun _ after => after.writer = desk.writer :=
  (does_onFiles (P := fun _ => True) fun _ _ => trivial).mono fun _ _ h => h.1

/-- An append checks the size of its record before anything is written. -/
theorem appendRecord_apply (kind : RecordKind) (payload : Bytes) (desk : Desk) :
    appendRecord kind payload desk =
      let record := desk.writer.record kind payload
      if ¬ record.Framable then .error (.serialization "record size overflow") desk
      else if desk.writer.emptyRoom < record.frame.length then
        .error (.entryTooLarge record.frame.length desk.writer.config.segmentSize) desk
      else
        (do
          rollIfFull record.frame.length
          place record
          count record
          pure record.index : WriterM UInt64) desk := by
  rw [appendRecord, bind_apply]
  simp only
  show (if _ then _ else _ : WriterM UInt64) desk = _
  split
  · rfl
  · rw [bind_apply]
    show (if _ then _ else _ : WriterM UInt64) desk = _
    split
    · rfl
    · rfl

/-- The second writer is the first but for its open segment and its summary. -/
def SameBook (w w' : Writer) : Prop :=
  w' = { w with current := w'.current, summary := w'.summary }

/-- What is twice no matter of the book is none. -/
theorem SameBook.trans {w w' w'' : Writer} (h : w.SameBook w') (h' : w'.SameBook w'') :
    w.SameBook w'' := by
  rw [SameBook, h', h]

/-- Closing the open segment, if there is one, leaves none and counts it. -/
theorem writer_roll (desk : Desk) : Does (roll desk) fun _ after =>
    after.writer =
      if desk.writer.current.isSome then
        { desk.writer with
          current := none
          summary.segments := tick desk.writer.summary.segments }
      else desk.writer := by
  apply Does.get_bind
  cases desk.writer.current with
  | none => exact .done rfl
  | some segment =>
    refine Does.modify_bind (Does.bind (does_onFiles_writer _ _ _) ?_)
    rintro - cut same
    refine Does.get_bind (Does.bind (does_onFiles_writer _ _ _) ?_)
    rintro - renamed same'
    refine .done ?_
    show { renamed.writer with
      summary.segments := tick renamed.writer.summary.segments } = _
    rw [same', same]
    rfl

/-- Closing the open segment is no matter of the book. -/
theorem book_roll (desk : Desk) : Does (roll desk) fun _ after => desk.writer.SameBook after.writer := by
  refine (writer_roll desk).mono fun _ after rolled => ?_
  rw [rolled]
  split <;> rfl

/-- So is closing it only if it is full. -/
theorem book_rollIfFull (size : Nat) (desk : Desk) :
    Does (rollIfFull size desk) fun _ after => desk.writer.SameBook after.writer := by
  apply Does.get_bind
  cases desk.writer.current with
  | none => exact .done rfl
  | some segment =>
    show Does ((if segment.remaining < size then roll else pure () : WriterM Unit) desk) _
    split
    · exact book_roll desk
    · exact .done rfl

/-- Making a file is not either. -/
theorem book_openSegment (record : LogRecord) (desk : Desk) :
    Does (openSegment record desk) fun _ after => after.writer = desk.writer := by
  apply Does.get_bind
  apply Does.get_bind
  cases desk.tree.create (Path.join desk.writer.dir (SegmentName.openName record.index)) with
  | error fault => exact .refused rfl
  | ok found =>
    refine Does.modify_bind ?_
    cases FileTree.checkLength desk.writer.config.segmentSize.toNat with
    | error fault => exact .refused rfl
    | ok u => exact .done rfl

/-- Putting a record in its place is none either. -/
theorem book_place (record : LogRecord) (desk : Desk) :
    Does (place record desk) fun _ after => desk.writer.SameBook after.writer := by
  apply Does.get_bind
  cases desk.writer.current with
  | some segment => exact .done rfl
  | none =>
    apply Does.bind (book_openSegment record desk)
    intro segment after same
    refine .done ?_
    show desk.writer.SameBook { after.writer with current := _ }
    rw [same]
    rfl

/-- Room is made for a record and it is placed, and the book is as before. -/
theorem book_append (record : LogRecord) (desk : Desk) :
    Does ((rollIfFull record.frame.length >>= fun _ => place record) desk) fun _ after =>
      desk.writer.SameBook after.writer := by
  refine Does.bind (book_rollIfFull _ desk) ?_
  rintro - ready book
  exact (book_place record ready).mono fun _ _ book' => book.trans book'

section Appends

variable {desk : Desk} {kind : RecordKind} {payload : Bytes}

/-- A record whose length does not fit its field is refused. -/
theorem appendRecord_of_unframable (long : ¬ (desk.writer.record kind payload).Framable) :
    appendRecord kind payload desk = .error (.serialization "record size overflow") desk := by
  rw [appendRecord_apply]
  exact if_pos long

/-- So is one that is larger than an empty segment. -/
theorem appendRecord_of_large (framed : (desk.writer.record kind payload).Framable)
    (large : desk.writer.emptyRoom < (desk.writer.record kind payload).frame.length) :
    appendRecord kind payload desk = .error (.entryTooLarge
      (desk.writer.record kind payload).frame.length desk.writer.config.segmentSize) desk := by
  rw [appendRecord_apply]
  simp only
  rw [if_neg (not_not_intro framed), if_pos large]

/-- Any other one is placed and counted. -/
theorem appendRecord_of_small (framed : (desk.writer.record kind payload).Framable)
    (small : ¬ desk.writer.emptyRoom < (desk.writer.record kind payload).frame.length) :
    appendRecord kind payload desk =
      ((rollIfFull (desk.writer.record kind payload).frame.length >>= fun _ =>
          place (desk.writer.record kind payload)) >>= fun _ =>
        count (desk.writer.record kind payload) >>= fun _ =>
          pure (desk.writer.record kind payload).index : WriterM UInt64) desk := by
  rw [appendRecord_apply]
  simp only
  rw [if_neg (not_not_intro framed), if_neg small, ← bind_assoc]

/-- It gives the next index, unless the file system refuses. -/
theorem does_appendRecord {P : Desk → Prop} (framed : (desk.writer.record kind payload).Framable)
    (small : ¬ desk.writer.emptyRoom < (desk.writer.record kind payload).frame.length)
    (places : Does ((rollIfFull (desk.writer.record kind payload).frame.length >>= fun _ =>
      place (desk.writer.record kind payload)) desk) fun _ placed => P placed) :
    Does (appendRecord kind payload desk) fun index after => index = desk.writer.nextIndex ∧
      ∃ placed, P placed ∧ count (desk.writer.record kind payload) placed = .ok () after := by
  rw [appendRecord_of_small framed small]
  refine places.bind ?_
  rintro - placed holds
  exact .done ⟨rfl, placed, holds, rfl⟩

/-- An append that is refused for its size leaves everything as it was. -/
theorem of_appendRecord_error {e : JournalError} {after : Desk}
    (failed : appendRecord kind payload desk = .error e after) (size : ¬ e.isIo) : after = desk := by
  by_cases framed : (desk.writer.record kind payload).Framable
  · by_cases large : desk.writer.emptyRoom < (desk.writer.record kind payload).frame.length
    · rw [appendRecord_of_large framed large] at failed
      cases failed
      rfl
    · -- what comes behind the checks is refused by the file system only
      have does := does_appendRecord framed large (book_append _ desk)
      exact absurd (does.isIo_of_error failed) size
  · rw [appendRecord_of_unframable framed] at failed
    cases failed
    rfl

end Appends

end Writer

/-! ## what a desk shows -/

/-- The open segment of a writer is that of a volume. -/
structure Volume.OpenAs (site : Site) (segment : OpenSegment) (v : Volume) : Prop where
  name : v.name = ⟨segment.start, none⟩
  last : v.records.getLast?.map (·.index) = some segment.last
  path : segment.path = (v.segment site).path
  handle : segment.handle = ⟨v.location site, v.stamp⟩
  written : segment.written = segmentBytes v.records

/-- The records of a volume fit into a segment of the given size. The file of an open one has that size;
the file of a closed one ends with its records. -/
structure Volume.Sized (size : Nat) (v : Volume) : Prop where
  fits : (segmentBytes v.records).length ≤ size
  padding : v.padding = if v.name.last = none then size - (segmentBytes v.records).length else 0

/-- The files of a desk hold the volumes, of which only the last may be open: it is the open segment. -/
structure Shows (site : Site) (desk : Desk) (volumes : List Volume) : Prop where
  dir : desk.writer.dir = site.dir
  holds : Holds site desk.tree volumes
  sized : ∀ v ∈ volumes, v.Sized desk.writer.config.segmentSize.toNat
  capacity : ∀ segment, desk.writer.current = some segment →
    segment.capacity = desk.writer.config.segmentSize.toNat
  current : ∀ segment, desk.writer.current = some segment →
    ∃ front v, volumes = front ++ [v] ∧ v.OpenAs site segment ∧ ∀ w ∈ front, w.name.last ≠ none
  closed : desk.writer.current = none → ∀ v ∈ volumes, v.name.last ≠ none

/-- The second volume is what has become of the first: it starts where that one did and has its records
first, and one that was closed is as it was. -/
structure Volume.Becomes (v v' : Volume) : Prop where
  start : v'.name.start = v.name.start
  records : v.records <+: v'.records
  closed : v.name.last ≠ none → v' = v

/-- Each of the volumes has become one of the others. -/
def Evolves (before volumes : List Volume) : Prop := ∀ v ∈ before, ∃ v' ∈ volumes, v.Becomes v'

/-- The given volumes are still there, and the records that the desk shows, one list for each volume, are
as is said. -/
def ShowsAs (site : Site) (before : List Volume) (P : List (List LogRecord) → Prop) (desk : Desk) :
    Prop :=
  ∃ volumes, Shows site desk volumes ∧ Evolves before volumes ∧ P (volumes.map (·.records))

theorem Volume.Becomes.refl (v : Volume) : v.Becomes v := ⟨rfl, List.prefix_refl _, fun _ => rfl⟩

/-- A volume that grows and then grows further has grown. -/
theorem Volume.Becomes.trans {v v' v'' : Volume} (h : v.Becomes v') (h' : v'.Becomes v'') :
    v.Becomes v'' := by
  refine ⟨h'.start.trans h.start, h.records.trans h'.records, fun closed => ?_⟩
  obtain rfl := h.closed closed
  exact h'.closed closed

theorem Evolves.refl (volumes : List Volume) : Evolves volumes volumes :=
  fun v mem => ⟨v, mem, .refl v⟩

/-- Volumes that change and then change further have changed. -/
theorem Evolves.trans {before between volumes : List Volume} (h : Evolves before between)
    (h' : Evolves between volumes) : Evolves before volumes := by
  intro v mem
  obtain ⟨v', mem', becomes⟩ := h v mem
  obtain ⟨v'', mem'', becomes'⟩ := h' v' mem'
  exact ⟨v'', mem'', becomes.trans becomes'⟩

/-- One more volume is nothing to the others. -/
theorem evolves_append (volumes more : List Volume) : Evolves volumes (volumes ++ more) :=
  fun v mem => ⟨v, List.mem_append_left _ mem, .refl v⟩

/-- Only the last volume may have changed. -/
theorem evolves_concat (front : List Volume) {v v' : Volume} (h : v.Becomes v') :
    Evolves (front ++ [v]) (front ++ [v']) := by
  intro w mem
  rcases List.mem_append.mp mem with mem | mem
  · exact ⟨w, List.mem_append_left _ mem, .refl w⟩
  · rw [List.mem_singleton.mp mem]
    exact ⟨v', List.mem_concat_self, h⟩

variable {site : Site} {desk : Desk} {volumes : List Volume} {record : LogRecord}

/-- A desk without an open segment and without volumes shows nothing. -/
theorem Shows.of_nothing (dir : desk.writer.dir = site.dir) (holds : Holds site desk.tree [])
    (none : desk.writer.current = none) : Shows site desk [] := by
  refine ⟨dir, holds, ?_, ?_, ?_, ?_⟩
  · exact fun v mem => absurd mem List.not_mem_nil
  · exact fun segment current => absurd (none.symm.trans current) (Option.some_ne_none segment).symm
  · exact fun segment current => absurd (none.symm.trans current) (Option.some_ne_none segment).symm
  · exact fun _ v mem => absurd mem List.not_mem_nil

/-- What a desk shows is not up to the counters and the buffer of its writer. -/
theorem Shows.of_writer (h : Shows site desk volumes) {w : Writer} (dir : w.dir = desk.writer.dir)
    (config : w.config = desk.writer.config) (current : w.current = desk.writer.current) :
    Shows site ⟨w, desk.tree⟩ volumes := by
  refine ⟨dir.trans h.dir, h.holds, ?_, ?_, ?_, ?_⟩
  · rw [config]
    exact h.sized
  · rw [config, current]
    exact h.capacity
  · rw [current]
    exact h.current
  · rw [current]
    exact h.closed

/-! ## closing a segment -/

/-- The file of a closed segment ends with its records. -/
theorem Volume.Sized.close {size : Nat} {v : Volume} (h : v.Sized size) (start last : UInt64) :
    Volume.Sized size { v with padding := 0, name := ⟨start, some last⟩ } :=
  ⟨h.fits, rfl⟩

/-- Closing the open segment keeps all records where they are. -/
theorem shows_roll (h : Shows site desk volumes) :
    Does (Writer.roll desk) fun _ after =>
      after.writer.current = none ∧
        ShowsAs site volumes (· = volumes.map (·.records)) after := by
  apply Does.get_bind
  cases current : desk.writer.current with
  | none => exact .done ⟨current, volumes, h, .refl volumes, rfl⟩
  | some segment =>
    obtain ⟨front, v, rfl, opened, others⟩ := h.current segment current
    have open_ : v.name.last = none := congrArg SegmentName.last opened.name
    have start : v.name.start = segment.start := congrArg SegmentName.start opened.name
    have sized := h.sized
    rw [List.forall_mem_append, List.forall_mem_singleton] at sized
    -- first the file is cut to what has been written, then it is renamed for its range
    obtain ⟨cut, resized, holds⟩ := h.holds.resize_last
    refine Does.modify_bind (Does.bind (Writer.does_onFiles (P := (· = cut)) ?_) ?_)
    · intro tree done
      rw [opened.path, opened.written, resized] at done
      cases done
      rfl
    rintro - ⟨w, tree⟩ ⟨rfl, rfl⟩
    refine Does.get_bind (Does.bind (Writer.does_onFiles (P := fun tree =>
      Holds site tree
        (front ++ [{ v with padding := 0, name := ⟨v.name.start, some segment.last⟩ }])) ?_) ?_)
    · intro tree' done
      simp only at done
      rw [opened.path, h.dir, ← start] at done
      rcases holds.rename_last open_ opened.last with ⟨fault, refused⟩ | ⟨tree'', renamed, holds'⟩
      · have := refused.symm.trans done
        cases this
      · cases renamed.symm.trans done
        exact holds'
    rintro - ⟨w, tree⟩ ⟨rfl, holds⟩
    refine .done ⟨rfl, _, ⟨h.dir, holds, ?_, ?_, ?_, fun _ => ?_⟩, ?_, ?_⟩
    · rw [List.forall_mem_append, List.forall_mem_singleton]
      exact ⟨sized.1, sized.2.close _ _⟩
    · intro segment current
      cases current
    · intro segment current
      cases current
    · rw [List.forall_mem_append, List.forall_mem_singleton]
      exact ⟨others, Option.some_ne_none _⟩
    · exact evolves_concat front ⟨rfl, List.prefix_refl _, fun closed => absurd open_ closed⟩
    · rw [List.map_append, List.map_append]
      rfl

/-! ## making room -/

/-- A segment that is too full for a record is closed; all records stay where they are. Then the open
segment, if there is one, has room, and if there is none, there was none or the last one was too full. -/
theorem shows_rollIfFull (h : Shows site desk volumes) (size : Nat) :
    Does (Writer.rollIfFull size desk) fun _ after =>
      ShowsAs site volumes (· = volumes.map (·.records)) after ∧
      (∀ segment, after.writer.current = some segment → size ≤ segment.remaining) ∧
      (after.writer.current = none → desk.writer.current = none ∨
        ∀ last ∈ (volumes.map (·.records)).getLast?,
          desk.writer.config.segmentSize.toNat < (segmentBytes last).length + size) := by
  apply Does.get_bind
  cases current : desk.writer.current with
  | none =>
    refine .done ⟨⟨volumes, h, .refl volumes, rfl⟩, fun segment same => ?_, fun _ => .inl rfl⟩
    cases current.symm.trans same
  | some segment =>
    show Does ((if segment.remaining < size then Writer.roll else pure () : WriterM Unit) desk) _
    by_cases full : segment.remaining < size
    · rw [if_pos full]
      have rolled := shows_roll h
      obtain ⟨front, v, rfl, opened, -⟩ := h.current segment current
      generalize Writer.roll desk = result at rolled ⊢
      cases rolled with
      | refused io => exact .refused io
      | done shown =>
        refine .done ⟨shown.2, fun segment' same => ?_, fun _ => .inr fun last mem => ?_⟩
        · cases shown.1.symm.trans same
        · rw [List.map_append, List.map_singleton, List.getLast?_concat] at mem
          cases mem
          rw [OpenSegment.remaining, h.capacity segment current, opened.written] at full
          omega
    · rw [if_neg full]
      refine .done ⟨⟨volumes, h, .refl volumes, rfl⟩, fun segment' same => ?_, fun none => ?_⟩
      · cases current.symm.trans same
        exact Nat.le_of_not_lt full
      · cases current.symm.trans none

/-! ## placing a record -/

/-- The second list of parts has one more record: behind those of the last part if there is an open
segment, and in a part of its own otherwise. -/
inductive Put (record : LogRecord) : (opened : Bool) → List (List LogRecord) → List (List LogRecord) → Prop
  | behind (front : List (List LogRecord)) (last : List LogRecord) :
    Put record true (front ++ [last]) (front ++ [last ++ [record]])
  | first (parts : List (List LogRecord)) : Put record false parts (parts ++ [[record]])

/-- There is one part more if there was no open segment. -/
theorem Put.length_eq {opened : Bool} {parts parts' : List (List LogRecord)}
    (h : Put record opened parts parts') : parts'.length = parts.length + if opened then 0 else 1 := by
  cases h with
  | behind front last => rw [List.length_append, List.length_append]; rfl
  | first => exact List.length_append

/-- The second list of parts has one more record: behind those of the last part, or in a part of its own
if there was no open segment or the last part left no room for it. -/
inductive Placed (size : Nat) (record : LogRecord) (closed : Prop) :
    List (List LogRecord) → List (List LogRecord) → Prop
  | behind (front : List (List LogRecord)) (last : List LogRecord) :
    Placed size record closed (front ++ [last]) (front ++ [last ++ [record]])
  | first {parts : List (List LogRecord)}
    (full : closed ∨ ∀ last ∈ parts.getLast?,
      size < (segmentBytes last).length + record.frame.length) :
    Placed size record closed parts (parts ++ [[record]])

/-- How a record has been put tells where it has been placed. -/
theorem Put.placed {opened : Bool} {parts parts' : List (List LogRecord)}
    (h : Put record opened parts parts') {size : Nat} {closed : Prop}
    (full : opened = false → closed ∨ ∀ last ∈ parts.getLast?,
      size < (segmentBytes last).length + record.frame.length) :
    Placed size record closed parts parts' := by
  cases h with
  | behind front last => exact .behind front last
  | first => exact .first (full rfl)

/-- A volume with one more record is sound, if the record comes after the others. -/
theorem Volume.Sound.concat {v : Volume} (h : v.Sound) (open_ : v.name.last = none)
    (framable : record.Framable) (later : ∀ r ∈ v.records, r.index < record.index)
    (padding : Nat) : Volume.Sound { v with records := v.records ++ [record], padding } := by
  refine ⟨?_, fun last closed => ?_, fun r mem => ?_, ?_⟩
  · show (v.records ++ [record]).head?.map (·.index) = some v.name.start
    obtain ⟨first, found, eq⟩ := Option.map_eq_some_iff.mp h.starts
    rw [List.head?_append, found, Option.some_or, Option.map_some, eq]
  · have := open_.symm.trans closed
    cases this
  · rcases List.mem_append.mp mem with mem | mem
    · exact h.framable r mem
    · rwa [List.mem_singleton.mp mem]
  · rw [List.pairwise_append]
    refine ⟨h.rising, List.pairwise_singleton _ _, fun r mem s last => ?_⟩
    rw [List.mem_singleton.mp last]
    exact later r mem

/-- The volume of a segment with one record. -/
def Volume.ofFirst (record : LogRecord) (stamp padding : Nat) : Volume :=
  ⟨⟨record.index, none⟩, [record], stamp, padding⟩

/-- A volume of one record that has a frame is sound. -/
theorem Volume.sound_ofFirst (framable : record.Framable) (stamp padding : Nat) :
    (Volume.ofFirst record stamp padding).Sound := by
  refine ⟨rfl, fun last closed => ?_, fun r mem => ?_, List.pairwise_singleton _ _⟩
  · cases closed
  · rwa [List.mem_singleton.mp mem]

/-- A segment of one record is the header and its frame. -/
theorem segmentBytes_singleton (record : LogRecord) :
    segmentBytes [record] = LogRecord.segmentHeader ++ record.frame := by
  rw [segmentBytes, List.flatMap_singleton]

/-- A record more is a frame more. -/
theorem segmentBytes_concat (records : List LogRecord) (record : LogRecord) :
    segmentBytes (records ++ [record]) = segmentBytes records ++ record.frame := by
  rw [segmentBytes_append, List.flatMap_singleton]

/-- The open segment with one more record is that of the volume with one more. -/
theorem Volume.OpenAs.append {segment : OpenSegment} {v : Volume} (h : v.OpenAs site segment)
    (record : LogRecord) (padding : Nat) :
    Volume.OpenAs site (segment.append record)
      { v with records := v.records ++ [record], padding } := by
  refine ⟨h.name, ?_, h.path, h.handle, ?_⟩
  · rw [List.getLast?_concat]
    rfl
  · rw [segmentBytes_concat, ← h.written]
    rfl

/-- A record goes behind those of the open segment if there is room. -/
theorem shows_store {segment : OpenSegment} (h : Shows site desk volumes)
    (current : desk.writer.current = some segment) (framable : record.Framable)
    (later : ∀ r ∈ (volumes.map (·.records)).flatten, r.index < record.index)
    (room : record.frame.length ≤ segment.remaining) :
    ShowsAs site volumes (Put record true (volumes.map (·.records)))
      { writer := { desk.writer with current := some (segment.append record) }
        tree := desk.tree.store (segment.append record).handle (segment.append record).content } := by
  have capacity := h.capacity segment current
  obtain ⟨front, v, rfl, opened, others⟩ := h.current segment current
  have member : v ∈ front ++ [v] := List.mem_concat_self
  -- the new record comes after all others, so after those of its volume
  have later' : ∀ r ∈ v.records, r.index < record.index := fun r mem =>
    later r (List.mem_flatten.mpr ⟨v.records, List.mem_map_of_mem member, mem⟩)
  have open_ : v.name.last = none := congrArg SegmentName.last opened.name
  have opened' := opened.append record (segment.append record).remaining
  have sound := (h.holds.sound v member).concat open_ framable later' (segment.append record).remaining
  -- what has been written leaves as many zeros as the full size asks for
  have fits : (segmentBytes (v.records ++ [record])).length ≤
      desk.writer.config.segmentSize.toNat := by
    have before := (h.sized v member).fits
    rw [OpenSegment.remaining, capacity, opened.written] at room
    rw [segmentBytes_concat, List.length_append]
    omega
  have remaining : (segment.append record).remaining =
      desk.writer.config.segmentSize.toNat - (segmentBytes (v.records ++ [record])).length := by
    rw [OpenSegment.remaining, opened'.written, ← capacity]
    rfl
  have stored := h.holds.store_last sound
  rw [← opened'.written] at stored
  have sized := h.sized
  rw [List.forall_mem_append, List.forall_mem_singleton] at sized
  refine ⟨front ++ [{ v with
    records := v.records ++ [record], padding := (segment.append record).remaining }],
    ⟨h.dir, ?_, ?_, ?_, ?_, fun none => by cases none⟩, ?_, ?_⟩
  · show Holds site (desk.tree.store segment.handle _) _
    rw [opened.handle]
    exact stored
  · rw [List.forall_mem_append, List.forall_mem_singleton]
    refine ⟨sized.1, fits, ?_⟩
    rw [if_pos open_]
    exact remaining
  · intro segment' same
    cases same
    exact capacity
  · intro segment' same
    cases same
    exact ⟨front, _, rfl, opened', others⟩
  · exact evolves_concat front ⟨rfl, List.prefix_append _ _, fun closed => absurd open_ closed⟩
  · rw [List.map_append, List.map_append]
    exact .behind _ _

/-- A new file takes a first record, if its path does not lead to what is there already. -/
theorem Holds.store_first {tree : FileTree} (h : Holds site tree volumes)
    (fits : FileTree.Fits site.dir (SegmentName.openName record.index))
    (framable : record.Framable) (later : ∀ v ∈ volumes, v.name.start < record.index)
    (padding : Nat) :
    let v := Volume.ofFirst record tree.nextStamp padding
    ∃ made, tree.create (v.segment site).path = .ok (⟨v.location site, v.stamp⟩, made) ∧
      Holds site
        (made.store ⟨v.location site, v.stamp⟩ ⟨LogRecord.segmentHeader ++ record.frame, padding⟩)
        (volumes ++ [v]) := by
  intro v
  have sound : v.Sound := Volume.sound_ofFirst framable _ _
  have absent : tree.Absent (v.location site) := by
    refine h.absent v.name sound.name fun w mem same => ?_
    have less := later w mem
    rw [same] at less
    exact UInt64.lt_irrefl _ less
  have led : tree.resolve (v.segment site).path = .ok (v.location site) :=
    (h.resolve_iff v.name).mpr ⟨fits, rfl⟩
  refine ⟨_, FileTree.create_of_absent led (v.not_isFixed site) absent, ?_⟩
  rw [FileTree.store_of_last (v.not_isFixed site) ⟨rfl, absent⟩, ← segmentBytes_singleton]
  exact h.append sound fits later rfl

/-- A record that comes after all others comes after the starts of their segments. -/
theorem Holds.start_lt {tree : FileTree} (h : Holds site tree volumes)
    (later : ∀ r ∈ (volumes.map (·.records)).flatten, r.index < record.index) :
    ∀ v ∈ volumes, v.name.start < record.index := by
  intro v mem
  obtain ⟨first, found, eq⟩ := Option.map_eq_some_iff.mp (h.sound v mem).starts
  rw [← eq]
  exact later first
    (List.mem_flatten.mpr ⟨_, List.mem_map_of_mem mem, List.mem_of_mem_head? found⟩)

/-- A record that fits into an empty segment starts a new one, unless its file cannot be made. -/
theorem shows_openSegment (h : Shows site desk volumes) (none : desk.writer.current = none)
    (framable : record.Framable)
    (later : ∀ r ∈ (volumes.map (·.records)).flatten, r.index < record.index)
    (fits : (segmentBytes [record]).length ≤ desk.writer.config.segmentSize.toNat) :
    Does (Writer.openSegment record desk) fun segment after =>
      ShowsAs site volumes (Put record false (volumes.map (·.records)))
        { writer := { after.writer with current := some segment }
          tree := after.tree.store segment.handle segment.content } := by
  have later' := h.holds.start_lt later
  apply Does.get_bind
  apply Does.get_bind
  cases created : desk.tree.create
      (Path.join desk.writer.dir (SegmentName.openName record.index)) with
  | error fault => exact .refused rfl
  | ok found =>
    obtain ⟨handle, made⟩ := found
    refine Does.modify_bind ?_
    cases FileTree.checkLength desk.writer.config.segmentSize.toNat with
    | error fault => exact .refused rfl
    | ok u =>
      -- a file could be made there, so its path was resolved
      have named : FileTree.Fits site.dir (SegmentName.openName record.index) := by
        cases led : desk.tree.resolve
            (Path.join desk.writer.dir (SegmentName.openName record.index)) with
        | error fault =>
          rw [FileTree.create, led] at created
          cases created
        | ok m =>
          rw [h.dir] at led
          exact ((h.holds.resolve_iff ⟨record.index, .none⟩).mp led).1
      obtain ⟨made', made_eq, holds⟩ := h.holds.store_first named framable later'
        (desk.writer.config.segmentSize.toNat - (LogRecord.segmentHeader ++ record.frame).length)
      rw [h.dir] at created
      cases made_eq.symm.trans created
      refine .done ⟨_, ⟨h.dir, holds, ?_, ?_, ?_, fun none => by cases none⟩,
        evolves_append _ _, ?_⟩
      · rw [List.forall_mem_append, List.forall_mem_singleton]
        refine ⟨h.sized, fits, ?_⟩
        rw [← segmentBytes_singleton]
        exact (if_pos rfl).symm
      · intro segment same
        cases same
        rfl
      · intro segment same
        cases same
        refine ⟨volumes, _, rfl, ⟨rfl, rfl, ?_, rfl, ?_⟩, h.closed none⟩
        · show Path.join desk.writer.dir _ = _
          rw [h.dir]
          rfl
        · exact (segmentBytes_singleton record).symm
      · rw [List.map_append, List.map_singleton]
        exact .first _

/-- A record for which room has been made is placed behind all others. -/
theorem shows_place (h : Shows site desk volumes) (framable : record.Framable)
    (later : ∀ r ∈ (volumes.map (·.records)).flatten, r.index < record.index)
    (fits : (segmentBytes [record]).length ≤ desk.writer.config.segmentSize.toNat)
    (room : ∀ segment, desk.writer.current = some segment →
      record.frame.length ≤ segment.remaining) :
    Does (Writer.place record desk) fun _ after =>
      after.writer.current ≠ none ∧
        ShowsAs site volumes (Put record desk.writer.current.isSome (volumes.map (·.records)))
          after := by
  apply Does.get_bind
  cases current : desk.writer.current with
  | some segment =>
    exact .done ⟨Option.some_ne_none _, shows_store h current framable later (room segment current)⟩
  | none =>
    apply Does.bind (shows_openSegment h current framable later fits)
    intro segment after shown
    exact .done ⟨Option.some_ne_none _, shown⟩

/-- A record that fits into an empty segment is placed behind all others, after a segment that is too
full for it has been closed. -/
theorem shows_append (h : Shows site desk volumes) (framable : record.Framable)
    (later : ∀ r ∈ (volumes.map (·.records)).flatten, r.index < record.index)
    (fits : (segmentBytes [record]).length ≤ desk.writer.config.segmentSize.toNat) :
    Does ((Writer.rollIfFull record.frame.length >>= fun _ => Writer.place record) desk) fun _ after =>
      after.writer.current ≠ none ∧
        ShowsAs site volumes
          (Placed desk.writer.config.segmentSize.toNat record (desk.writer.current = none)
            (volumes.map (·.records))) after := by
  refine Does.bind ((Writer.book_rollIfFull record.frame.length desk).imp_and fun _ : True =>
    shows_rollIfFull h record.frame.length) ?_
  rintro - ready ⟨book, ready_shows⟩
  obtain ⟨⟨volumes', shows, evolves, parts⟩, room, full⟩ := ready_shows trivial
  rw [← parts] at later full ⊢
  have config : ready.writer.config = desk.writer.config := by rw [book]
  refine Does.mono (shows_place shows framable later (config ▸ fits) room) ?_
  rintro - after ⟨open_, volumes'', shows', evolves', put⟩
  refine ⟨open_, volumes'', shows', evolves.trans evolves', put.placed fun none => full ?_⟩
  exact Option.isSome_eq_false_iff.mp none |> Option.isNone_iff_eq_none.mp

/-! ## how segments follow each other -/

/-- Where one part ends and the next one starts, the first record of the latter had no room behind the
former, or it has an index at which a segment has been closed on demand. -/
def Parted (size : Nat) (rolled : Nat → Prop) (part next : List LogRecord) : Prop :=
  ∀ record ∈ next.head?,
    rolled record.index.toNat ∨ size < (segmentBytes part).length + record.frame.length

/-- Placing a record adds it behind all others. -/
theorem Placed.flatten_eq {size : Nat} {closed : Prop} {parts parts' : List (List LogRecord)}
    (h : Placed size record closed parts parts') : parts'.flatten = parts.flatten ++ [record] := by
  cases h with
  | behind front last => rw [List.flatten_concat, List.flatten_concat, List.append_assoc]
  | first full => rw [List.flatten_concat]

/-- Placing a record keeps the parts parted, if a segment may be missing only at first or after one has
been closed on demand. -/
theorem Placed.parted {size : Nat} {closed : Prop} {rolled : Nat → Prop}
    {parts parts' : List (List LogRecord)} (h : Placed size record closed parts parts')
    (chain : parts.IsChain (Parted size rolled)) (filled : [] ∉ parts)
    (free : closed → parts = [] ∨ rolled record.index.toNat) :
    parts'.IsChain (Parted size rolled) := by
  cases h with
  | behind front last =>
    rw [List.isChain_append] at chain ⊢
    refine ⟨chain.1, List.isChain_singleton _, fun part before next same first mem => ?_⟩
    -- the last part has a record already, which stays its first
    have some_ : last ≠ [] := by
      rintro rfl
      exact filled List.mem_concat_self
    cases same
    rw [List.head?_append_of_ne_nil _ some_] at mem
    exact chain.2.2 part before last rfl first mem
  | first full =>
    rw [List.isChain_append]
    refine ⟨chain, List.isChain_singleton _, fun part before next same first mem => ?_⟩
    cases same
    cases mem
    rcases full with none | full
    · rcases free none with rfl | rolled
      · cases before
      · exact .inl rolled
    · exact .inr (full part before)

end RaftJournal
