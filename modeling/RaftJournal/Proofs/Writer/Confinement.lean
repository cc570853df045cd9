import RaftJournal.Proofs.Storage.Changes
import RaftJournal.Proofs.Writer.Readable

/-! # Where a writer writes

A writer touches no file but those that it makes itself: from its creation on, the tree differs from the
one before only at the names of segments below its directory, and in that one there was nothing at such a
name. So it is whatever the configuration, whether or not the file system refuses something, and also
where the indices have run out. What carries this through a run is that the writer **`Works`** at its
site: its open segment is the file that it has made for it, and is closed by a name that does not end
before it starts.

* **`Writer.Works.performAll`**: no operation leaves the site.
* **`Writer.spares_session`**: after any session of a writer all files are as before, and what is new has
  the name of a segment of its group. -/

namespace RaftJournal

/-! ## the locations of a site -/

/-- The locations of the segments that a site may have. -/
def Site.Reserves (site : Site) (l : Location) : Prop :=
  ∃ name : SegmentName, name.Sound ∧ l = site.location ++ [name.render]

/-- Nothing of a site is at the location of a segment. -/
theorem Site.node?_of_reserves (site : Site) {l : Location} (reserved : site.Reserves l) :
    site.tree.node? l = none := by
  obtain ⟨name, sound, rfl⟩ := reserved
  exact FileTree.node?_of_absent (FileTree.not_isFixed_append name.plain_render site.location)
    (site.absent sound)

/-- What differs from a site only at its segments has kept all of it. -/
theorem Site.keeps_of_differAt (site : Site) {tree : FileTree}
    (h : FileTree.DifferAt site.Reserves site.tree tree) : site.tree.Keeps tree := by
  intro l node found
  rw [h l, found]
  intro reserved
  rw [site.node?_of_reserves reserved] at found
  cases found

/-- The path of a segment leads to a location of the site. -/
theorem Site.reserves_of_resolve (site : Site) {tree : FileTree} (kept : site.tree.Keeps tree)
    {name : SegmentName} (sound : name.Sound) {l : Location}
    (led : tree.resolve (Path.join site.dir name.render) = .ok l) : site.Reserves l := by
  have found := kept _ _ site.found
  exact ⟨name, sound, ((FileTree.resolve_join_iff name.plain_render site.full site.noEnd
    (kept.resolve site.led) found).mp led).2⟩

theorem SegmentName.sound_open (start : UInt64) : Sound ⟨start, none⟩ := by
  rintro last ⟨⟩

theorem SegmentName.sound_closed {start last : UInt64} (le : start ≤ last) :
    Sound ⟨start, some last⟩ := by
  rintro _ ⟨⟩
  exact le

/-! ## what comes of an action -/

/-- An action ends with a result that is as is said, or with an error and a desk that is. -/
inductive Ends {α : Type} :
    EStateM.Result JournalError Desk α → (α → Desk → Prop) → (Desk → Prop) → Prop
  | ok {P : α → Desk → Prop} {E : Desk → Prop} {a : α} {desk : Desk} (h : P a desk) :
    Ends (.ok a desk) P E
  | error {P : α → Desk → Prop} {E : Desk → Prop} {e : JournalError} {desk : Desk} (h : E desk) :
    Ends (.error e desk) P E

section Ends

variable {α β : Type} {P P' : α → Desk → Prop} {Q : β → Desk → Prop} {E E' : Desk → Prop} {desk : Desk}

/-- Actions one after the other: the second starts where the first ends, unless that one fails. -/
theorem Ends.bind {x : WriterM α} {f : α → WriterM β} (hx : Ends (x desk) P E)
    (hf : ∀ a after, P a after → Ends (f a after) Q E) : Ends ((x >>= f) desk) Q E := by
  rw [bind_apply]
  generalize x desk = result at hx ⊢
  cases hx with
  | ok h => exact hf _ _ h
  | error h => exact .error h

/-- A result may be told less of. -/
theorem Ends.mono {result : EStateM.Result JournalError Desk α} (h : Ends result P E)
    (imp : ∀ a desk, P a desk → P' a desk) (imp' : ∀ desk, E desk → E' desk) :
    Ends result P' E' := by
  cases h with
  | ok h => exact .ok (imp _ _ h)
  | error h => exact .error (imp' _ h)

/-- What the errors of an action leave, and that only the file system makes them. -/
theorem Does.and_ends {α : Type} {result : EStateM.Result JournalError Desk α} {P Q : α → Desk → Prop}
    {E : Desk → Prop} (h : Does result P) (h' : Ends result Q E) :
    Does result fun a desk => P a desk ∧ Q a desk := by
  cases h with
  | done h =>
    cases h' with
    | ok h' => exact .done ⟨h, h'⟩
  | refused io => exact .refused io

theorem Ends.get_bind {f : Desk → WriterM β} (h : Ends (f desk desk) Q E) :
    Ends ((get >>= f) desk) Q E := h

theorem Ends.modify_bind {g : Desk → Desk} {f : PUnit → WriterM β} (h : Ends (f ⟨⟩ (g desk)) Q E) :
    Ends ((modify g >>= f) desk) Q E := h

end Ends

/-- The action keeps what is said of a desk, whether or not it succeeds. -/
def Preserves {α : Type} (P : Desk → Prop) (x : WriterM α) : Prop :=
  ∀ desk, P desk → Ends (x desk) (fun _ => P) P

section Preserves

variable {α β : Type} {P : Desk → Prop}

theorem preserves_pure (a : α) : Preserves P (pure a) := fun _ h => .ok h

/-- Actions one after the other keep what each of them keeps. -/
theorem Preserves.bind {x : WriterM α} {f : α → WriterM β} (hx : Preserves P x)
    (hf : ∀ a, Preserves P (f a)) : Preserves P (x >>= f) :=
  fun desk h => (hx desk h).bind fun a after h' => hf a after h'

theorem preserves_get : Preserves P get := fun _ h => .ok h

theorem preserves_modify {g : Desk → Desk} (h : ∀ desk, P desk → P (g desk)) :
    Preserves P (modify g) := fun desk h' => .ok (h desk h')

/-- What becomes of the answer does not matter. -/
theorem Preserves.map {x : WriterM α} (hx : Preserves P x) (f : α → β) :
    Preserves P (f <$> x) := by
  rw [map_eq_pure_bind]
  exact hx.bind fun a => preserves_pure (f a)

/-- What an action keeps holds of the desk that it leaves. -/
theorem Preserves.finalState {x : WriterM α} (hx : Preserves P x) {desk : Desk} (h : P desk) :
    P (finalState (x desk)) := by
  have ends := hx desk h
  generalize x desk = result at ends
  cases ends with
  | ok h => exact h
  | error h => exact h

end Preserves

namespace Writer

/-! ## what every operation keeps -/

/-- What appending a record keeps, and closing the open segment, and what does not depend on the buffer,
on the next sequence number or on what has been counted. -/
structure Steady (P : Desk → Prop) : Prop where
  appendRecord : ∀ kind payload, Preserves P (appendRecord kind payload)
  roll : Preserves P roll
  book : ∀ desk pending nextSequenceNumber summary, P desk →
    P { desk with writer := { desk.writer with pending, nextSequenceNumber, summary } }

/-- An append that is refused for its size changes nothing; any other record is placed and then counted. -/
theorem ends_appendRecord {P Q : Desk → Prop} {desk : Desk} {kind : RecordKind} {payload : Bytes}
    (h : P desk)
    (places : ¬ desk.writer.emptyRoom < (desk.writer.record kind payload).frame.length →
      Ends ((rollIfFull (desk.writer.record kind payload).frame.length >>= fun _ =>
        place (desk.writer.record kind payload)) desk) (fun _ => Q) P)
    (counts : ∀ placed, Q placed → P (finalState (count (desk.writer.record kind payload) placed))) :
    Ends (appendRecord kind payload desk) (fun _ => P) P := by
  by_cases framed : (desk.writer.record kind payload).Framable
  · by_cases large : desk.writer.emptyRoom < (desk.writer.record kind payload).frame.length
    · rw [appendRecord_of_large framed large]
      exact .error h
    · rw [appendRecord_of_small framed large]
      exact (places large).bind fun _ placed h' => .ok (counts placed h')
  · rw [appendRecord_of_unframable framed]
    exact .error h

namespace Steady

variable {P : Desk → Prop}

/-- So appending an encoded batch keeps it: this is an append, and counting. -/
theorem appendEncoded (h : Steady P) (batch : Batch) : Preserves P (appendEncoded batch) := by
  refine preserves_get.bind fun desk => (h.appendRecord _ _).bind fun index => ?_
  exact Preserves.bind (preserves_modify fun _ => h.book _ _ _ _) fun _ => preserves_pure _

/-- So flushing keeps it: the buffer is emptied, and a batch is appended. -/
theorem flush (h : Steady P) : Preserves P flush := by
  refine preserves_get.bind fun desk => ?_
  cases desk.writer.pending with
  | nil => exact preserves_pure ()
  | cons entry rest =>
    refine Preserves.bind (preserves_modify fun _ => h.book _ _ _ _) fun _ => ?_
    exact (h.appendEncoded _).bind fun _ => preserves_pure ()

/-- So writing an entry keeps it: the entry is buffered, and perhaps the buffer is flushed. -/
theorem writeEntry (h : Steady P) (entry : Entry) : Preserves P (writeEntry entry) := by
  refine Preserves.bind (preserves_modify fun _ => h.book _ _ _ _) fun _ =>
    preserves_get.bind fun desk => ?_
  simp only
  split
  · exact h.flush
  · exact preserves_pure ()

/-- So every operation keeps it, whether or not it succeeds. -/
theorem perform (h : Steady P) (operation : Operation) : Preserves P (perform operation) := by
  cases operation with
  | appendRecord kind payload => exact (h.appendRecord kind payload).map _
  | writeEntry entry => exact (h.writeEntry entry).map _
  | appendBatch batch => exact (h.flush.bind fun _ => h.appendEncoded batch).map _
  | flush => exact h.flush.map _
  | roll => exact h.roll.map _
  | finish =>
    exact (h.flush.bind fun _ => h.roll.bind fun _ => preserves_get.bind fun _ =>
      preserves_pure _).map _

/-- A whole run keeps what is steady, whatever becomes of its operations. -/
theorem performAll (h : Steady P) (operations : List Operation) {desk : Desk} (holds : P desk) :
    P (performAll Writer.perform operations desk).2 := by
  induction operations generalizing desk with
  | nil => exact holds
  | cons operation rest ih =>
    rw [performAll_cons]
    exact ih ((h.perform operation).finalState holds)

end Steady

variable {site : Site} {next : UInt64} {desk : Desk}

/-! ## segments -/

/-- The open segment is a file of the site, and its records have indices from the first one on, below the
next one or the largest. -/
structure Owns (site : Site) (next : UInt64) (segment : OpenSegment) : Prop where
  path : segment.path = Path.join site.dir (SegmentName.openName segment.start)
  handle : site.Reserves segment.handle.location
  start_le : segment.start ≤ segment.last
  last_le : segment.last ≤ next

/-- The writer is about to append a record with the next index. Its directory is that of the site, its
open segment a file of it, and the tree differs from that of the site only at segments. -/
structure Works (site : Site) (next : UInt64) (desk : Desk) : Prop where
  dir : desk.writer.dir = site.dir
  index : desk.writer.nextIndex = next
  files : FileTree.DifferAt site.Reserves site.tree desk.tree
  current : ∀ segment, desk.writer.current = some segment → Owns site next segment

/-- All that was at other places than the segments of the site is still there. -/
theorem Works.keeps (h : Works site next desk) : site.tree.Keeps desk.tree :=
  site.keeps_of_differAt h.files

/-- Work on the files of segments keeps to the site. -/
theorem Works.onFiles (h : Works site next desk) (path : String)
    {act : FileTree → Except FileFault FileTree}
    (inside : ∀ tree, act desk.tree = .ok tree →
      FileTree.DifferAt site.Reserves desk.tree tree) :
    Ends (onFiles path act desk) (fun _ => Works site next) (Works site next) := by
  rw [onFiles_apply]
  cases done : act desk.tree with
  | ok tree => exact .ok ⟨h.dir, h.index, h.files.trans (inside tree done), h.current⟩
  | error fault => exact .error h

/-- The open segment is closed by a name of the site. -/
theorem works_roll : Preserves (Works site next) roll := by
  intro desk h
  apply Ends.get_bind
  cases current : desk.writer.current with
  | none => exact .ok h
  | some segment =>
    obtain ⟨path, handle, start_le, last_le⟩ := h.current segment current
    have emptied : Works site next
        { desk with writer := { desk.writer with current := none } } :=
      ⟨h.dir, h.index, h.files, fun _ none => by cases none⟩
    -- wherever the path of the segment leads, it is the location of an open segment
    have own {tree : FileTree} (kept : site.tree.Keeps tree) (l : Location)
        (led : tree.resolve segment.path = .ok l) : site.Reserves l :=
      site.reserves_of_resolve kept (SegmentName.sound_open segment.start) (path ▸ led)
    refine Ends.modify_bind ((emptied.onFiles segment.path fun tree done =>
      FileTree.differAt_resize done (own h.keeps)).bind fun _ desk h => ?_)
    refine Ends.get_bind ((h.onFiles segment.path fun tree done =>
      FileTree.differAt_rename done (own h.keeps) fun l led => ?_).bind fun _ desk h => ?_)
    · rw [h.dir] at led
      exact site.reserves_of_resolve h.keeps (SegmentName.sound_closed start_le) led
    · exact .ok ⟨h.dir, h.index, h.files, h.current⟩

/-- Closing the open segment only if it is full keeps to the site. -/
theorem works_rollIfFull (size : Nat) : Preserves (Works site next) (rollIfFull size) := by
  intro desk h
  apply Ends.get_bind
  cases desk.writer.current with
  | none => exact .ok h
  | some segment =>
    simp only
    split
    · exact works_roll desk h
    · exact .ok h

/-- A new segment is a file of the site, which is there also if it cannot be used. -/
theorem works_openSegment (h : Works site next desk) {first : LogRecord} (index : first.index = next) :
    Ends (openSegment first desk)
      (fun segment after => Works site next after ∧ Owns site next segment) (Works site next) := by
  apply Ends.get_bind
  apply Ends.get_bind
  rw [h.dir]
  cases created : desk.tree.create (Path.join site.dir (SegmentName.openName first.index)) with
  | error fault => exact .error h
  | ok made =>
    obtain ⟨handle, tree⟩ := made
    obtain ⟨reserved, -, differ⟩ := FileTree.differAt_create created fun l led =>
      site.reserves_of_resolve h.keeps (SegmentName.sound_open first.index) led
    have made : Works site next { desk with tree } :=
      ⟨h.dir, h.index, h.files.trans differ, h.current⟩
    refine Ends.modify_bind ?_
    cases FileTree.checkLength _ with
    | error fault => exact .error made
    | ok u => exact .ok ⟨made, rfl, reserved, UInt64.le_refl _, UInt64.le_of_eq index⟩

/-- The open segment may be changed, and its file with it. -/
theorem Works.store (h : Works site next desk) {segment : OpenSegment}
    (own : Owns site next segment) :
    Works site next
      { writer := { desk.writer with current := some segment }
        tree := desk.tree.store segment.handle segment.content } := by
  refine ⟨h.dir, h.index, h.files.trans (FileTree.differAt_store own.handle _), ?_⟩
  rintro _ ⟨⟩
  exact own

/-- Putting a record in its place keeps to the site, in the open segment or in a new one. -/
theorem works_place {record : LogRecord} (index : record.index = next) :
    Preserves (Works site next) (place record) := by
  intro desk h
  apply Ends.get_bind
  cases current : desk.writer.current with
  | some segment =>
    obtain ⟨path, handle, start_le, last_le⟩ := h.current segment current
    have le : segment.start ≤ record.index := by
      rw [index]
      exact UInt64.le_trans start_le last_le
    have own : Owns site next (segment.append record) :=
      ⟨path, handle, le, UInt64.le_of_eq index⟩
    exact .ok (h.store own)
  | none =>
    refine (works_openSegment h index).bind ?_
    rintro segment after ⟨h, own⟩
    exact .ok (h.store own)

/-! ## operations -/

/-- The writer of a desk works at the site. -/
def Stays (site : Site) (desk : Desk) : Prop := ∃ next, Works site next desk

/-- A counter never falls. -/
theorem toNat_le_tick (n : UInt64) : n ≤ tick n := by
  have bound : n.toNat < UInt64.size := n.toNat_lt
  rw [UInt64.le_iff_toNat_le, toNat_tick]
  omega

/-- A record that has been placed takes the next index, and the one after it is no smaller. -/
theorem Works.count (h : Works site next desk) (record : LogRecord) :
    Works site (tick next) (Writer.count record desk |> finalState) := by
  refine ⟨h.dir, congrArg tick h.index, h.files, fun segment current => ?_⟩
  obtain ⟨path, handle, start_le, last_le⟩ := h.current segment current
  exact ⟨path, handle, start_le, UInt64.le_trans last_le (toNat_le_tick next)⟩

/-- What a writer has in its buffer and what it has counted are nothing to its files. -/
theorem Stays.with_book (h : Stays site desk) {w : Writer} (dir : w.dir = desk.writer.dir)
    (index : w.nextIndex = desk.writer.nextIndex) (current : w.current = desk.writer.current) :
    Stays site ⟨w, desk.tree⟩ := by
  obtain ⟨next, h⟩ := h
  refine ⟨next, dir.trans h.dir, index.trans h.index, h.files, fun segment open_ => ?_⟩
  exact h.current segment (current.symm.trans open_)

/-- An append stays at the site, accepted or not. -/
theorem stays_appendRecord (kind : RecordKind) (payload : Bytes) :
    Preserves (Stays site) (appendRecord kind payload) := by
  rintro desk ⟨next, h⟩
  have index : (desk.writer.record kind payload).index = next := h.index
  have stays (after : Desk) (h : Works site next after) : Stays site after := ⟨next, h⟩
  refine ends_appendRecord (stays desk h) (fun _ => ?_)
    fun placed (h : Works site next placed) => ⟨tick next, h.count _⟩
  refine ((works_rollIfFull _ desk h).mono (fun _ _ h => h) stays).bind fun _ desk h => ?_
  exact (works_place index desk h).mono (fun _ _ h => h) stays

/-- Closing the open segment stays at the site. -/
theorem stays_roll : Preserves (Stays site) roll := by
  rintro desk ⟨next, h⟩
  exact (works_roll desk h).mono (fun _ _ h => ⟨next, h⟩) fun _ h => ⟨next, h⟩

/-- To stay at a site is steady. -/
theorem steady_stays (site : Site) : Steady (Stays site) :=
  ⟨stays_appendRecord, stays_roll, fun _ _ _ _ h => h.with_book rfl rfl rfl⟩

/-- **A writer stays at its site**, whatever becomes of its operations. -/
theorem Stays.performAll (operations : List Operation) (h : Stays site desk) :
    Stays site (performAll perform operations desk).2 :=
  (steady_stays site).performAll operations h

/-! ## sessions -/

variable {tree made : FileTree} {root : String} {config : WriterConfig} {codec : Codec} {w : Writer}

/-- The files after a writer has been created, if it could be, and has performed some operations. -/
def session (tree : FileTree) (root : String) (config : WriterConfig) (codec : Codec)
    (operations : List Operation) : FileTree :=
  match create tree root config codec with
  | (.error _, made) => made
  | (.ok w, made) => (performAll perform operations ⟨w, made⟩).2.tree

/-- A writer that has been created works at a site. -/
theorem exists_stays (created : create tree root config codec = (.ok w, made)) :
    ∃ site : Site, site.tree = made ∧ site.dir = groupDirectory root config.group ∧
      Stays site ⟨w, made⟩ := by
  obtain ⟨site, rfl, dir, follows⟩ := exists_site created fun _ => True
  obtain ⟨path, eq, -, -, rfl⟩ := of_create created
  refine ⟨site, rfl, dir, config.startIndex, eq.trans dir.symm, rfl, .refl _ _, ?_⟩
  rintro segment ⟨⟩

/-- Whether or not a writer can be created, only directories are made. -/
theorem furnishes_create (tree : FileTree) (root : String) (config : WriterConfig) (codec : Codec) :
    tree.Furnishes (create tree root config codec).2 := by
  have furnishes := FileTree.furnishes_makeDirectories tree (groupDirectory root config.group)
  unfold create
  simp only
  generalize tree.makeDirectories (groupDirectory root config.group) = directories at furnishes
  obtain ⟨result, after⟩ := directories
  cases result with
  | error fault => exact furnishes
  | ok u =>
    simp only
    split <;> exact furnishes

/-- No writer is created where the directory of the group has something with the name of a segment, and
then nothing is changed. -/
theorem create_of_child {l : Location} {child : String}
    (led : tree.resolve (groupDirectory root config.group) = .ok l)
    (found : tree.node? l = some .directory) (mem : child ∈ tree.children l)
    (named : (SegmentName.parse child).isSome) :
    create tree root config codec =
      (.error (.segmentsAlreadyExist (groupDirectory root config.group)), tree) := by
  obtain ⟨name, parsed⟩ := Option.isSome_iff_exists.mp named
  have listed : segmentsIn tree (groupDirectory root config.group) ≠ [] := by
    have member : LogSegment.mk name.start name.last
        (Path.join (groupDirectory root config.group) child) ∈
          segmentsIn tree (groupDirectory root config.group) := by
      rw [segmentsIn, led]
      simp only
      rw [List.mem_mergeSort, List.mem_filterMap]
      refine ⟨child, mem, ?_⟩
      rw [LogSegment.ofName?, parsed]
      rfl
    exact List.ne_nil_of_mem member
  unfold create
  simp only
  rw [FileTree.makeDirectories_of_resolve led found]
  simp only
  rw [if_neg listed]

/-- The second tree has all that the first one has, so that every file is read by the same paths, and
every new file is directly below a directory and has the name of a segment. -/
structure Spares (dir : String) (tree tree' : FileTree) : Prop where
  places : ∀ l node, tree.node? l = some node → tree'.node? l = some node
  paths : ∀ path content, tree.read path = .ok content → tree'.read path = .ok content
  new : ∀ l stamp content, tree'.node? l = some (.file stamp content) →
    tree.node? l = some (.file stamp content) ∨
      tree.node? l = none ∧ ∃ m name, tree'.resolve dir = .ok m ∧ SegmentName.Sound name ∧
        l = m ++ [name.render]

/-- Where only directories have been made, there is no new file. -/
theorem spares_of_furnishes {tree' : FileTree} (h : tree.Furnishes tree') (dir : String) :
    Spares dir tree tree' :=
  ⟨h.keeps, fun _ _ read => h.keeps.read read, fun _ _ _ found => .inl (h.file found)⟩

/-- **A session spares what was there.** -/
theorem spares_session (tree : FileTree) (root : String) (config : WriterConfig) (codec : Codec)
    (operations : List Operation) :
    Spares (groupDirectory root config.group) tree (session tree root config codec operations) := by
  have furnishes := furnishes_create tree root config codec
  unfold session
  generalize created : create tree root config codec = answered at furnishes ⊢
  obtain ⟨result, made⟩ := answered
  cases result with
  | error e => exact spares_of_furnishes furnishes _
  | ok w =>
    obtain ⟨site, rfl, dir, stays⟩ := exists_stays created
    obtain ⟨next, works⟩ := stays.performAll operations
    have kept := furnishes.keeps.trans works.keeps
    refine ⟨kept, fun path content read => kept.read read, fun l stamp content found => ?_⟩
    -- a file is as it was at the site, where no file is new, or is that of a segment
    by_cases reserved : site.Reserves l
    · have none := site.node?_of_reserves reserved
      obtain ⟨name, sound, rfl⟩ := reserved
      refine .inr ⟨?_, site.location, name, dir ▸ works.keeps.resolve site.led, sound, rfl⟩
      rcases furnishes (site.location ++ [name.render]) with same | ⟨absent, -⟩
      · exact same.symm.trans none
      · exact absent
    · rw [works.files l reserved] at found
      exact .inl (furnishes.file found)

end Writer

end RaftJournal
