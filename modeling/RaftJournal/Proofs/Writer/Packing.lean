import RaftJournal.Proofs.Writer.Readable

/-! # Records packed into segments

Records are **`Packed`** into parts when each part fits into a segment and ends only where the next record
would have been too much. There is one way at most to pack them (**`Packed.unique`**), and without the last
record the parts are the same but for the last one (**`Packed.of_concat`**). A writer that closes segments
for want of room alone packs its records, so two of them with the same records have segments with the same
names and bytes.

* **`Named`** parts have names that the system takes in a directory. -/

namespace RaftJournal

/-- The records are those of some parts, one after the other, which are no larger than a segment may be
and of which each leaves no room for what comes next. -/
structure Packed (size : Nat) (records : List LogRecord) (parts : List (List LogRecord)) : Prop where
  records : parts.flatten = records
  filled : [] ∉ parts
  fits : ∀ part ∈ parts, (segmentBytes part).length ≤ size
  parted : parts.IsChain (Parted size fun _ => False)

/-- The system takes the names of the parts in a directory: those of open segments, and those of closed
ones for all but the last part. -/
structure Named (dir : String) (parts : List (List LogRecord)) : Prop where
  starts : ∀ part ∈ parts, ∀ first ∈ part.head?,
    FileTree.Fits dir (SegmentName.openName first.index)
  ends : ∀ part ∈ parts.dropLast, ∀ first ∈ part.head?, ∀ last ∈ part.getLast?,
    FileTree.Fits dir (SegmentName.closedName first.index last.index)

variable {size : Nat} {records : List LogRecord} {record : LogRecord}
  {part : List LogRecord} {parts parts' front : List (List LogRecord)} {dir : String}

namespace Packed

theorem tail (h : Packed size records (part :: parts)) : Packed size parts.flatten parts :=
  ⟨rfl, fun mem => h.filled (List.mem_cons_of_mem _ mem),
    fun other mem => h.fits other (List.mem_cons_of_mem _ mem), h.parted.tail⟩

/-- Nothing is packed into no parts. -/
theorem eq_nil (h : Packed size [] parts) : parts = [] := by
  refine List.eq_nil_iff_forall_not_mem.mpr fun part mem => h.filled ?_
  rwa [List.flatten_eq_nil_iff.mp h.records part mem] at mem

/-- The first part leaves no room for the record behind it. -/
theorem full (h : Packed size records (part :: parts)) {rest : List LogRecord}
    (next : parts.flatten = record :: rest) : size < (segmentBytes (part ++ [record])).length := by
  cases parts with
  | nil => cases next
  | cons following others =>
    have some_ : following ≠ [] := by
      rintro rfl
      exact h.filled (List.mem_cons_of_mem _ List.mem_cons_self)
    have first : following.head? = some record := by
      have head := congrArg List.head? next
      rwa [List.flatten_cons, List.head?_append_of_ne_nil _ some_] at head
    have room := (h.parted.rel record first).resolve_left id
    rwa [segmentBytes_concat, List.length_append]

/-- No longer first part fits. -/
theorem eq_nil_of_longer (h : Packed size records (part :: parts)) {more rest : List LogRecord}
    (behind : parts.flatten = more ++ rest) (fits : (segmentBytes (part ++ more)).length ≤ size) :
    more = [] := by
  cases more with
  | nil => rfl
  | cons record more =>
    have small := h.full behind
    rw [List.append_cons, segmentBytes_append, List.length_append] at fits
    omega

/-- **There is one way to pack records.** -/
theorem unique (h : Packed size records parts) (h' : Packed size records parts') : parts = parts' := by
  -- on the parts; the first parts begin alike, and neither can be the longer one
  induction parts generalizing records parts' with
  | nil =>
    obtain rfl : [] = records := h.records
    exact h'.eq_nil.symm
  | cons part parts ih =>
    cases parts' with
    | nil =>
      obtain rfl : [] = records := h'.records
      cases h.eq_nil
    | cons part' parts' =>
      have same : part ++ parts.flatten = part' ++ parts'.flatten :=
        h.records.trans h'.records.symm
      have first : part = part' := by
        rcases List.append_eq_append_iff.mp same with ⟨more, rfl, behind⟩ | ⟨more, rfl, behind⟩
        · rw [h.eq_nil_of_longer behind (h'.fits _ List.mem_cons_self), List.append_nil]
        · rw [h'.eq_nil_of_longer behind (h.fits _ List.mem_cons_self), List.append_nil]
      subst first
      rw [ih h.tail (List.append_cancel_left same ▸ h'.tail)]

/-- A record for which the last part leaves no room starts a part of its own. -/
theorem concat (h : Packed size records parts) (fits : (segmentBytes [record]).length ≤ size)
    (full : ∀ last ∈ parts.getLast?, size < (segmentBytes last).length + record.frame.length) :
    Packed size (records ++ [record]) (parts ++ [[record]]) := by
  refine ⟨?_, fun mem => ?_, ?_, ?_⟩
  · rw [List.flatten_concat, h.records]
  · rcases List.mem_append.mp mem with mem | mem
    · exact h.filled mem
    · cases List.mem_singleton.mp mem
  · rw [List.forall_mem_append, List.forall_mem_singleton]
    exact ⟨h.fits, fits⟩
  · rw [List.isChain_append]
    refine ⟨h.parted, List.isChain_singleton _, fun last before next same first mem => ?_⟩
    cases same
    cases mem
    exact .inr (full last before)

/-- Without the last record the last part is shorter, or there is one part less. -/
theorem of_concat (h : Packed size (records ++ [record]) parts) :
    ∃ front last, parts = front ++ [last ++ [record]] ∧
      Packed size records (if last = [] then front else front ++ [last]) := by
  rcases List.eq_nil_or_concat' parts with rfl | ⟨front, whole, rfl⟩
  · exact absurd h.records.symm (List.append_ne_nil_of_right_ne_nil records (List.cons_ne_nil _ _))
  rcases List.eq_nil_or_concat' whole with rfl | ⟨last, final, rfl⟩
  · exact absurd List.mem_concat_self h.filled
  have flat := h.records
  rw [List.flatten_concat, ← List.append_assoc] at flat
  obtain ⟨before, same⟩ := List.append_inj' flat rfl
  cases same
  have fits := h.fits
  have filled : [] ∉ front := fun mem => h.filled (List.mem_append_left _ mem)
  have parted := h.parted
  rw [List.forall_mem_append, List.forall_mem_singleton, segmentBytes_append, List.length_append] at fits
  rw [List.isChain_append] at parted
  refine ⟨front, last, rfl, ?_⟩
  split
  · next empty =>
    rw [empty, List.append_nil] at before
    exact ⟨before, filled, fits.1, parted.1⟩
  · next some_ =>
    refine ⟨?_, fun mem => ?_, ?_, ?_⟩
    · rw [List.flatten_concat, before]
    · rcases List.mem_append.mp mem with mem | mem
      · exact filled mem
      · exact some_ (List.mem_singleton.mp mem).symm
    · rw [List.forall_mem_append, List.forall_mem_singleton]
      exact ⟨fits.1, by omega⟩
    · rw [List.isChain_append]
      refine ⟨parted.1, List.isChain_singleton _, fun part before next same first mem => ?_⟩
      cases same
      refine parted.2.2 part before (last ++ [record]) rfl first ?_
      rwa [List.head?_append_of_ne_nil _ some_]

end Packed

/-- The system takes the names of the parts also without the last record. -/
theorem Named.of_concat {last : List LogRecord} (h : Named dir (front ++ [last ++ [record]])) :
    Named dir (if last = [] then front else front ++ [last]) := by
  have starts := h.starts
  have ends := h.ends
  rw [List.forall_mem_append, List.forall_mem_singleton] at starts
  rw [List.dropLast_concat] at ends
  split
  · exact ⟨starts.1, fun part mem => ends part (List.dropLast_subset front mem)⟩
  · next some_ =>
    rw [List.head?_append_of_ne_nil _ some_] at starts
    refine ⟨?_, ?_⟩
    · rw [List.forall_mem_append, List.forall_mem_singleton]
      exact starts
    · rwa [List.dropLast_concat]

/-- The records can be packed so that the system takes the names of the parts. -/
def Suits (dir : String) (size : Nat) (records : List LogRecord) : Prop :=
  ∃ parts, Packed size records parts ∧ Named dir parts

theorem Suits.of_concat (h : Suits dir size (records ++ [record])) : Suits dir size records := by
  obtain ⟨parts, packed, named⟩ := h
  obtain ⟨front, last, rfl, packed'⟩ := packed.of_concat
  exact ⟨_, packed', named.of_concat⟩

/-- If the names of some records suit, those of the first of them do. -/
theorem Suits.of_prefix {earlier : List LogRecord} (h : Suits dir size records)
    (grown : earlier <+: records) : Suits dir size earlier := by
  obtain ⟨more, rfl⟩ := grown
  induction more using List.reverseRecOn with
  | nil => rwa [List.append_nil] at h
  | append_singleton more record ih =>
    rw [← List.append_assoc] at h
    exact ih h.of_concat

/-! ## packed ledgers -/

/-- Records that are divided among segments are packed if none has been closed on demand before one of
them. -/
theorem Ledger.Divided.packed {l : Ledger} {rolled : Nat → Prop} {closed : Prop}
    (h : l.Divided rolled closed parts) (filled : [] ∉ parts)
    (fits : ∀ part ∈ parts, (segmentBytes part).length ≤ l.config.segmentSize.toNat)
    (never : ∀ record ∈ l.records, ¬ rolled record.index.toNat) :
    Packed l.config.segmentSize.toNat l.records parts := by
  refine ⟨h.records, filled, fits, h.parted.imp_of_mem_imp fun part next _ mem parted first found => ?_⟩
  refine .inr ((parted first found).resolve_left (never first ?_))
  rw [← h.records]
  exact List.mem_flatten.mpr ⟨next, mem, List.mem_of_mem_head? found⟩

/-- So are those that a desk shows. -/
theorem Shows.packed {site : Site} {desk : Desk} {volumes : List Volume} {l : Ledger}
    {rolled : Nat → Prop} {closed : Prop} (h : Shows site desk volumes)
    (config : desk.writer.config = l.config)
    (divided : l.Divided rolled closed (volumes.map (·.records)))
    (never : ∀ record ∈ l.records, ¬ rolled record.index.toNat) :
    Packed l.config.segmentSize.toNat l.records (volumes.map (·.records)) := by
  refine divided.packed h.holds.nil_not_mem (fun part mem => ?_) never
  obtain ⟨v, member, rfl⟩ := List.mem_map.mp mem
  rw [← config]
  exact (h.sized v member).fits

/-- A ledger is suited to a directory if the indices suffice and the system takes the segments for its
records there. -/
structure Ledger.Suited (dir : String) (l : Ledger) : Prop where
  numbered : l.Numbered
  allowed : FileTree.checkLength l.config.segmentSize.toNat = .ok ()
  suits : Suits dir l.config.segmentSize.toNat l.records

/-- What is accepted later comes behind the records. -/
theorem Ledger.records_prefix {l l' : Ledger} (config : l'.config = l.config)
    (grown : l.accepted <+: l'.accepted) : l.records <+: l'.records := by
  obtain ⟨more, eq⟩ := grown
  rw [records, records, ← eq, List.mapIdx_append]
  have same : (fun before (append : RecordKind × Bytes) => l'.record before append.1 append.2) =
      fun before append => l.record before append.1 append.2 := by
    funext before append
    rw [record, record, config]
  exact ⟨_, congrArg (· ++ _) (congrArg (fun f => l.accepted.mapIdx f) same.symm)⟩

/-- A ledger that is suited in the end has been suited before. -/
theorem Ledger.Suited.of_grown {l l' : Ledger} (h : l'.Suited dir) (config : l'.config = l.config)
    (grown : l.accepted <+: l'.accepted) : l.Suited dir := by
  refine ⟨h.numbered.of_prefix config grown, config ▸ h.allowed, ?_⟩
  have suits := h.suits.of_prefix (Ledger.records_prefix config grown)
  rwa [config] at suits

theorem Ledger.Grows.suited {α : Type} {x : LedgerM α} {l : Ledger} (hx : Ledger.Grows x)
    (after : (finalState (x l)).Suited dir) : l.Suited dir :=
  after.of_grown (hx l).1 (hx l).2

/-! ## files of parts -/

/-- The file of a part: its name and its bytes. -/
def IsFileOf (part : List LogRecord) (name : String) (bytes : Bytes) : Prop :=
  ∃ first last, part.head? = some first ∧ part.getLast? = some last ∧
    name = SegmentName.closedName first.index last.index ∧ bytes = segmentBytes part

section Files

variable {site : Site} {desk : Desk} {volumes : List Volume}

/-- A segment that has been closed is named for its records and ends with them. -/
theorem Shows.closed_volume (h : Shows site desk volumes) (closed : desk.writer.current = none)
    {v : Volume} (mem : v ∈ volumes) :
    ∃ first last, v.records.head? = some first ∧ v.records.getLast? = some last ∧
      v.name = ⟨first.index, some last.index⟩ ∧ v.padding = 0 := by
  have sound := h.holds.sound v mem
  obtain ⟨stop, named⟩ := Option.ne_none_iff_exists'.mp (h.closed closed v mem)
  obtain ⟨first, found, start⟩ := Option.map_eq_some_iff.mp sound.starts
  obtain ⟨last, found', rfl⟩ := Option.map_eq_some_iff.mp (sound.ends stop named)
  refine ⟨first, last, found, found', ?_, ?_⟩
  · rw [start, ← named]
  · rw [(h.sized v mem).padding, named]
    rfl

/-- When all segments are closed, and there were no files at first, the files are those of the parts. -/
theorem Shows.hasFile_iff (h : Shows site desk volumes) (closed : desk.writer.current = none)
    (bare : ∀ name bytes, ¬ site.tree.HasFile site.dir name bytes) {name : String} {bytes : Bytes} :
    desk.tree.HasFile site.dir name bytes ↔
      ∃ part ∈ volumes.map (·.records), IsFileOf part name bytes := by
  have led := h.holds.extends_site.keeps.resolve site.led
  rw [FileTree.hasFile_iff led]
  constructor
  · rintro ⟨stamp, content, found, rfl⟩
    rcases h.holds.file_or_volume found with own | ⟨v, mem, same, rfl⟩
    · exact absurd ⟨site.location, stamp, content, site.led, own, rfl⟩ (bare name content.toList)
    · obtain ⟨first, last, starts, ends, named, whole⟩ := h.closed_volume closed mem
      refine ⟨v.records, List.mem_map_of_mem mem, first, last, starts, ends, ?_, ?_⟩
      · rw [(List.cons.inj (List.append_cancel_left same)).1, named]
        rfl
      · rw [Volume.content, whole, Content.toList, List.replicate_zero, List.append_nil]
  · rintro ⟨part, mem, first, last, starts, ends, rfl, rfl⟩
    obtain ⟨v, member, rfl⟩ := List.mem_map.mp mem
    obtain ⟨first', last', starts', ends', named, whole⟩ := h.closed_volume closed member
    cases starts.symm.trans starts'
    cases ends.symm.trans ends'
    refine ⟨v.stamp, v.content, ?_, ?_⟩
    · have found := h.holds.node?_volume member
      rw [Volume.location, named] at found
      exact found
    · rw [Volume.content, whole, Content.toList, List.replicate_zero, List.append_nil]

end Files

end RaftJournal
