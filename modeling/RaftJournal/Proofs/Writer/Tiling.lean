import RaftJournal.Proofs.Writer.Entries
import RaftJournal.Proofs.Writer.Readable

/-! # Segments tile the appended indices

The segments of a group are a **`Tiling`** of the records appended to it: each holds the records of its
range and no other, starts right behind the one before it, and was started only when that one had no room
for its first record or had been closed on demand. Closed segments end with their records; the open one,
if there is one, is the last and has its full size.

* **`Shows.filed`**: the file of a segment that a desk shows.
* **`Shows.held_eq`**: the records in the range of a segment are those of its volume.
* **`Writer.segments_tile`**: so it is after every run of a created writer. -/

namespace RaftJournal

/-! ## tilings -/

/-- The number of bytes of a segment's header and of some records: 8, and for each record its payload and
25 besides. -/
def segmentLength (records : List LogRecord) : Nat :=
  records.foldr (fun record rest => 25 + record.payload.length + rest) 8

theorem length_segmentBytes_eq (records : List LogRecord) :
    (segmentBytes records).length = segmentLength records := by
  rw [length_segmentBytes]
  induction records with
  | nil => rfl
  | cons record rest ih =>
    rw [segmentLength, List.foldr_cons, ← segmentLength, ← ih, List.flatMap_cons, List.length_append,
      LogRecord.length_frame, LogRecord.overhead_eq]
    omega

namespace LogSegment

/-- The records in the range of a segment. -/
def held (s : LogSegment) (records : List LogRecord) : List LogRecord :=
  records.filter fun record => s.contains record.index

/-- The file of a segment holds the records, at least one, and its name is that of their range. If the
segment is open the file has the full size, otherwise that of the records; what follows them is zero. -/
structure Filed (tree : FileTree) (size : Nat) (records : List LogRecord) (s : LogSegment) :
    Prop where
  first : records.head?.map (·.index) = some s.start
  last : ∀ last, s.last = some last → records.getLast?.map (·.index) = some last
  fits : segmentLength records ≤ size
  file : ∃ content, tree.read s.path = .ok content ∧
    content.length = (if s.isOpen then size else segmentLength records) ∧
    content.toList =
      segmentBytes records ++ List.replicate (content.length - segmentLength records) 0

end LogSegment

/-- The segments cover the records from an index on without gaps, and none is closed while it has room
for the next record, except at the given indices. -/
structure Tiling (tree : FileTree) (size : Nat) (start : UInt64) (records : List LogRecord)
    (rolls : List Nat) (segments : List LogSegment) : Prop where
  first : ∀ s ∈ segments.head?, s.start = start
  adjacent : segments.IsChain fun s next =>
    ∃ last, s.last = some last ∧ last.toNat + 1 = next.start.toNat
  covers : ∀ record ∈ records, ∃ s ∈ segments, s.contains record.index
  filed : ∀ s ∈ segments, s.Filed tree size (s.held records)
  greedy : segments.IsChain fun s next => next.start.toNat ∈ rolls ∨
    ∀ record ∈ (next.held records).head?,
      size < segmentLength (s.held records) + record.frame.length

/-! ## volumes as tiles -/

section Volumes

variable {site : Site} {desk : Desk} {volumes : List Volume} {v w : Volume}

/-- A segment is closed if another one starts after it. -/
theorem Shows.closed_of_lt (h : Shows site desk volumes) (mem : v ∈ volumes) (mem' : w ∈ volumes)
    (less : v.name.start < w.name.start) : v.name.last ≠ none := by
  cases current : desk.writer.current with
  | none => exact h.closed current v mem
  | some segment =>
    obtain ⟨front, u, rfl, -, others⟩ := h.current segment current
    rcases List.mem_append.mp mem with mem | mem
    · exact others v mem
    · -- the last of the volumes starts after all others
      rw [List.mem_singleton.mp mem] at less
      rcases List.mem_append.mp mem' with mem' | mem'
      · have behind := (List.pairwise_append.mp h.holds.rising).2.2 w mem' u
          (List.mem_singleton.mpr rfl)
        exact absurd (UInt64.lt_trans less behind) (UInt64.lt_irrefl _)
      · rw [List.mem_singleton.mp mem'] at less
        exact absurd less (UInt64.lt_irrefl _)

/-- The file of a segment that a desk shows holds the records of the volume. -/
theorem Shows.filed (h : Shows site desk volumes) (mem : v ∈ volumes) :
    (v.segment site).Filed desk.tree desk.writer.config.segmentSize.toNat v.records := by
  have sized := h.sized v mem
  have sound := h.holds.sound v mem
  have fits := sized.fits
  have padding := sized.padding
  rw [length_segmentBytes_eq] at fits padding
  have total : v.content.length = segmentLength v.records + v.padding := by
    rw [← length_segmentBytes_eq]
    rfl
  refine ⟨sound.starts, sound.ends, fits, v.content, h.holds.read_segment mem, ?_, ?_⟩
  · rw [total, padding]
    cases open_ : v.name.last with
    | none =>
      have isOpen : (v.segment site).isOpen = true := Option.isNone_iff_eq_none.mpr open_
      rw [isOpen, if_pos rfl, if_pos rfl]
      omega
    | some last =>
      have isClosed : (v.segment site).isOpen = false := by
        show v.name.last.isNone = false
        rw [open_]
        rfl
      rw [isClosed, if_neg (Option.some_ne_none last), if_neg Bool.false_ne_true, Nat.add_zero]
  · rw [total, Nat.add_sub_cancel_left]
    rfl

/-- The records in the range of a segment are those of its volume. -/
theorem Shows.held_eq (h : Shows site desk volumes)
    (rising : (volumes.map (·.records)).flatten.Pairwise (·.index < ·.index)) (mem : v ∈ volumes) :
    (v.segment site).held (volumes.map (·.records)).flatten = v.records := by
  have sound := h.holds.sound v mem
  have own : v.records.filter (fun record => (v.segment site).contains record.index) = v.records := by
    rw [List.filter_eq_self]
    exact fun record member => (sound.admits site member).2
  obtain ⟨front, back, rfl⟩ := List.append_of_mem mem
  rw [List.map_append, List.map_cons, List.flatten_append, List.flatten_cons] at rising ⊢
  obtain ⟨-, later, before⟩ := List.pairwise_append.mp rising
  have earlier : (front.map (·.records)).flatten.filter
      (fun record => (v.segment site).contains record.index) = [] := by
    rw [List.filter_eq_nil_iff]
    exact fun record member => sound.not_contains_of_before site fun r inside =>
      before record member r (List.mem_append_left _ inside)
  -- where records follow there is a later volume, so this one is closed
  have others : (back.map (·.records)).flatten.filter
      (fun record => (v.segment site).contains record.index) = [] := by
    rw [List.filter_eq_nil_iff]
    intro record member
    obtain ⟨part, among, inside⟩ := List.mem_flatten.mp member
    obtain ⟨w, behind, rfl⟩ := List.mem_map.mp among
    have starts := (List.pairwise_cons.mp (List.pairwise_append.mp h.holds.rising).2.1).1 w behind
    have closed := h.closed_of_lt mem
      (List.mem_append_right _ (List.mem_cons_of_mem _ behind)) starts
    exact sound.not_contains_of_after site closed fun r own =>
      (List.pairwise_append.mp later).2.2 r own record member
  rw [LogSegment.held, List.filter_append, List.filter_append, earlier, own, others,
    List.nil_append, List.append_nil]

/-- The first segment that a desk shows starts with the first record. -/
theorem Shows.start_of_head? (h : Shows site desk volumes) {s : LogSegment}
    (first : s ∈ (volumes.map (Volume.segment site)).head?) :
    (volumes.map (·.records)).flatten.head?.map (·.index) = some s.start := by
  cases volumes with
  | nil => cases first
  | cons v rest =>
    cases first
    have starts := (h.holds.sound v List.mem_cons_self).starts
    obtain ⟨record, found, -⟩ := Option.map_eq_some_iff.mp starts
    rw [List.map_cons, List.flatten_cons, List.head?_append, found, Option.some_or, ← found]
    exact starts

/-- Every record is in the range of a segment. -/
theorem Shows.covers (h : Shows site desk volumes) {record : LogRecord}
    (mem : record ∈ (volumes.map (·.records)).flatten) :
    ∃ s ∈ volumes.map (Volume.segment site), s.contains record.index := by
  obtain ⟨part, among, inside⟩ := List.mem_flatten.mp mem
  obtain ⟨v, member, rfl⟩ := List.mem_map.mp among
  exact ⟨v.segment site, List.mem_map_of_mem member,
    ((h.holds.sound v member).admits site inside).2⟩

/-- Where the indices of the records follow each other, a segment starts right behind the last index of
the one before it. -/
theorem Shows.adjacent (h : Shows site desk volumes)
    (consecutive : (volumes.map (·.records)).flatten.IsChain fun record next =>
      record.index.toNat + 1 = next.index.toNat) :
    (volumes.map (Volume.segment site)).IsChain fun s next =>
      ∃ last, s.last = some last ∧ last.toNat + 1 = next.start.toNat := by
  rw [List.isChain_flatten h.holds.nil_not_mem, List.isChain_map] at consecutive
  have between := List.isChain_iff_forall_rel_of_append_cons_cons.mp consecutive.2
  rw [List.isChain_map, List.isChain_iff_forall_rel_of_append_cons_cons]
  rintro v w front back rfl
  have mem : v ∈ front ++ v :: w :: back := List.mem_append_right _ List.mem_cons_self
  have mem' : w ∈ front ++ v :: w :: back :=
    List.mem_append_right _ (List.mem_cons_of_mem _ List.mem_cons_self)
  have less := (List.pairwise_cons.mp (List.pairwise_append.mp h.holds.rising).2.1).1 w
    List.mem_cons_self
  obtain ⟨last, closed⟩ := Option.ne_none_iff_exists'.mp (h.closed_of_lt mem mem' less)
  obtain ⟨final, found, rfl⟩ := Option.map_eq_some_iff.mp ((h.holds.sound v mem).ends last closed)
  obtain ⟨first, found', start⟩ := Option.map_eq_some_iff.mp (h.holds.sound w mem').starts
  refine ⟨final.index, closed, ?_⟩
  show _ = w.name.start.toNat
  rw [← start]
  exact between rfl final found first found'

/-- Where parts are parted, a segment had no room for the first record of the next one, or was closed on
demand. -/
theorem Shows.greedy (h : Shows site desk volumes) {size : Nat} {rolls : List Nat}
    (rising : (volumes.map (·.records)).flatten.Pairwise (·.index < ·.index))
    (parted : (volumes.map (·.records)).IsChain (Parted size (· ∈ rolls))) :
    (volumes.map (Volume.segment site)).IsChain fun s next => next.start.toNat ∈ rolls ∨
      ∀ record ∈ (next.held (volumes.map (·.records)).flatten).head?,
        size < segmentLength (s.held (volumes.map (·.records)).flatten) + record.frame.length := by
  rw [List.isChain_map] at parted
  have apart := List.isChain_iff_forall_rel_of_append_cons_cons.mp parted
  rw [List.isChain_map, List.isChain_iff_forall_rel_of_append_cons_cons]
  intro v w front back split
  have mem : v ∈ volumes := split ▸ List.mem_append_right _ List.mem_cons_self
  have mem' : w ∈ volumes :=
    split ▸ List.mem_append_right _ (List.mem_cons_of_mem _ List.mem_cons_self)
  rw [h.held_eq rising mem, h.held_eq rising mem', ← length_segmentBytes_eq]
  obtain ⟨first, found, start⟩ := Option.map_eq_some_iff.mp (h.holds.sound w mem').starts
  have choice := apart split first found
  rw [start] at choice
  refine choice.imp id fun full record same => ?_
  cases found.symm.trans same
  exact full

end Volumes

/-! ## ledgers as tilings -/

/-- The indices of a ledger's records follow each other. -/
theorem Ledger.records_consecutive {l : Ledger} (h : l.Numbered) :
    l.records.IsChain fun record next => record.index.toNat + 1 = next.index.toNat := by
  rw [List.isChain_iff_getElem]
  intro i inside
  rw [records, List.length_mapIdx] at inside
  rw [Numbered] at h
  have index (k : Nat) (bound : k < l.records.length) (room : k ≤ i + 1) :
      l.records[k].index.toNat = l.config.startIndex.toNat + k := by
    have numbered : l.records[k].index = tickBy l.config.startIndex k := by
      simp only [records, List.getElem_mapIdx]
      rfl
    rw [numbered, toNat_tickBy (by omega)]
  rw [index i _ (by omega), index (i + 1) _ (by omega)]
  rfl

/-- The first record of a ledger has the first index. -/
theorem Ledger.index_of_head? {l : Ledger} {first : LogRecord} (h : l.records.head? = some first) :
    first.index = l.config.startIndex := by
  rw [records, List.head?_eq_getElem?, List.getElem?_mapIdx] at h
  obtain ⟨pair, -, rfl⟩ := Option.map_eq_some_iff.mp h
  exact tickBy_zero _

/-- The indices of a ledger's records rise. -/
theorem Ledger.records_rising {l : Ledger} (h : l.Numbered) :
    l.records.Pairwise (·.index < ·.index) := by
  rw [← List.isChain_iff_pairwise]
  refine (records_consecutive h).imp fun record next follows => ?_
  rw [UInt64.lt_iff_toNat_lt]
  omega

/-- A desk that follows a ledger has tiles for its records. -/
theorem Follows.tiling {site : Site} {rolls : List Nat} {desk : Desk} {ledger : Ledger}
    (h : Follows site (· ∈ rolls) desk ledger) (numbered : ledger.Numbered) :
    Tiling desk.tree ledger.config.segmentSize.toNat ledger.config.startIndex ledger.records rolls
      (segmentsIn desk.tree site.dir) := by
  obtain ⟨volumes, shows, divided⟩ := h.shows
  have consecutive := Ledger.records_consecutive numbered
  have rising := Ledger.records_rising numbered
  have head {first : LogRecord} (found : ledger.records.head? = some first) :=
    Ledger.index_of_head? found
  rw [← divided.records] at consecutive rising head ⊢
  rw [shows.holds.segmentsIn_eq]
  refine ⟨fun s first => ?_, shows.adjacent consecutive, fun record mem => shows.covers mem,
    fun s mem => ?_, shows.greedy rising divided.parted⟩
  · obtain ⟨record, found, start⟩ := Option.map_eq_some_iff.mp (shows.start_of_head? first)
    rw [← start]
    exact head found
  · obtain ⟨v, member, rfl⟩ := List.mem_map.mp mem
    rw [shows.held_eq rising member, ← h.config]
    exact shows.filed member

/-! ## after closing -/

namespace Writer

/-- A segment that has been closed is not the open one. -/
theorem does_roll (desk : Desk) : Does (roll desk) fun _ after => after.writer.current = none := by
  apply Does.get_bind
  cases current : desk.writer.current with
  | none => exact .done current
  | some segment =>
    have anything {path : String} {act : FileTree → Except FileFault FileTree} {desk : Desk} :
        Does (onFiles path act desk) fun _ after => after.writer = desk.writer ∧ True :=
      does_onFiles fun _ _ => trivial
    refine Does.modify_bind (Does.bind anything ?_)
    rintro - ⟨w, tree⟩ ⟨rfl, -⟩
    refine Does.get_bind (Does.bind anything ?_)
    rintro - ⟨w, tree⟩ ⟨rfl, -⟩
    exact .done rfl

theorem current_of_roll {desk after : Desk} {u : Unit} (h : roll desk = .ok u after) :
    after.writer.current = none := by
  have does := does_roll desk
  rw [h] at does
  cases does with
  | done none => exact none

/-- There is no open segment after an operation that closes it, if that succeeds. -/
theorem current_of_closes {operation : Operation} {desk after : Desk} {index? : Option UInt64}
    (closes : operation.closes) (h : perform operation desk = .ok index? after) :
    after.writer.current = none := by
  cases operation with
  | roll =>
    obtain ⟨u, rolled, -⟩ := of_map_ok h
    exact current_of_roll rolled
  | finish =>
    obtain ⟨summary, finished, -⟩ := of_map_ok h
    obtain ⟨u, between, -, rest⟩ := of_bind_ok finished
    obtain ⟨u, last, rolled, rest⟩ := of_bind_ok rest
    cases rest
    exact current_of_roll rolled
  | appendRecord kind payload => cases closes
  | writeEntry entry => cases closes
  | appendBatch batch => cases closes
  | flush => cases closes

/-- There is no open segment when a writer has finished. -/
theorem current_of_finish {operations : List Operation} {desk : Desk}
    (succeeded : ∀ answer ∈ (performAll perform (operations ++ [.finish]) desk).1, answer.isOk) :
    (performAll perform (operations ++ [.finish]) desk).2.writer.current = none := by
  rw [performAll_append, List.forall_mem_append] at succeeded
  rw [performAll_append]
  generalize (performAll perform operations desk).2 = between at succeeded ⊢
  cases done : perform .finish between with
  | ok index? after =>
    rw [performAll_of_ok done]
    exact current_of_closes rfl done
  | error e after =>
    rw [performAll_of_error done] at succeeded
    exact absurd (succeeded.2 _ List.mem_cons_self) Bool.false_ne_true

end Writer

/-- There is no open segment after a run whose last operation closes it, if that succeeds. -/
theorem current_of_performAll {operations : List Operation} {operation : Operation} {desk : Desk}
    {index? : Option UInt64} (last : operations.getLast? = some operation)
    (closes : operation.closes)
    (succeeded : (performAll Writer.perform operations desk).1.getLast? = some (.ok index?)) :
    (performAll Writer.perform operations desk).2.writer.current = none := by
  obtain ⟨before, rfl⟩ := List.getLast?_eq_some_iff.mp last
  rw [performAll_append] at succeeded ⊢
  generalize (performAll Writer.perform before desk).2 = between at succeeded ⊢
  cases result : Writer.perform operation between with
  | ok index? after =>
    rw [performAll_of_ok result]
    exact Writer.current_of_closes closes result
  | error e after =>
    rw [performAll_of_error result] at succeeded
    simp only [performAll, List.getLast?_concat, Option.some.injEq, reduceCtorEq] at succeeded

/-! ## what a writer leaves -/

namespace Writer

variable {tree made : FileTree} {root : String} {config : WriterConfig} {codec : Codec} {w : Writer}

/-- **The segments of a group tile the appended indices.** Take a writer that has been created for a
group and any operations in which the file system refuses nothing and the indices suffice; every point of
a longer run is the end of such a run. Then the segments of the group are a tiling of the records that
have been accepted, numbered from the first index on, and a segment was closed with room for the next
record only where an operation has closed it. After an operation that closes the open segment, and
succeeds, none is open. -/
theorem segments_tile (operations : List Operation)
    (created : create tree root config codec = (.ok w, made))
    (granted : ∀ answer ∈ (performAll perform operations ⟨w, made⟩).1, ¬ answer.isIo)
    (numbered : config.startIndex.toNat +
      (performAll Ledger.perform operations (.start config codec)).2.accepted.length ≤
        UInt64.size) :
    let run := performAll perform operations ⟨w, made⟩
    let promised := performAll Ledger.perform operations (.start config codec)
    let segments := segmentsIn run.2.tree (groupDirectory root config.group)
    run.1 = promised.1 ∧
      Tiling run.2.tree config.segmentSize.toNat config.startIndex
        (LogRecord.number config.startIndex config.term promised.2.accepted)
        ((Ledger.start config codec).rollsAlong operations) segments ∧
      ∀ operation index?, operations.getLast? = some operation → operation.closes →
        run.1.getLast? = some (.ok index?) → ∀ s ∈ segments, s.last ≠ none := by
  intro run promised segments
  have enough : promised.2.Numbered := Ledger.numbered_performAll_iff.mpr numbered
  obtain ⟨site, rfl, dir, start⟩ :=
    exists_site created (· ∈ (Ledger.start config codec).rollsAlong operations)
  obtain ⟨answers, follows⟩ :=
    follows_performAll operations start (fun _ mem => mem) granted enough
  have tiling := follows.tiling enough
  rw [(Ledger.grows_performAll operations (.start config codec)).1,
    Ledger.records_performAll enough, dir] at tiling
  refine ⟨answers, tiling, fun operation index? last closes succeeded s mem => ?_⟩
  -- the listed segments are those of the volumes, which are closed as there is no open segment
  have closed := current_of_performAll last closes succeeded
  obtain ⟨volumes, shows, -⟩ := follows.shows
  have listed : s ∈ segmentsIn run.2.tree site.dir := dir ▸ mem
  rw [shows.holds.segmentsIn_eq] at listed
  obtain ⟨v, member, rfl⟩ := List.mem_map.mp listed
  exact shows.closed closed v member

/-- Appends of which the second does not fit behind the first, and the third comes after a roll. -/
def rolledAppends : List Operation :=
  [.appendRecord .metadata [7, 7], .appendRecord .metadata [8, 8], .roll,
    .appendRecord .configuration [], .finish]

/-- The segments of three records tile their indices: the second was started for want of room, the third
after the roll, and none is open in the end. -/
theorem segments_tile_of_three :
    create .empty "j" tightConfig .json = (.ok (tightDesk "j").writer, (tightDesk "j").tree) ∧
    (∀ answer ∈ (performAll perform rolledAppends (tightDesk "j")).1, ¬ answer.isIo) ∧
    tightConfig.startIndex.toNat +
      (performAll Ledger.perform rolledAppends (.start tightConfig .json)).2.accepted.length ≤
        UInt64.size ∧
    Tiling (performAll perform rolledAppends (tightDesk "j")).2.tree 60 5
      [⟨5, 3, .metadata, [7, 7]⟩, ⟨6, 3, .metadata, [8, 8]⟩, ⟨7, 3, .configuration, []⟩] [7, 8]
      (segmentsIn (performAll perform rolledAppends (tightDesk "j")).2.tree
        (groupDirectory "j" .defaultGroup)) ∧
    ∀ s ∈ segmentsIn (performAll perform rolledAppends (tightDesk "j")).2.tree
      (groupDirectory "j" .defaultGroup), s.last ≠ none := by
  have created : create .empty "j" tightConfig .json =
      (.ok (tightDesk "j").writer, (tightDesk "j").tree) := by decide +kernel
  have answers : (performAll perform rolledAppends (tightDesk "j")).1 =
      [.ok (some 5), .ok (some 6), .ok none, .ok (some 7), .ok none] := by
    decide +kernel
  have granted : ∀ answer ∈ (performAll perform rolledAppends (tightDesk "j")).1,
      ¬ answer.isIo := by
    rw [answers]
    decide
  have numbered : tightConfig.startIndex.toNat +
      (performAll Ledger.perform rolledAppends (.start tightConfig .json)).2.accepted.length ≤
        UInt64.size := by decide +kernel
  have rolls : (Ledger.start tightConfig .json).rollsAlong rolledAppends = [7, 8] := by
    decide +kernel
  have finished : (performAll perform rolledAppends (tightDesk "j")).1.getLast? =
      some (.ok none) := by
    rw [answers]
    rfl
  obtain ⟨-, tiling, closed⟩ := segments_tile rolledAppends created granted numbered
  rw [rolls] at tiling
  exact ⟨created, granted, numbered, tiling, closed .finish none rfl rfl finished⟩

/-- A record, then an entry whose batch is too large for a segment: it is refused when it is flushed. -/
def refusedFinish : List Operation :=
  [.appendRecord .metadata [7, 7],
    .writeEntry ⟨none, some ⟨.persistDirectory, (⟨1⟩ : PersistDirectory)⟩⟩, .finish]

/-- A `finish` that is refused the batch of the buffered entries leaves the segment open. -/
theorem segment_open_after_refused_finish :
    create .empty "j" tightConfig .json = (.ok (tightDesk "j").writer, (tightDesk "j").tree) ∧
    (performAll perform refusedFinish (tightDesk "j")).1 =
      [.ok (some 5), .ok none, .error (.entryTooLarge 101 60)] ∧
    (segmentsIn (performAll perform refusedFinish (tightDesk "j")).2.tree
      (groupDirectory "j" .defaultGroup)).map (fun s => (s.start, s.last)) = [(5, none)] := by
  refine ⟨?_, ?_, ?_⟩ <;> decide +kernel

end Writer

end RaftJournal
