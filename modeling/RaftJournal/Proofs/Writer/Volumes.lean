import Mathlib.Data.List.Basic
import RaftJournal.Proofs.Segment.Listing
import RaftJournal.Proofs.Segment.Names
import RaftJournal.Proofs.Segment.Reading
import RaftJournal.Proofs.Storage.Files
import RaftJournal.Proofs.Stream.Trace

/-! # The segments that a writer leaves

A writer starts at a **`Site`**, the directory of a group without segments. Each segment that it makes
is a **`Volume`**: the name, the records, and what else is in the file. A tree **`Holds`** some volumes
when its entries are those of the site and then one file for each volume, in the order in which they
start.

* **`Holds.absent`**: no file has the name of a segment that no volume has.
* **`Holds.segmentsIn_eq`**: listing the directory gives the segments of the volumes in order.
* **`Holds.traceOf_eq`**: reading them gives all of their records, and no error. -/

namespace RaftJournal

theorem SegmentName.plain_render (name : SegmentName) : Path.Plain name.render := by
  have first : name.render.toList.head? = some 'l' := by
    obtain ⟨start, last⟩ := name
    cases last with
    | none =>
      show (openName start).toList.head? = _
      rw [toList_openName]
      rfl
    | some last =>
      show (closedName start last).toList.head? = _
      rw [toList_closedName]
      rfl
  exact Path.plain_of_mem name.slash_not_mem_render (List.mem_of_mem_head? first) (by decide)

/-! ## sites and volumes -/

/-- The directory of a group that has no segments. -/
structure Site where
  /-- The files before anything is written. -/
  tree : FileTree
  /-- The path of the directory. -/
  dir : String
  /-- Where the path leads. -/
  location : Location
  full : dir ≠ ""
  noEnd : dir.toList.getLast? ≠ some '/'
  led : tree.resolve dir = .ok location
  found : tree.node? location = some .directory
  quiet : (tree.children location).filterMap (LogSegment.ofName? dir) = []

/-- A segment that has been written. -/
structure Volume where
  name : SegmentName
  records : List LogRecord
  /-- The stamp of its file. -/
  stamp : Nat
  /-- The number of zeros behind its records. -/
  padding : Nat

namespace Volume

/-- The bytes of the file. -/
def content (v : Volume) : Content := ⟨segmentBytes v.records, v.padding⟩

/-- Where the file is. -/
def location (site : Site) (v : Volume) : Location := site.location ++ [v.name.render]

/-- The entry of the file. -/
def entry (site : Site) (v : Volume) : Location × Node :=
  (v.location site, .file v.stamp v.content)

theorem not_isFixed (v : Volume) (site : Site) : ¬ FileTree.IsFixed (v.location site) :=
  FileTree.not_isFixed_append v.name.plain_render site.location

/-- The segment as it is listed. -/
def segment (site : Site) (v : Volume) : LogSegment :=
  ⟨v.name.start, v.name.last, Path.join site.dir v.name.render⟩

/-- The records are in order and the name is that of their range. -/
structure Sound (v : Volume) : Prop where
  starts : v.records.head?.map (·.index) = some v.name.start
  ends : ∀ last, v.name.last = some last → v.records.getLast?.map (·.index) = some last
  framable : ∀ record ∈ v.records, record.Framable
  rising : v.records.Pairwise (·.index < ·.index)

variable {v : Volume} {record : LogRecord}

/-- A segment has a record. -/
theorem Sound.records_ne_nil (h : v.Sound) : v.records ≠ [] := by
  intro none
  have starts := h.starts
  rw [none] at starts
  cases starts

/-- No record comes before the first. -/
theorem Sound.start_le (h : v.Sound) (mem : record ∈ v.records) : v.name.start ≤ record.index := by
  have starts := h.starts
  have rising := h.rising
  cases records : v.records with
  | nil =>
    rw [records] at mem
    cases mem
  | cons first rest =>
    rw [records] at mem starts rising
    have start : first.index = v.name.start := Option.some.inj starts
    rw [← start]
    rcases List.mem_cons.mp mem with rfl | mem
    · exact UInt64.le_refl _
    · exact UInt64.le_of_lt ((List.pairwise_cons.mp rising).1 record mem)

/-- No record of a closed segment comes after the last. -/
theorem Sound.le_last (h : v.Sound) (mem : record ∈ v.records) {last : UInt64}
    (closed : v.name.last = some last) : record.index ≤ last := by
  have rising := h.rising
  obtain ⟨final, found, rfl⟩ := Option.map_eq_some_iff.mp (h.ends last closed)
  -- the last record has the index in the name, and those before it have smaller ones
  obtain ⟨front, records⟩ := List.getLast?_eq_some_iff.mp found
  rw [records] at mem rising
  rcases List.mem_append.mp mem with mem | mem
  · exact UInt64.le_of_lt
      ((List.pairwise_append.mp rising).2.2 record mem final (List.mem_singleton.mpr rfl))
  · rw [List.mem_singleton.mp mem]
    exact UInt64.le_refl _

theorem Sound.name (h : v.Sound) : v.name.Sound := by
  intro last closed
  obtain ⟨final, found, rfl⟩ := Option.map_eq_some_iff.mp (h.ends last closed)
  exact h.start_le (List.mem_of_getLast? found)

/-- A segment admits the records that have been written to it. -/
theorem Sound.admits (h : v.Sound) (site : Site) (mem : record ∈ v.records) :
    (v.segment site).Admits record :=
  ⟨h.framable record mem, LogSegment.contains_iff.mpr ⟨h.start_le mem, fun _ => h.le_last mem⟩⟩

/-- A record that comes before those of a segment is not in its range. -/
theorem Sound.not_contains_of_before (h : v.Sound) (site : Site)
    (before : ∀ r ∈ v.records, record.index < r.index) : ¬ (v.segment site).contains record.index := by
  intro contained
  obtain ⟨first, found, start⟩ := Option.map_eq_some_iff.mp h.starts
  have reached : v.name.start ≤ record.index := (LogSegment.contains_iff.mp contained).1
  rw [← start] at reached
  exact UInt64.lt_irrefl _
    (UInt64.lt_of_le_of_lt reached (before first (List.mem_of_mem_head? found)))

/-- A record that comes after those of a closed segment is not in its range. -/
theorem Sound.not_contains_of_after (h : v.Sound) (site : Site) (closed : v.name.last ≠ none)
    (after : ∀ r ∈ v.records, r.index < record.index) : ¬ (v.segment site).contains record.index := by
  intro contained
  obtain ⟨last, named⟩ := Option.ne_none_iff_exists'.mp closed
  obtain ⟨final, found, rfl⟩ := Option.map_eq_some_iff.mp (h.ends last named)
  have reached : record.index ≤ final.index := (LogSegment.contains_iff.mp contained).2 _ named
  exact UInt64.lt_irrefl _
    (UInt64.lt_of_lt_of_le (after final (List.mem_of_getLast? found)) reached)

end Volume

/-! ## trees that hold volumes -/

/-- The entries of a tree are those of the site and then those of the volumes. -/
structure Holds (site : Site) (tree : FileTree) (volumes : List Volume) : Prop where
  nodes : tree.nodes = site.tree.nodes ++ volumes.map (Volume.entry site)
  sound : ∀ v ∈ volumes, v.Sound
  fits : ∀ v ∈ volumes, FileTree.Fits site.dir v.name.render
  rising : volumes.Pairwise (·.name.start < ·.name.start)

variable {site : Site} {tree : FileTree} {volumes front : List Volume} {v : Volume}

/-- A directory without segments has no file with the name of one. -/
theorem Site.absent (site : Site) {name : SegmentName} (sound : name.Sound) :
    site.tree.Absent (site.location ++ [name.render]) := by
  rintro ⟨l, node⟩ mem rfl
  -- such a file would have been listed
  have child : name.render ∈ site.tree.children site.location := by
    rw [FileTree.children, List.mem_filterMap]
    refine ⟨_, mem, ?_⟩
    simp
  have listed : LogSegment.ofName? site.dir name.render =
      some ⟨name.start, name.last, Path.join site.dir name.render⟩ := by
    rw [LogSegment.ofName?, SegmentName.parse_render sound]
    rfl
  have found := List.mem_filterMap.mpr ⟨_, child, listed⟩
  rw [site.quiet] at found
  cases found

namespace Holds

theorem extends_site (h : Holds site tree volumes) : site.tree.Extends tree := ⟨_, h.nodes⟩

theorem nil_not_mem (h : Holds site tree volumes) : [] ∉ volumes.map (·.records) := by
  intro mem
  obtain ⟨v, member, none⟩ := List.mem_map.mp mem
  exact (h.sound v member).records_ne_nil none

/-- The path of a segment is resolved, if it fits, to a file of the directory. -/
theorem resolve_iff (h : Holds site tree volumes) (name : SegmentName) {m : Location} :
    tree.resolve (Path.join site.dir name.render) = .ok m ↔
      FileTree.Fits site.dir name.render ∧ m = site.location ++ [name.render] :=
  FileTree.resolve_join_iff name.plain_render site.full site.noEnd
    (h.extends_site.keeps.resolve site.led) (h.extends_site.keeps _ _ site.found)

theorem resolve_segment (h : Holds site tree volumes) (mem : v ∈ volumes) :
    tree.resolve (v.segment site).path = .ok (v.location site) :=
  (h.resolve_iff v.name).mpr ⟨h.fits v mem, rfl⟩

/-- No file has the name of a segment that no volume has. -/
theorem absent (h : Holds site tree volumes) (name : SegmentName) (sound : name.Sound)
    (other : ∀ v ∈ volumes, v.name ≠ name) : tree.Absent (site.location ++ [name.render]) := by
  intro entry mem same
  rw [h.nodes, List.mem_append, List.mem_map] at mem
  rcases mem with mem | ⟨v, mem, rfl⟩
  · exact site.absent sound entry mem same
  · have names := List.append_cancel_left same
    exact other v mem
      (SegmentName.render_injective (h.sound v mem).name sound (List.cons.inj names).1)

/-- No entry before that of a volume is at its location. -/
theorem apart {back : List Volume} (h : Holds site tree (front ++ v :: back)) :
    ∀ entry ∈ site.tree.nodes ++ front.map (Volume.entry site), entry.1 ≠ v.location site := by
  have member : v ∈ front ++ v :: back := List.mem_append_right _ List.mem_cons_self
  have sound := (h.sound v member).name
  -- segments of one name start at one index, but each volume starts after those before it
  intro entry mem same
  rcases List.mem_append.mp mem with mem | mem
  · exact site.absent sound entry mem same
  · obtain ⟨w, earlier, rfl⟩ := List.mem_map.mp mem
    have names := (List.cons.inj (List.append_cancel_left same)).1
    have less := (List.pairwise_append.mp h.rising).2.2 w earlier v List.mem_cons_self
    have sound' := (h.sound w (List.mem_append_left _ earlier)).name
    rw [SegmentName.render_injective sound' sound names] at less
    exact UInt64.lt_irrefl _ less

theorem endsIn (h : Holds site tree (front ++ [v])) :
    tree.EndsIn (site.tree.nodes ++ front.map (Volume.entry site)) (v.location site)
      (.file v.stamp v.content) := by
  refine ⟨?_, h.apart⟩
  rw [h.nodes, List.map_append, ← List.append_assoc]
  rfl

/-! ## changing -/

/-- The file of one more volume may come last. -/
theorem append (h : Holds site tree volumes) (sound : v.Sound)
    (fits : FileTree.Fits site.dir v.name.render)
    (later : ∀ w ∈ volumes, w.name.start < v.name.start) {tree' : FileTree}
    (nodes : tree'.nodes = tree.nodes ++ [v.entry site]) : Holds site tree' (volumes ++ [v]) := by
  refine ⟨?_, fun w mem => ?_, fun w mem => ?_, ?_⟩
  · rw [nodes, h.nodes, List.map_append, List.append_assoc]
    rfl
  · rcases List.mem_append.mp mem with mem | mem
    · exact h.sound w mem
    · rwa [List.mem_singleton.mp mem]
  · rcases List.mem_append.mp mem with mem | mem
    · exact h.fits w mem
    · rwa [List.mem_singleton.mp mem]
  · rw [List.pairwise_append]
    refine ⟨h.rising, List.pairwise_singleton _ _, fun w mem u last => ?_⟩
    rw [List.mem_singleton.mp last]
    exact later w mem

/-- Without the file of the last volume the others are left. -/
theorem without_last (h : Holds site tree (front ++ [v])) :
    Holds site { tree with nodes := site.tree.nodes ++ front.map (Volume.entry site) } front :=
  ⟨rfl, fun w mem => h.sound w (List.mem_append_left _ mem),
    fun w mem => h.fits w (List.mem_append_left _ mem), (List.pairwise_append.mp h.rising).1⟩

/-- The last volume may be changed, if it starts where it did. -/
theorem replace_last {w : Volume} (h : Holds site tree (front ++ [v])) (sound : w.Sound)
    (fits : FileTree.Fits site.dir w.name.render) (start : w.name.start = v.name.start)
    {tree' : FileTree}
    (nodes : tree'.nodes =
      site.tree.nodes ++ front.map (Volume.entry site) ++ [w.entry site]) :
    Holds site tree' (front ++ [w]) := by
  refine h.without_last.append sound fits (fun u mem => ?_) nodes
  rw [start]
  exact (List.pairwise_append.mp h.rising).2.2 u mem v (List.mem_singleton.mpr rfl)

/-- Cutting the file of the last volume to its records takes away its zeros. -/
theorem resize_last (h : Holds site tree (front ++ [v])) :
    ∃ tree', tree.resize (v.segment site).path (segmentBytes v.records).length = .ok tree' ∧
      Holds site tree' (front ++ [{ v with padding := 0 }]) := by
  have member : v ∈ front ++ [v] := List.mem_concat_self
  have cut : v.content.resize (segmentBytes v.records).length = ⟨segmentBytes v.records, 0⟩ := by
    show (if (segmentBytes v.records).length ≤ (segmentBytes v.records).length then
      Content.mk ((segmentBytes v.records).take (segmentBytes v.records).length) 0 else _) = _
    rw [if_pos (Nat.le_refl _), List.take_length]
  refine ⟨_, FileTree.resize_of_last (h.resolve_segment member) (v.not_isFixed site) h.endsIn _, ?_⟩
  have sound := h.sound v member
  refine h.replace_last (w := { v with padding := 0 })
    ⟨sound.starts, sound.ends, sound.framable, sound.rising⟩ (h.fits v member) rfl ?_
  rw [cut]
  rfl

/-- Storing in the file of the last volume replaces its records. -/
theorem store_last {records : List LogRecord} {padding : Nat} (h : Holds site tree (front ++ [v]))
    (sound : Volume.Sound { v with records, padding }) :
    Holds site (tree.store ⟨v.location site, v.stamp⟩ ⟨segmentBytes records, padding⟩)
      (front ++ [{ v with records, padding }]) := by
  have member : v ∈ front ++ [v] := List.mem_concat_self
  rw [FileTree.store_of_last (v.not_isFixed site) h.endsIn]
  exact h.replace_last (w := { v with records, padding }) sound (h.fits v member) rfl rfl

/-- An open last volume is renamed for its range, if the new name fits. -/
theorem rename_of_fits {last : UInt64} (h : Holds site tree (front ++ [v]))
    (open_ : v.name.last = none) (final : v.records.getLast?.map (·.index) = some last)
    (fits : FileTree.Fits site.dir (SegmentName.closedName v.name.start last)) :
    ∃ tree', tree.rename (v.segment site).path
        (Path.join site.dir (SegmentName.closedName v.name.start last)) = .ok tree' ∧
      Holds site tree' (front ++ [{ v with name := ⟨v.name.start, some last⟩ }]) := by
  have member : v ∈ front ++ [v] := List.mem_concat_self
  have sound := h.sound v member
  have closed : Volume.Sound { v with name := ⟨v.name.start, some last⟩ } :=
    ⟨sound.starts, fun _ same => final.trans same, sound.framable, sound.rising⟩
  have led := (h.resolve_iff ⟨v.name.start, some last⟩).mpr ⟨fits, rfl⟩
  -- the new name is free: earlier volumes start earlier, and this one was open
  have absent : tree.Absent
      (site.location ++ [SegmentName.closedName v.name.start last]) := by
    refine h.absent ⟨v.name.start, some last⟩ closed.name fun w mem same => ?_
    rcases List.mem_append.mp mem with mem | mem
    · have less := (List.pairwise_append.mp h.rising).2.2 w mem v (List.mem_singleton.mpr rfl)
      rw [same] at less
      exact UInt64.lt_irrefl _ less
    · rw [List.mem_singleton.mp mem] at same
      rw [same] at open_
      cases open_
  refine ⟨_, FileTree.rename_of_last (h.resolve_segment member) (v.not_isFixed site)
    h.endsIn led (Volume.not_isFixed { v with name := ⟨v.name.start, some last⟩ } site) absent, ?_⟩
  exact h.replace_last (w := { v with name := ⟨v.name.start, some last⟩ }) closed fits rfl rfl

/-- An open last volume is renamed for its range, unless the new name does not fit. -/
theorem rename_last {last : UInt64} (h : Holds site tree (front ++ [v])) (open_ : v.name.last = none)
    (final : v.records.getLast?.map (·.index) = some last) :
    (∃ fault, tree.rename (v.segment site).path
        (Path.join site.dir (SegmentName.closedName v.name.start last)) = .error fault) ∨
      ∃ tree', tree.rename (v.segment site).path
          (Path.join site.dir (SegmentName.closedName v.name.start last)) = .ok tree' ∧
        Holds site tree' (front ++ [{ v with name := ⟨v.name.start, some last⟩ }]) := by
  cases led : tree.resolve (Path.join site.dir (SegmentName.closedName v.name.start last)) with
  | error fault =>
    refine .inl ⟨fault, ?_⟩
    rw [FileTree.rename, h.resolve_segment List.mem_concat_self, led]
  | ok m =>
    exact .inr (h.rename_of_fits open_ final
      ((h.resolve_iff ⟨v.name.start, some last⟩).mp led).1)

/-! ## reading -/

theorem isDirectory (h : Holds site tree volumes) : tree.isDirectory site.dir := by
  rw [FileTree.isDirectory, h.extends_site.keeps.resolve site.led]
  simp only
  rw [h.extends_site.keeps _ _ site.found]
  rfl

/-- The files below the directory of a site are those of the site and of the volumes. -/
theorem children_eq (h : Holds site tree volumes) :
    tree.children site.location =
      site.tree.children site.location ++ volumes.map fun v => v.name.render := by
  have own : (volumes.map (Volume.entry site)).filterMap
      (fun entry =>
        if entry.1 ≠ [] ∧ entry.1.dropLast = site.location then entry.1.getLast? else none) =
        volumes.map fun v => v.name.render := by
    rw [List.filterMap_map]
    refine List.filterMap_eq_map_iff_forall_eq_some.mpr fun v _ => ?_
    simp [Volume.entry, Volume.location]
  rw [FileTree.children, h.nodes, List.filterMap_append]
  exact congrArg (_ ++ ·) own

/-- Listing the directory gives the segments of the volumes in their order. -/
theorem segmentsIn_eq (h : Holds site tree volumes) :
    segmentsIn tree site.dir = volumes.map (Volume.segment site) := by
  have named : (volumes.map fun v => v.name.render).filterMap (LogSegment.ofName? site.dir) =
      volumes.map (Volume.segment site) := by
    rw [List.filterMap_map]
    refine List.filterMap_eq_map_iff_forall_eq_some.mpr fun v mem => ?_
    rw [Function.comp, LogSegment.ofName?, SegmentName.parse_render (h.sound v mem).name]
    rfl
  -- the listing sorts by the first index, and the files are in that order already
  have ordered : (volumes.map (Volume.segment site)).Pairwise fun a b => LogSegment.le a b := by
    rw [List.pairwise_map]
    refine h.rising.imp fun {v w} less => ?_
    have distinct : (v.segment site).start ≠ (w.segment site).start := UInt64.ne_of_lt less
    rw [LogSegment.le, if_pos distinct]
    exact decide_eq_true less
  refine segmentsIn_of_sorted (h.extends_site.keeps.resolve site.led) ?_ ordered
  rw [h.children_eq, List.filterMap_append, site.quiet, List.nil_append, named]

/-- The file of a volume is where the volume is. -/
theorem node?_volume (h : Holds site tree volumes) (mem : v ∈ volumes) :
    tree.node? (v.location site) = some (.file v.stamp v.content) := by
  obtain ⟨front, back, rfl⟩ := List.append_of_mem mem
  rw [FileTree.node?_of_not_fixed (v.not_isFixed site), List.lookup_eq_some_iff]
  refine ⟨site.tree.nodes ++ front.map (Volume.entry site), back.map (Volume.entry site), ?_, ?_⟩
  · rw [h.nodes, List.map_append, List.map_cons, ← List.append_assoc]
    rfl
  · exact fun entry mem => bne_iff_ne.mpr (h.apart entry mem).symm

/-- Every file is one of the site or that of a volume. -/
theorem file_or_volume (h : Holds site tree volumes) {l : Location} {stamp : Nat} {content : Content}
    (found : tree.node? l = some (.file stamp content)) :
    site.tree.node? l = some (.file stamp content) ∨
      ∃ v ∈ volumes, l = v.location site ∧ content = v.content := by
  by_cases fixed : FileTree.IsFixed l
  · rw [FileTree.node?_of_fixed fixed] at found
    cases found
  · rw [FileTree.node?_of_not_fixed fixed, h.nodes, List.lookup_append, Option.or_eq_some_iff] at found
    rcases found with own | ⟨-, later⟩
    · exact .inl (by rw [FileTree.node?_of_not_fixed fixed, own])
    · obtain ⟨before, after, split, -⟩ := List.lookup_eq_some_iff.mp later
      obtain ⟨v, mem, same⟩ := List.mem_map.mp (split ▸ List.mem_append_right before List.mem_cons_self)
      obtain ⟨rfl, file⟩ := Prod.mk.inj same
      exact .inr ⟨v, mem, rfl, (Node.file.inj file).2.symm⟩

theorem read_segment (h : Holds site tree volumes) (mem : v ∈ volumes) :
    tree.read (v.segment site).path = .ok v.content :=
  FileTree.read_of_node? (h.resolve_segment mem) (h.node?_volume mem)

/-- The file of a volume is opened and hands out its records. -/
theorem reader_segment (h : Holds site tree volumes) (mem : v ∈ volumes) :
    ∃ r, (v.segment site).reader tree = .ok r ∧ r.trace = ⟨v.records, none⟩ := by
  have bytes : v.content.toList = segmentBytes v.records ++ List.replicate v.padding 0 := rfl
  exact LogSegment.exists_trace_of_file (h.read_segment mem) bytes fun record member =>
    (h.sound v mem).admits site member

/-- Reading the segments of the volumes gives their records. -/
theorem traceOf_eq (h : Holds site tree volumes) (part : ∀ v ∈ front, v ∈ volumes) :
    traceOf tree (front.map (Volume.segment site)) = ⟨front.flatMap (·.records), none⟩ := by
  induction front with
  | nil => rfl
  | cons v rest ih =>
    obtain ⟨r, opened, trace⟩ := h.reader_segment (part v List.mem_cons_self)
    have more := ih fun w mem => part w (List.mem_cons_of_mem _ mem)
    rw [List.map_cons, traceOf, opened]
    simp only
    rw [trace, more]
    rfl

end Holds

end RaftJournal
