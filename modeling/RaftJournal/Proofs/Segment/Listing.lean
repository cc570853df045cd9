import RaftJournal.Segment.Directory

/-! # Listings of segments

The order of segments is total, and a directory is listed in it: by the first indices of its segments
(**`pairwise_segmentsIn`**), and as they stand if they stand in that order (**`segmentsIn_of_sorted`**). -/

namespace RaftJournal

namespace LogSegment

/-- The order of segments is transitive. -/
theorem le_trans (a b c : LogSegment) (h : a.le b) (h' : b.le c) : a.le c := by
  grind [le]

/-- Of any two segments one comes first. -/
theorem le_total (a b : LogSegment) : a.le b || b.le a := by
  grind [le]

/-- A segment that comes first starts no later. -/
theorem start_le_of_le {a b : LogSegment} (h : a.le b) : a.start ≤ b.start := by
  rw [le] at h
  by_cases same : a.start = b.start
  · exact UInt64.le_of_eq same
  · rw [if_pos same] at h
    exact UInt64.le_of_lt (of_decide_eq_true h)

end LogSegment

/-- The segments of a directory are listed by their first indices. -/
theorem pairwise_segmentsIn (tree : FileTree) (dir : String) :
    (segmentsIn tree dir).Pairwise (·.start ≤ ·.start) := by
  rw [segmentsIn]
  split
  · exact .nil
  · exact (List.pairwise_mergeSort LogSegment.le_trans LogSegment.le_total _).imp
      LogSegment.start_le_of_le

/-- Files that stand in the order of a listing are listed as they stand. -/
theorem segmentsIn_of_sorted {tree : FileTree} {dir : String} {l : Location}
    {segments : List LogSegment} (led : tree.resolve dir = .ok l)
    (named : (tree.children l).filterMap (LogSegment.ofName? dir) = segments)
    (sorted : segments.Pairwise fun a b => a.le b) : segmentsIn tree dir = segments := by
  rw [segmentsIn, led]
  simp only
  rw [named, List.mergeSort_of_pairwise sorted]

/-- A listing that succeeds is that of the directory of the group. -/
theorem eq_of_listSegments {tree : FileTree} {root : String} {group : Uuid}
    {segments : List LogSegment} (listed : listSegments tree root group = .ok segments) :
    segments = segmentsIn tree (groupDirectory root group) := by
  rw [listSegments] at listed
  split at listed
  · cases listed
  · split at listed
    · cases listed
    · exact (Except.ok.inj listed).symm

end RaftJournal
