import RaftJournal.Text.Decimal

/-! # Names of segment files

A closed segment is named for its first and its last index (**`SegmentName.closedName`**), an open one
for its first (**`SegmentName.openName`**). **`SegmentName.parse`** tells which files of a directory are
segments. -/

namespace RaftJournal

/-- What the name of a segment file says. -/
structure SegmentName where
  /-- The index of the first record. -/
  start : UInt64
  /-- The index of the last record, or nothing while the segment is open. -/
  last : Option UInt64
  deriving DecidableEq, Repr

namespace SegmentName

/-- How the name of a closed segment begins. -/
def closedLead : List Char := "log_".toList

/-- How the name of an open segment begins. -/
def openLead : List Char := "log_inprogress_".toList

/-- The name of a closed segment. -/
def closedName (start last : UInt64) : String := s!"log_{start}-{last}"

/-- The name of an open segment. -/
def openName (start : UInt64) : String := s!"log_inprogress_{start}"

/-- The name of a segment file. -/
def render (name : SegmentName) : String :=
  match name.last with
  | some last => closedName name.start last
  | none => openName name.start

/-- A text without its lead, if it begins with it. -/
def stripLead? : (lead text : List Char) → Option (List Char)
  | [], text => some text
  | _ :: _, [] => none
  | l :: lead, c :: text => if c = l then stripLead? lead text else none

/-- The range of a closed segment: two indices with a hyphen between them, not descending. -/
def parseRange (text : List Char) : Option SegmentName :=
  match text.span (· ≠ '-') with
  | (_, []) => none
  | (start, _ :: last) =>
    match Decimal.word64? start, Decimal.word64? last with
    | some start, some last => if start ≤ last then some ⟨start, some last⟩ else none
    | _, _ => none

/-- Reads the name of a segment file. A name that begins as that of an open segment is never that of
a closed one. -/
def parse (name : String) : Option SegmentName :=
  match stripLead? openLead name.toList with
  | some start => (Decimal.word64? start).map fun start => ⟨start, none⟩
  | none => (stripLead? closedLead name.toList).bind parseRange

end SegmentName

/-- A segment file of a group. -/
structure LogSegment where
  /-- The index of the first record. -/
  start : UInt64
  /-- The index of the last record, or nothing while the segment is open. -/
  last : Option UInt64
  /-- Where the file is. -/
  path : String
  deriving DecidableEq, Repr

namespace LogSegment

/-- Whether records are still being appended. -/
def isOpen (s : LogSegment) : Bool := s.last.isNone

/-- Whether a record with the index belongs to the segment. -/
def contains (s : LogSegment) (index : UInt64) : Bool :=
  s.start ≤ index && s.last.all (index ≤ ·)

theorem contains_iff {s : LogSegment} {index : UInt64} :
    s.contains index ↔ s.start ≤ index ∧ ∀ last, s.last = some last → index ≤ last := by
  rw [contains, Bool.and_eq_true, decide_eq_true_iff, Option.all_eq_true]
  simp only [decide_eq_true_iff]

end LogSegment

end RaftJournal
