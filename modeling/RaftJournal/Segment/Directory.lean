import RaftJournal.Error
import RaftJournal.Segment.Name
import RaftJournal.Storage.FileTree

/-! # The segments of a group

The segments of a group are the files of its directory under the root of the journal,
`raft/<group>/current`, that have the name of a segment. **`listSegments`** gives them in the order
of their first index, a closed segment before an open one. -/

namespace RaftJournal

/-- The group that a session works on unless it names another. -/
def Uuid.defaultGroup : Uuid := ⟨0x02511d47d67c49a39011abb3109a44c1#128⟩

/-- The directory of a group under the root of its journal. -/
def groupDirectory (root : String) (group : Uuid) : String :=
  Path.join (Path.join (Path.join root "raft") group.render) "current"

/-- An error of the file system at a path. -/
def JournalError.ofFault (path : String) (fault : FileFault) : JournalError :=
  .io (some path) fault.message

namespace LogSegment

/-- The segment of a directory with the given file name. -/
def ofName? (dir name : String) : Option LogSegment :=
  (SegmentName.parse name).map fun found => ⟨found.start, found.last, Path.join dir name⟩

/-- The order of segments: by first index, closed before open, then by path. -/
def le (a b : LogSegment) : Bool :=
  if a.start ≠ b.start then a.start < b.start
  else if a.isOpen ≠ b.isOpen then b.isOpen
  else a.path ≤ b.path

end LogSegment

/-- The segments of a directory in order. -/
def segmentsIn (tree : FileTree) (dir : String) : List LogSegment :=
  match tree.resolve dir with
  | .error _ => []
  | .ok l => ((tree.children l).filterMap (LogSegment.ofName? dir)).mergeSort LogSegment.le

/-- The segments of a group in order. -/
def listSegments (tree : FileTree) (root : String) (group : Uuid) :
    Except JournalError (List LogSegment) :=
  let dir := groupDirectory root group
  if !tree.isDirectory root then .error (.invalidDirectory root)
  else if !tree.isDirectory dir then .error (.groupNotFound group dir)
  else .ok (segmentsIn tree dir)

end RaftJournal
