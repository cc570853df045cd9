import RaftJournal.Text.Parts

/-! # Paths

Paths are kept as they are written, since errors show them. **`Path.join`** puts a name behind a
directory, **`Path.parts`** are the names along a path, and **`Path.steps`** those of them that lead
somewhere. -/

namespace RaftJournal.Path

/-- Whether a path starts at the root of all files. -/
def isAbsolute (path : String) : Bool := path.toList.head? = some '/'

/-- The path of a name in a directory: a directory that is empty or ends in a slash gets none. -/
def join (dir name : String) : String :=
  if isAbsolute name then name
  else if dir = "" ∨ dir.toList.getLast? = some '/' then dir ++ name
  else dir ++ "/" ++ name

/-- The names along a path; a slash at the end, or doubled, gives an empty one. -/
def parts (path : String) : List String := (Parts.split '/' path.toList).map String.ofList

/-- Whether a name leads somewhere: an empty one and a dot stay where they are. -/
def leadsOn (name : String) : Bool := name ≠ "" ∧ name ≠ "."

/-- The names along a path that lead somewhere. -/
def steps (path : String) : List String := (parts path).filter leadsOn

/-! ## limits -/

/-- The largest number of bytes of a name. -/
def longestName : Nat := 255

/-- The largest number of bytes of a path. -/
def longest : Nat := 4095

end RaftJournal.Path
