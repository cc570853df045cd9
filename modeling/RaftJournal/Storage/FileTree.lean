import RaftJournal.Storage.Content
import RaftJournal.Storage.Path

/-! # File trees

A **`FileTree`** is all that a session sees of the file system: directories and files, each at a
**`Location`**. A path is walked name by name (**`FileTree.resolve`**), and an operation that cannot
be done says why as a system would (**`FileFault`**).

A writer keeps the file of its open segment mapped, so that what it writes goes to that file and
not to one that has since taken its place. Every file therefore carries a stamp that no other file
of the tree has, and **`FileTree.store`** writes only to the file with the given stamp. -/

namespace RaftJournal

/-- Why a file operation was refused. -/
inductive FileFault
  | notFound
  | alreadyExists
  | notADirectory
  | isADirectory
  | notMappable
  /-- A name or a path is longer than the system takes. -/
  | nameTooLong
  /-- A path holds the character that ends texts of the system. -/
  | nulInPath
  /-- A file is to be longer than the system keeps. -/
  | fileTooLarge
  /-- A file is to be longer than the system can be asked for. -/
  | lengthOutOfRange
  deriving DecidableEq, Repr

/-- The system's words for a fault. -/
def FileFault.message : FileFault → String
  | .notFound => "No such file or directory (os error 2)"
  | .alreadyExists => "File exists (os error 17)"
  | .notADirectory => "Not a directory (os error 20)"
  | .isADirectory => "Is a directory (os error 21)"
  | .notMappable => "No such device (os error 19)"
  | .nameTooLong => "File name too long (os error 36)"
  | .nulInPath => "file name contained an unexpected NUL byte"
  | .fileTooLarge => "File too large (os error 27)"
  | .lengthOutOfRange => "number too large to fit in target type"

/-- The names of directories and of a file or directory in the last of them. -/
abbrev Location := List String

/-- What is at a location. -/
inductive Node
  | directory
  /-- A file with its stamp and its bytes. -/
  | file (stamp : Nat) (content : Content)
  deriving DecidableEq, Repr

/-- The directories and files of a session. -/
structure FileTree where
  /-- What is where; the first entry for a location counts. -/
  nodes : List (Location × Node)
  /-- The stamp of the next file. -/
  nextStamp : Nat
  deriving DecidableEq, Repr

namespace FileTree

/-- A tree without files. -/
def empty : FileTree := ⟨[], 0⟩

/-- Where relative paths start. -/
def here : Location := []

/-- Where absolute paths start; no name is a slash. -/
def top : Location := ["/"]

/-- Whether a location is where relative paths start, or above it. -/
def isAbove (l : Location) : Bool := l.all (· = "..")

/-- What is at a location. -/
def node? (tree : FileTree) (l : Location) : Option Node :=
  -- the places where paths start are there without an entry
  if isAbove l ∨ l = top then some .directory else tree.nodes.lookup l

/-- The tree with something at a location. -/
def put (tree : FileTree) (l : Location) (node : Node) : FileTree :=
  if tree.nodes.any (·.1 = l) then
    { tree with nodes := tree.nodes.map fun entry => if entry.1 = l then (l, node) else entry }
  else { tree with nodes := tree.nodes ++ [(l, node)] }

/-- The tree with nothing at a location. -/
def erase (tree : FileTree) (l : Location) : FileTree :=
  { tree with nodes := tree.nodes.filter (·.1 ≠ l) }

/-- The directory above a location. -/
def parent (l : Location) : Location :=
  -- above the start each step up is one more `..`
  if l = top then top else if isAbove l then l ++ [".."] else l.dropLast

/-! ## walking -/

/-- Refuses the paths that the system does not look at. -/
def checkPath (path : String) : Except FileFault Unit :=
  if '\x00' ∈ path.toList then .error .nulInPath
  else if Path.longest < path.utf8ByteSize then .error .nameTooLong
  else .ok ()

/-- Walks along names from a location; all but the last must be directories. -/
def walk (tree : FileTree) (l : Location) : List String → Except FileFault Location
  | [] => .ok l
  | name :: rest =>
    match tree.node? l with
    | none => .error .notFound
    | some (.file _ _) => .error .notADirectory
    | some .directory =>
      if !Path.leadsOn name then walk tree l rest
      else if name = ".." then walk tree (parent l) rest
      else if Path.longestName < name.utf8ByteSize then .error .nameTooLong
      else walk tree (l ++ [name]) rest

/-- The location that a path starts from. -/
def start (path : String) : Location := if Path.isAbsolute path then top else here

/-- The location of a path, whether or not there is something. -/
def resolve (tree : FileTree) (path : String) : Except FileFault Location :=
  match checkPath path with
  | .error fault => .error fault
  | .ok () => if path = "" then .error .notFound else tree.walk (start path) (Path.parts path)

/-- Whether a path leads to a directory. -/
def isDirectory (tree : FileTree) (path : String) : Bool :=
  match tree.resolve path with
  | .ok l => tree.node? l = some .directory
  | .error _ => false

/-- The names in a directory. -/
def children (tree : FileTree) (dir : Location) : List String :=
  tree.nodes.filterMap fun (l, _) => if l ≠ [] ∧ l.dropLast = dir then l.getLast? else none

/-- Whether a location is below the one where relative paths start. -/
def isBelow (l : Location) : Bool := l.head? ≠ some ".." ∧ l.head? ≠ top.head?

/-- The files below the place where relative paths start, with their locations. -/
def files (tree : FileTree) : List (Location × Content) :=
  tree.nodes.filterMap fun (l, node) =>
    match node with
    | .directory => none
    | .file _ content => if isBelow l then some (l, content) else none

/-! ## reading -/

/-- The bytes of a file, mapped for reading. -/
def read (tree : FileTree) (path : String) : Except FileFault Content :=
  match tree.resolve path with
  | .error fault => .error fault
  | .ok l =>
    match tree.node? l with
    | none => .error .notFound
    | some .directory => .error .notMappable
    | some (.file _ content) => .ok content

/-! ## directories -/

/-- Makes the directories along names from a location, with those that were made before a fault. A
file in the way of a directory that is only passed is no directory; once a directory has been made,
or where the last one is to be, it is something that exists already. -/
def makeAlong (tree : FileTree) (made : Bool) (l : Location) :
    List String → Except FileFault Unit × FileTree
  | [] => (.ok (), tree)
  | name :: rest =>
    if name = ".." then makeAlong tree made (parent l) rest
    else if Path.longestName < name.utf8ByteSize then (.error .nameTooLong, tree)
    else
      match tree.node? (l ++ [name]) with
      | some .directory => makeAlong tree made (l ++ [name]) rest
      | some (.file _ _) =>
        (.error (if made ∨ rest = [] then .alreadyExists else .notADirectory), tree)
      | none => makeAlong (tree.put (l ++ [name]) .directory) true (l ++ [name]) rest

/-- Makes a directory with all directories above it. What has been made before a fault stays. -/
def makeDirectories (tree : FileTree) (path : String) : Except FileFault Unit × FileTree :=
  match checkPath path with
  | .error fault => (.error fault, tree)
  | .ok () => tree.makeAlong false (start path) (Path.steps path)

/-! ## files -/

/-- Puts a new file at a path, with the directories above it. -/
def writeFile (tree : FileTree) (path : String) (bytes : Bytes) : Except FileFault FileTree :=
  match tree.makeAlong false (start path) (Path.steps path).dropLast with
  | (.error fault, _) => .error fault
  | (.ok (), tree) =>
    match tree.resolve path with
    | .error fault => .error fault
    | .ok l =>
      match tree.node? l with
      | some .directory => .error .isADirectory
      | _ =>
        .ok { tree.put l (.file tree.nextStamp (.ofList bytes)) with
          nextStamp := tree.nextStamp + 1 }

/-- Takes a file away. -/
def removeFile (tree : FileTree) (path : String) : Except FileFault FileTree :=
  match tree.resolve path with
  | .error fault => .error fault
  | .ok l =>
    match tree.node? l with
    | none => .error .notFound
    | some .directory => .error .isADirectory
    | some (.file _ _) => .ok (tree.erase l)

/-- A file opened for writing: where it is, and its stamp. -/
structure Handle where
  location : Location
  stamp : Nat
  deriving DecidableEq, Repr

/-- Opens a file for writing that is empty afterwards, a new one if there is none. -/
def create (tree : FileTree) (path : String) : Except FileFault (Handle × FileTree) :=
  match tree.resolve path with
  | .error fault => .error fault
  | .ok l =>
    match tree.node? l with
    | some .directory => .error .isADirectory
    | some (.file stamp _) => .ok (⟨l, stamp⟩, tree.put l (.file stamp ⟨[], 0⟩))
    | none =>
      .ok (⟨l, tree.nextStamp⟩,
        { tree.put l (.file tree.nextStamp ⟨[], 0⟩) with nextStamp := tree.nextStamp + 1 })

/-- Gives an open file new bytes; a file that has left its place is not part of the tree. -/
def store (tree : FileTree) (handle : Handle) (content : Content) : FileTree :=
  match tree.node? handle.location with
  | some (.file stamp _) =>
    if stamp = handle.stamp then tree.put handle.location (.file stamp content) else tree
  | _ => tree

/-- The largest number of bytes of a file: one block of 4096 bytes less than 32 bits can count. -/
def longestFile : Nat := (1 <<< 44) - 4096

/-- The largest number of bytes that a file can be asked to have, a signed word of 64 bits. -/
def longestRequest : Nat := (1 <<< 63) - 1

/-- Refuses the lengths that no file can have. -/
def checkLength (length : Nat) : Except FileFault Unit :=
  if longestRequest < length then .error .lengthOutOfRange
  else if longestFile < length then .error .fileTooLarge
  else .ok ()

/-- Cuts the file at a path, or fills it with zeros, to a length. -/
def resize (tree : FileTree) (path : String) (length : Nat) : Except FileFault FileTree :=
  match tree.resolve path with
  | .error fault => .error fault
  | .ok l =>
    match tree.node? l with
    | none => .error .notFound
    | some .directory => .error .isADirectory
    | some (.file stamp content) => .ok (tree.put l (.file stamp (content.resize length)))

/-- Moves a file to another path, in place of a file there. -/
def rename (tree : FileTree) (source target : String) : Except FileFault FileTree :=
  match tree.resolve source, tree.resolve target with
  | .error fault, _ => .error fault
  | _, .error fault => .error fault
  | .ok l, .ok m =>
    match tree.node? l, tree.node? m with
    | none, _ => .error .notFound
    | some .directory, _ => .error .isADirectory
    | some (.file _ _), some .directory => .error .isADirectory
    | some (.file stamp content), _ => .ok ((tree.erase l).put m (.file stamp content))

end FileTree

end RaftJournal
