import RaftJournal.Command.Generate
import RaftJournal.Command.Replay

/-! # The command line

The first argument is the name of a program, the others are the program's. The files that the
program may look at are brought into a tree, the program is run on the tree, and what it changed is
brought back. -/

namespace RaftJournal.CommandLine

/-- A program. -/
structure Program where
  name : String
  /-- The group directories that the arguments are about. -/
  directories : List String → List String
  run : List String → FileTree → Outcome

/-- The programs. -/
def programs : List Program :=
  [⟨Replay.program,
      fun texts => (Replay.Request.ofArguments? texts).elim [] Replay.Request.directories,
      Replay.run⟩,
    ⟨Generate.program,
      fun texts => (Generate.Request.ofArguments? texts).elim [] Generate.Request.directories,
      Generate.run⟩]

/-- The paths that lead to a path, shortest first. -/
def leadingPaths (path : String) : List String :=
  let start := if Path.isAbsolute path then "/" else ""
  let names := (Path.parts path).filter (· ≠ "")
  (names.foldl (fun (at_, paths) name => (Path.join at_ name, paths ++ [Path.join at_ name]))
    (start, [])).2

/-- The tree after a change, or the tree before one that is refused. -/
def orBefore (tree : FileTree) (changed : Except FileFault FileTree) : FileTree :=
  changed.toOption.getD tree

/-- Brings a directory into a tree, with its segments and with the directories above it. -/
def load (tree : FileTree) (dir : String) : IO FileTree := do
  let home ← IO.currentDir
  let mut tree := tree
  for path in leadingPaths dir do
    if ← (home / path).isDir then
      tree := (tree.makeDirectories path).2
    else if ← (home / path).pathExists then
      tree := orBefore tree (tree.writeFile path [])
  if ← (home / dir).isDir then
    for entry in ← (home / dir).readDir do
      let path := Path.join dir entry.fileName
      if (SegmentName.parse entry.fileName).isSome then
        if ← (home / path).isDir then
          tree := (tree.makeDirectories path).2
        else
          tree := orBefore tree (tree.writeFile path (← IO.FS.readBinFile (home / path)).toList)
  return tree

/-- Brings what has changed in a directory back to the file system. -/
def store (before after : FileTree) (dir : String) : IO Unit := do
  let home ← IO.currentDir
  for path in leadingPaths dir do
    if after.isDirectory path && !before.isDirectory path then
      IO.FS.createDirAll (home / path)
  let .ok here := after.resolve dir | return
  if after.isDirectory dir then
    for name in after.children here do
      if let some (.file _ content) := after.node? (here ++ [name]) then
        if before.node? (here ++ [name]) ≠ after.node? (here ++ [name]) then
          IO.FS.writeBinFile (home / Path.join dir name) content.toList.toByteArray

/-- Runs a program on the files of the system. -/
def runProgram (program : Program) (texts : List String) : IO UInt32 := do
  let dirs := program.directories texts
  let before ← dirs.foldlM load .empty
  let outcome := program.run texts before
  for dir in dirs do
    store before outcome.tree dir
  for line in outcome.lines do
    IO.println line
  for message in outcome.report do
    IO.eprintln message
  return UInt32.ofNat outcome.status

/-- Runs the program that the arguments name. -/
def run : List String → IO UInt32
  | [] => refuse
  | name :: texts =>
    match programs.find? (·.name = name) with
    | some program => runProgram program texts
    | none => refuse
where
  /-- Tells which programs there are. -/
  refuse : IO UInt32 := do
    IO.eprintln ("expected one of: " ++ ", ".intercalate (programs.map (·.name)))
    return 2

end RaftJournal.CommandLine

/-- The command line. -/
def main (args : List String) : IO UInt32 := RaftJournal.CommandLine.run args
