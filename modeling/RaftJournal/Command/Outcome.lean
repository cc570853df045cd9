import RaftJournal.Error
import RaftJournal.Storage.FileTree
import RaftJournal.Text.Decimal

/-! # What a program leaves behind

The run of a program is a function of its arguments and the files. Its **`Outcome`** is the exit
status, the lines of its standard output, the error that it reports, and the files afterwards. -/

namespace RaftJournal

/-- What the run of a program leaves behind. -/
structure Outcome where
  /-- 0 when all went well, 1 after an error, 2 when the arguments were refused. -/
  status : Nat
  /-- The lines of standard output. -/
  lines : List String
  /-- What is reported on standard error. -/
  report : Option String
  /-- The files afterwards. -/
  tree : FileTree

namespace Outcome

/-- A run whose arguments were refused. -/
def refused (tree : FileTree) : Outcome := ⟨2, [], none, tree⟩

/-- A run that went well. -/
def success (lines : List String) (tree : FileTree) : Outcome := ⟨0, lines, none, tree⟩

/-- A run of a program that ended with an error. -/
def failure (program : String) (lines : List String) (message : String) (tree : FileTree) :
    Outcome :=
  ⟨1, lines, some s!"{program}: {message}", tree⟩

end Outcome

namespace Arguments

/-- The value of an option that is a path: any text but the empty one. -/
def path? (text : String) : Option String := if text = "" then none else some text

/-- The value of an option that is a group. -/
def group? (text : String) : Option Uuid := (Uuid.parse text).toOption

/-- The value of an option that is a word of 64 bits. -/
def word? (text : String) : Option UInt64 := Decimal.word64? text.toList

end Arguments

end RaftJournal
