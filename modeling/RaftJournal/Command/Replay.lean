import RaftJournal.Command.Arguments
import RaftJournal.Command.Outcome
import RaftJournal.Stream.Journal
import RaftJournal.Writer.Basic

/-! # Printing and copying a journal

**`Replay.run`** is the program `journal_tool`. It prints the entries of a journal, one JSON text a
line, after delaying one type of entries if a type is given, and writes them to a new journal if a
directory is given for it. With `--records` it prints a summary of every record instead, and with
`--help` what it can be told. What has been printed before an error stays printed. -/

namespace RaftJournal.Replay

/-- The name of the program. -/
def program : String := "journal_tool"

/-! ## options -/

/-- The options of the program. -/
def specs : List OptionSpec :=
  [⟨"input-dir", 'i', .value, .misfit, "Journal root directory (the one holding `raft/`)"⟩,
    ⟨"group-id", 'g', .value, .usual Uuid.defaultGroup.render, "Raft group whose segments are read"⟩,
    ⟨"start", none, .value, .usual "0", "First log index to read"⟩,
    ⟨"end", none, .value, .nothing, "Stop before this log index"⟩,
    ⟨"entry-type", 't', .anyValue, .nothing,
      "Entry type to delay, by name or code (e.g. `update-inode`, `6`, `-1`)"⟩,
    ⟨"step", 's', .value, .usual "1", "Number of entries a delayed entry is held for"⟩,
    ⟨"output-dir", 'o', .value, .nothing,
      "Write the (disrupted) entries to a new journal under this directory"⟩,
    ⟨"records", none, .flag, .nothing, "Print raw log records instead of entries"⟩,
    ⟨"quiet", 'q', .flag, .nothing, "Do not print entries"⟩,
    ⟨"verbose", 'v', .counted, .nothing, "More logging (-v debug, -vv trace)"⟩,
    .asksHelp]

/-- The help of the program. -/
def help : List String :=
  OptionSpec.help program "Read a Raft metadata journal, optionally delaying one entry type" specs

/-- What the program is asked to do. -/
structure Request where
  /-- The root of the journal that is read. -/
  inputDir : String
  /-- The group and the range that are read. -/
  config : StreamConfig
  /-- The type that is delayed. -/
  entryType : Option EntryType
  /-- The number of entries that go by a delayed one. -/
  step : UInt64
  /-- The root of the journal that is written. -/
  outputDir : Option String
  /-- Whether records are printed instead of entries. -/
  records : Bool
  /-- Whether nothing is printed. -/
  quiet : Bool
  deriving DecidableEq, Repr

/-- What arguments ask for, if they fit. Help is given to whoever asks for it with values that can be read;
a request must also say which journal is read, and records are neither delayed nor written. -/
def asked? (texts : List String) : Option (Asked Request) := do
  let given ← Arguments.parse specs texts
  let inputDir? ← given.optional "input-dir" Arguments.path?
  let group ← given.value "group-id" Arguments.group?
  let start ← given.value "start" Arguments.word?
  let stop ← given.optional "end" Arguments.word?
  let entryType ← given.optional "entry-type" EntryType.parse
  let step ← given.value "step" Arguments.word?
  let outputDir ← given.optional "output-dir" Arguments.path?
  let records := given.has "records"
  if given.has "help" then some .help
  else if records && (entryType.isSome || outputDir.isSome) then none
  else
    inputDir?.map fun inputDir =>
      .request
        ⟨inputDir, ⟨group, start, stop⟩, entryType, step, outputDir, records, given.has "quiet"⟩

/-- The request that arguments make, if they fit and do not ask for help. -/
def Request.ofArguments? (texts : List String) : Option Request :=
  (asked? texts).bind Asked.request?

/-- The group directories that a request is about. -/
def Request.directories (request : Request) : List String :=
  (request.inputDir :: request.outputDir.toList).map fun root =>
    groupDirectory root request.config.group

/-! ## records -/

/-- The line of a record. -/
def recordLine (record : LogRecord) : String :=
  let number (name : String) (n : Nat) : List Json.Token :=
    [.text (.ok name), .colon, .number (.integer n)]
  String.ofList <| Json.Token.render <|
    .leftBrace :: (number "index" record.index.toNat ++ .comma ::
      .text (.ok "kind") :: .colon :: .text (.ok record.kind.name) :: .comma ::
      (number "payload_bytes" record.payload.length ++ .comma ::
        (number "term" record.term.toNat ++ [.rightBrace])))

/-- The records up to the end or the first error, and the error. -/
def splitItems : List (Except JournalError LogRecord) → List LogRecord × Option JournalError
  | [] => ([], none)
  | .error e :: _ => ([], some e)
  | .ok record :: rest =>
    let (records, error) := splitItems rest
    (record :: records, error)

/-- Prints the records of a journal. -/
def runRecords (request : Request) (tree : FileTree) : Outcome :=
  match RecordStream.ofRoot tree request.inputDir request.config with
  | .error e => .failure program [] e.message tree
  | .ok stream =>
    let (records, error) := splitItems (stream.items tree).1
    let lines := if request.quiet then [] else records.map recordLine
    match error with
    | some e => .failure program lines e.message tree
    | none => .success lines tree

/-! ## entries -/

variable {σ : Type} [EntrySource σ]

/-- What is left of copying a source. -/
structure Copied where
  /-- The entries that the source gave; the last may not have been written. -/
  entries : List Entry
  /-- The error that ended the copying. -/
  error : Option JournalError
  writer : Option Writer
  tree : FileTree

/-- Puts an entry in front. -/
def Copied.push (entry : Entry) (c : Copied) : Copied := { c with entries := entry :: c.entries }

/-- Takes every entry of a source and writes it, if there is a writer. -/
def copy (tree : FileTree) (writer : Option Writer) (s : σ) : Copied :=
  match _h : EntrySource.next tree s with
  | (.error e, _) => ⟨[], some e, writer, tree⟩
  | (.ok none, _) => ⟨[], none, writer, tree⟩
  | (.ok (some entry), s') =>
    match writer with
    | none => (copy tree none s').push entry
    | some w =>
      match (Writer.writeEntry entry).run ⟨w, tree⟩ with
      | .error e desk => ⟨[entry], some e, some desk.writer, desk.tree⟩
      | .ok _ desk => (copy desk.tree (some desk.writer) s').push entry
termination_by EntrySource.rank s
decreasing_by
  all_goals
    have := EntrySource.rank_next_some tree s entry
    rw [_h] at this
    exact this rfl

/-- Makes the writer of the new journal, if one is wanted. -/
def makeWriter (request : Request) (tree : FileTree) :
    Except JournalError (Option Writer) × FileTree :=
  match request.outputDir with
  | none => (.ok none, tree)
  | some dir =>
    let config := { WriterConfig.default with group := request.config.group }
    let (made, tree) := Writer.create tree dir config .json
    (made.map some, tree)

/-- Prints and writes the entries of a source. -/
def runSource (request : Request) (tree : FileTree) (s : σ) : Outcome :=
  match makeWriter request tree with
  | (.error e, tree) => .failure program [] e.message tree
  | (.ok writer, tree) =>
    let copied := copy tree writer s
    let lines := if request.quiet then [] else copied.entries.map Entry.print
    match copied.error, copied.writer with
    | some e, _ => .failure program lines e.message copied.tree
    | none, none => .success lines copied.tree
    | none, some writer =>
      match Writer.finish.run ⟨writer, copied.tree⟩ with
      | .error e desk => .failure program lines e.message desk.tree
      | .ok _ desk => .success lines desk.tree

/-- Prints, delays and writes the entries of a journal. -/
def runEntries (request : Request) (tree : FileTree) : Outcome :=
  match JournalEntries.ofRoot tree request.inputDir request.config .json with
  | .error e => .failure program [] e.message tree
  | .ok source =>
    match request.entryType with
    | none => runSource request tree source
    | some target =>
      match Disruptor.wrap source ⟨target, request.step⟩ with
      | .error fault => .failure program [] fault.message tree
      | .ok disruptor => runSource request tree disruptor

/-- What the program does with a request. -/
def answer (request : Request) (tree : FileTree) : Outcome :=
  if request.records then runRecords request tree else runEntries request tree

/-- The program. -/
def run (texts : List String) (tree : FileTree) : Outcome :=
  match asked? texts with
  | none => .refused tree
  | some .help => .success help tree
  | some (.request request) => answer request tree

end RaftJournal.Replay
