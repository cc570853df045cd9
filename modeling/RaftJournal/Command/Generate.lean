import RaftJournal.Command.Arguments
import RaftJournal.Command.Outcome
import RaftJournal.Writer.Basic

/-! # Writing a sample journal

**`Generate.run`** is the program `generate_journal`. It writes a journal that begins with a
configuration record and then creates a number of files with their blocks, renames some and deletes
some, and it prints the writer's summary. With `--help` it only prints what it can be told. -/

namespace RaftJournal.Generate

/-- The name of the program. -/
def program : String := "generate_journal"

/-! ## options -/

/-- The options of the program. -/
def specs : List OptionSpec :=
  [⟨"output-dir", 'o', .value, .misfit, "Directory the journal is written under"⟩,
    ⟨"group-id", 'g', .value, .usual Uuid.defaultGroup.render, "Raft group to write"⟩,
    ⟨"files", 'f', .value, .usual "20", "Number of files to create"⟩,
    ⟨"blocks", 'b', .value, .usual "2", "Blocks written per file"⟩,
    ⟨"batch", none, .value, .usual "8", "Entries per state-machine record"⟩,
    ⟨"segment-size", none, .value, .usual (toString WriterConfig.defaultSegmentSize),
      "Segment size in bytes"⟩,
    .asksHelp]

/-- The help of the program. -/
def help : List String := OptionSpec.help program "Generate a sample Raft metadata journal" specs

/-- What the program is asked to do. -/
structure Request where
  /-- The root of the journal. -/
  outputDir : String
  config : WriterConfig
  /-- The number of files. -/
  files : UInt64
  /-- The number of blocks of each file. -/
  blocks : UInt64
  deriving DecidableEq, Repr

/-- What arguments ask for, if they fit. Help is given to whoever asks for it with values that can be read;
a request must also say where the journal is written. -/
def asked? (texts : List String) : Option (Asked Request) := do
  let given ← Arguments.parse specs texts
  let outputDir? ← given.optional "output-dir" Arguments.path?
  let group ← given.value "group-id" Arguments.group?
  let files ← given.value "files" Arguments.word?
  let blocks ← given.value "blocks" Arguments.word?
  let maxBatchEntries ← given.value "batch" Arguments.word?
  let segmentSize ← given.value "segment-size" Arguments.word?
  if given.has "help" then some .help
  else
    outputDir?.map fun outputDir =>
      .request
        ⟨outputDir, { WriterConfig.default with group, segmentSize, maxBatchEntries }, files, blocks⟩

/-- The request that arguments make, if they fit and do not ask for help. -/
def Request.ofArguments? (texts : List String) : Option Request :=
  (asked? texts).bind Asked.request?

/-- The group directories that a request is about. -/
def Request.directories (request : Request) : List String :=
  [groupDirectory request.outputDir request.config.group]

/-! ## entries -/

/-- The inode of the root directory. -/
def rootInode : UInt64 := 0

/-- The number of bytes of a block, 64 MiB. -/
def blockSize : UInt64 := 64 * 1024 * 1024

/-- The time at which the first file is modified, in milliseconds. -/
def startTime : Int64 := 1700000000000

/-- The name of a file: its number in four digits or more. -/
def fileName (file : Nat) : String :=
  let digits := Nat.toDigits 10 file
  "file-" ++ String.ofList (List.replicate (4 - digits.length) '0' ++ digits)

/-- The entry that creates a file. -/
def createEntry (id : UInt64) (name : String) : Payload :=
  ⟨.inodeFile,
    ({ id, parentId := rootInode, name, persistenceState := .notPersisted, pinned := false,
       creationTimeMs := 0, lastModificationTimeMs := 0, blockSizeBytes := blockSize, length := 0,
       completed := false, cacheable := false, blocks := [], ttl := none, owner := "",
       group := "", mode := 0 } : InodeFile)⟩

/-- The entry that adds a block to a file. -/
def blockEntry (id blockId : UInt64) : Payload := ⟨.newBlock, (⟨id, blockId⟩ : NewBlock)⟩

/-- The entry that sets the time of a file. -/
def touchEntry (id : UInt64) (time : Int64) : Payload :=
  ⟨.updateInode,
    ({ id, parentId := none, name := none, persistenceState := none, pinned := none, ttl := none,
       lastModificationTimeMs := some time, lastAccessTimeMs := none, owner := none,
       group := none, mode := none, ufsFingerprint := none } : UpdateInode)⟩

/-- The entry that completes a file. -/
def completeEntry (id : UInt64) (blockIds : List UInt64) (blocks : UInt64) : Payload :=
  ⟨.updateInodeFile,
    ({ id, blockSizeBytes := none, length := some (blockSize * blocks), completed := some true,
       cacheable := none, setBlocks := blockIds } : UpdateInodeFile)⟩

/-- The entry that renames a file. -/
def renameEntry (id : UInt64) (newName : String) : Payload :=
  ⟨.rename,
    ({ id, opTimeMs := 0, newParentId := rootInode, newName, path := none, newPath := none } :
      Rename)⟩

/-- The entry that deletes a file. -/
def deleteEntry (id : UInt64) (time : Int64) : Payload :=
  ⟨.deleteFile, ({ id, recursive := false, opTimeMs := time, path := none } : DeleteFile)⟩

/-- The entries of a file: every fifth file is renamed and every seventh deleted. -/
def fileEntries (file : Nat) (blocks : UInt64) : List Entry :=
  let id := UInt64.ofNat file + 1
  let name := fileName file
  let time := startTime + Int64.ofNat file
  let blockIds := (List.range blocks.toNat).map fun b => (id <<< 24) ||| UInt64.ofNat b
  let payloads :=
    createEntry id name :: blockIds.map (blockEntry id) ++
      [touchEntry id time, completeEntry id blockIds blocks] ++
      (if file % 5 = 3 then [renameEntry id (name ++ ".renamed")] else []) ++
      (if file % 7 = 6 then [deleteEntry id time] else [])
  payloads.map fun payload => .ofPayload (some payload)

/-! ## the program -/

/-- The payload of the configuration record. -/
def peers : Bytes := Utf8.ofString "\x7b\"peers\":[\"localhost:19200\"]\x7d"

/-- Writes the sample journal. -/
def write (request : Request) : WriterM WriterSummary := do
  let _ ← Writer.appendRecord .configuration peers
  for file in List.range request.files.toNat do
    for entry in fileEntries file request.blocks do
      Writer.writeEntry entry
  Writer.finish

/-- What the program does with a request. -/
def answer (request : Request) (tree : FileTree) : Outcome :=
  match Writer.create tree request.outputDir request.config .json with
  | (.error e, tree) => .failure program [] e.message tree
  | (.ok writer, tree) =>
    match (write request).run ⟨writer, tree⟩ with
    | .error e desk => .failure program [] e.message desk.tree
    | .ok summary desk => .success [WriterSummary.json.print summary] desk.tree

/-- The program. -/
def run (texts : List String) (tree : FileTree) : Outcome :=
  match asked? texts with
  | none => .refused tree
  | some .help => .success help tree
  | some (.request request) => answer request tree

end RaftJournal.Generate
