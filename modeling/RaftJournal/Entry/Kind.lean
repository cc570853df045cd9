import RaftJournal.Text.Blank
import RaftJournal.Text.Decimal

/-! # The kinds of journal entries

An entry changes the metadata of a file system in one of fifteen ways, its **`PayloadKind`**; each
has a name in stored entries. Users select entries by **`EntryType`**: the type of a kind, or
`unmatched` for entries without a known payload. Types have stable codes, 0 to 14 in the order of the
kinds and −1 for `unmatched`, and names of their own. **`EntryType.parse`** reads a selection, and
**`EntryType.select`** reports a text that is none. -/

namespace RaftJournal

/-- The fifteen ways in which an entry changes metadata. -/
inductive PayloadKind
  | deleteFile
  | inodeDirectory
  | inodeFile
  | newBlock
  | rename
  | setAcl
  | updateInode
  | updateInodeDirectory
  | updateInodeFile
  | asyncPersistRequest
  | completeFile
  | inodeLastModificationTime
  | persistDirectory
  | setAttribute
  | inodeDirectoryIdGenerator
  deriving DecidableEq, Repr

namespace PayloadKind

/-- All kinds in the order of their codes. -/
def all : List PayloadKind :=
  [.deleteFile, .inodeDirectory, .inodeFile, .newBlock, .rename, .setAcl, .updateInode,
    .updateInodeDirectory, .updateInodeFile, .asyncPersistRequest, .completeFile,
    .inodeLastModificationTime, .persistDirectory, .setAttribute, .inodeDirectoryIdGenerator]

theorem mem_all (kind : PayloadKind) : kind ∈ all := by cases kind <;> decide

/-- The name of a kind in a stored entry. -/
def name : PayloadKind → String
  | .deleteFile => "delete_file"
  | .inodeDirectory => "inode_directory"
  | .inodeFile => "inode_file"
  | .newBlock => "new_block"
  | .rename => "rename"
  | .setAcl => "set_acl"
  | .updateInode => "update_inode"
  | .updateInodeDirectory => "update_inode_directory"
  | .updateInodeFile => "update_inode_file"
  | .asyncPersistRequest => "async_persist_request"
  | .completeFile => "complete_file"
  | .inodeLastModificationTime => "inode_last_modification_time"
  | .persistDirectory => "persist_directory"
  | .setAttribute => "set_attribute"
  | .inodeDirectoryIdGenerator => "inode_directory_id_generator"

/-- The kind with the given name in a stored entry. -/
def named? (name : String) : Option PayloadKind := all.find? fun kind => kind.name = name

theorem named?_name (kind : PayloadKind) : named? kind.name = some kind := by
  cases kind <;> decide

/-- The place of a kind among all kinds, which is its code. -/
def index (kind : PayloadKind) : Nat := all.idxOf kind

theorem all_index (kind : PayloadKind) : all[kind.index]? = some kind := by
  cases kind <;> decide

end PayloadKind

/-- What a user selects entries by. -/
inductive EntryType
  /-- Entries with a payload of the kind. -/
  | of (kind : PayloadKind)
  /-- Entries without a known payload. -/
  | unmatched
  deriving DecidableEq, Repr

namespace EntryType

/-- All types in the order of their codes, `unmatched` last. -/
def all : List EntryType := PayloadKind.all.map .of ++ [.unmatched]

theorem mem_all (t : EntryType) : t ∈ all := by
  cases t with
  | of kind => simp [all, PayloadKind.mem_all kind]
  | unmatched => simp [all]

/-- The stable code of a type. -/
def code : EntryType → Int
  | .of kind => kind.index
  | .unmatched => -1

/-- The name of a type. -/
def name : EntryType → String
  | .of .deleteFile => "delete-file"
  | .of .inodeDirectory => "inode-directory"
  | .of .inodeFile => "inode-file"
  | .of .newBlock => "new-block"
  | .of .rename => "rename"
  | .of .setAcl => "set-acl"
  | .of .updateInode => "update-inode"
  | .of .updateInodeDirectory => "update-inode-directory"
  | .of .updateInodeFile => "update-inode-file"
  | .of .asyncPersistRequest => "async-persist-request"
  | .of .completeFile => "complete-file"
  | .of .inodeLastModificationTime => "inode-last-modification-time"
  | .of .persistDirectory => "persist-directory"
  | .of .setAttribute => "set-attribute"
  | .of .inodeDirectoryIdGenerator => "inode-directory-id-generator"
  | .unmatched => "unmatched"

/-- The type with the given code. -/
def ofCode? (code : Int) : Option EntryType := all.find? fun t => t.code = code

/-- The type with the given name. -/
def named? (name : String) : Option EntryType := all.find? fun t => t.name = name

theorem ofCode?_code (t : EntryType) : ofCode? t.code = some t := by
  cases t with
  | of kind => cases kind <;> decide
  | unmatched => decide

theorem named?_name (t : EntryType) : named? t.name = some t := by
  cases t with
  | of kind => cases kind <;> decide
  | unmatched => decide

/-- Kinds that only older journals hold. -/
def isDeprecated (t : EntryType) : Bool := 9 ≤ t.code && t.code ≤ 14

/-- A name in the spelling of the table: lower case, with hyphens for underscores. -/
def normalize (text : List Char) : String :=
  String.ofList (text.map fun c => if c = '_' then '-' else c.toLower)

/-- Reads a selection, a code or a name in any case, with white space around it. A text that is a
number is never taken for a name. -/
def parse (text : String) : Option EntryType :=
  let trimmed := Blank.trim text.toList
  match Decimal.int32? trimmed with
  | some code => ofCode? code
  | none => named? (normalize trimmed)

/-- A text that selects no type. -/
structure Unknown where
  /-- The text as it was given. -/
  text : String
  deriving DecidableEq, Repr

/-- What an error says about the text. -/
def Unknown.message (unknown : Unknown) : String := s!"unknown entry type: {unknown.text}"

/-- Reads a selection, or gives the text back. -/
def select (text : String) : Except Unknown EntryType :=
  match parse text with
  | some t => .ok t
  | none => .error ⟨text⟩

end EntryType

end RaftJournal
