import RaftJournal.Entry.Body
import RaftJournal.Entry.Kind

/-! # Journal entries and their batches

An **`Entry`** has a sequence number, if it has been stamped, and a payload, if it has one that is
known; a state-machine record of the journal holds a **`Batch`** of entries. **`Entry.type`** is what
users select entries by.

A payload is stored as a choice: an object with one member named for the kind, or the index of the
kind followed by the body. An object that names no known kind leaves the entry without a payload;
packed bytes with an unknown index cannot be read on. -/

namespace RaftJournal

/-! ## payloads -/

/-- What an entry of the given kind says. -/
def PayloadKind.Body : PayloadKind → Type
  | .deleteFile => DeleteFile
  | .inodeDirectory => InodeDirectory
  | .inodeFile => InodeFile
  | .newBlock => NewBlock
  | .rename => Rename
  | .setAcl => SetAcl
  | .updateInode => UpdateInode
  | .updateInodeDirectory => UpdateInodeDirectory
  | .updateInodeFile => UpdateInodeFile
  | .asyncPersistRequest => AsyncPersistRequest
  | .completeFile => CompleteFile
  | .inodeLastModificationTime => InodeLastModificationTime
  | .persistDirectory => PersistDirectory
  | .setAttribute => SetAttribute
  | .inodeDirectoryIdGenerator => InodeDirectoryIdGenerator

instance (kind : PayloadKind) : DecidableEq kind.Body := by
  cases kind <;> unfold PayloadKind.Body <;> infer_instance

/-- How the body of a kind is stored. -/
def PayloadKind.schema : (kind : PayloadKind) → Schema kind.Body
  | .deleteFile => DeleteFile.schema
  | .inodeDirectory => InodeDirectory.schema
  | .inodeFile => InodeFile.schema
  | .newBlock => NewBlock.schema
  | .rename => Rename.schema
  | .setAcl => SetAcl.schema
  | .updateInode => UpdateInode.schema
  | .updateInodeDirectory => UpdateInodeDirectory.schema
  | .updateInodeFile => UpdateInodeFile.schema
  | .asyncPersistRequest => AsyncPersistRequest.schema
  | .completeFile => CompleteFile.schema
  | .inodeLastModificationTime => InodeLastModificationTime.schema
  | .persistDirectory => PersistDirectory.schema
  | .setAttribute => SetAttribute.schema
  | .inodeDirectoryIdGenerator => InodeDirectoryIdGenerator.schema

/-- What an entry says: a kind, and a body of that kind. -/
structure Payload where
  kind : PayloadKind
  body : kind.Body
  deriving DecidableEq

namespace Payload

/-- The inode that a payload is about. -/
def inodeId : Payload → Option UInt64
  | ⟨.deleteFile, body⟩ => some (DeleteFile.id body)
  | ⟨.inodeDirectory, body⟩ => some (InodeDirectory.id body)
  | ⟨.inodeFile, body⟩ => some (InodeFile.id body)
  | ⟨.newBlock, body⟩ => some (NewBlock.id body)
  | ⟨.rename, body⟩ => some (Rename.id body)
  | ⟨.setAcl, body⟩ => some (SetAcl.id body)
  | ⟨.updateInode, body⟩ => some (UpdateInode.id body)
  | ⟨.updateInodeDirectory, body⟩ => some (UpdateInodeDirectory.id body)
  | ⟨.updateInodeFile, body⟩ => some (UpdateInodeFile.id body)
  | ⟨.asyncPersistRequest, body⟩ => some (AsyncPersistRequest.fileId body)
  | ⟨.completeFile, body⟩ => some (CompleteFile.id body)
  | ⟨.inodeLastModificationTime, body⟩ => some (InodeLastModificationTime.id body)
  | ⟨.persistDirectory, body⟩ => some (PersistDirectory.id body)
  | ⟨.setAttribute, body⟩ => some (SetAttribute.id body)
  | ⟨.inodeDirectoryIdGenerator, _⟩ => none

/-- Reads the value of the member named for a kind; the value of an unknown name is skipped. -/
def readBody (kind? : Option PayloadKind) : Json.Reader (Option Payload) := fun tokens =>
  match kind? with
  | none => (Json.skipValue tokens).map fun rest => (none, rest)
  | some kind => (kind.schema.wire.json.read tokens).map fun (body, rest) => (some ⟨kind, body⟩, rest)

/-- The fault of a payload written as a bare name. -/
def bareName : Json.Fault := .invalidType .unitVariant "newtype variant"

/-- A payload in a JSON text, where `null` stands for none. -/
def json : Json.Format (Option Payload) where
  read tokens :=
    match tokens with
    | [] => .error .cutValue
    | .null :: rest => .ok (none, rest)
    | .broken .null read _ :: _ => .error read
    | .text (.ok _) :: _ => .error bareName
    | .text (.error fault) :: _ => .error fault
    | .broken .text read _ :: _ => .error read
    | .leftBrace :: rest =>
      match Json.readChoiceName (fun name => .ok (PayloadKind.named? name)) rest with
      | .error fault => .error fault
      | .ok (kind?, rest) =>
        match readBody kind? rest with
        | .error fault => .error fault
        | .ok (payload?, rest) => (Json.readChoiceEnd rest).map fun rest => (payload?, rest)
    | _ => .error .noValue
  write payload? :=
    match payload? with
    | none => [.null]
    | some payload =>
      .leftBrace :: .text (.ok payload.kind.name) :: .colon ::
        (payload.kind.schema.wire.json.write payload.body ++ [.rightBrace])

/-- A payload in packed bytes. -/
def packed : Packed.Format Payload where
  read bytes :=
    match Packed.Varint.read .word32 bytes with
    | .error fault => .error fault
    | .ok (index, rest) =>
      match PayloadKind.all[index]? with
      | none => .error .unknownPayload
      | some kind =>
        (kind.schema.wire.packed.read rest).map fun (body, rest) => (⟨kind, body⟩, rest)
  write payload :=
    Packed.Varint.write payload.kind.index ++ payload.kind.schema.wire.packed.write payload.body

end Payload

/-! ## entries -/

/-- An entry of the journal. -/
structure Entry where
  /-- The number that orders entries, once a writer has stamped the entry. -/
  sequenceNumber : Option UInt64
  /-- What the entry says, or nothing when its payload is unknown or absent. -/
  payload : Option Payload
  deriving DecidableEq

namespace Entry

/-- An entry that has not been stamped. -/
def ofPayload (payload : Option Payload) : Entry := ⟨none, payload⟩

/-- The entry with the given sequence number. -/
def stamp (n : UInt64) (e : Entry) : Entry := { e with sequenceNumber := some n }

/-- The entry without a sequence number. -/
def clear (e : Entry) : Entry := { e with sequenceNumber := none }

/-- What users select the entry by. -/
def type (e : Entry) : EntryType :=
  match e.payload with
  | some payload => .of payload.kind
  | none => .unmatched

/-- The record of an entry. -/
def schema : Schema Entry where
  name := "JournalEntry"
  Row := Option UInt64 × Option Payload × Unit
  layout :=
    .cons (.defaulted "sequence_number" (.option .word64) none) <|
    .cons (.defaulted "payload" ⟨Payload.json, .option Payload.packed⟩ none) <|
    .nil
  ofRow := fun (sequenceNumber, payload, _) => ⟨sequenceNumber, payload⟩
  toRow e := (e.sequenceNumber, e.payload, ())

/-- Reads an entry from a JSON text. -/
def parse (text : String) : Except Json.Fault Entry :=
  schema.wire.json.parse (Utf8.ofString text)

/-- Writes an entry as a JSON text. -/
def print (e : Entry) : String := schema.wire.json.print e

end Entry

/-! ## batches -/

/-- The entries of one record. -/
structure Batch where
  entries : List Entry
  deriving DecidableEq

/-- The record of a batch. -/
def Batch.schema : Schema Batch where
  name := "JournalEntryBatch"
  Row := List Entry × Unit
  layout := .cons (.defaulted "entries" (.list Entry.schema.wire) []) .nil
  ofRow := fun (entries, _) => ⟨entries⟩
  toRow b := (b.entries, ())

end RaftJournal
