import RaftJournal.Wire

/-! # What journal entries say

One structure for each kind of entry, with the **`Schema`** that says how it is stored. A field with
a default may be missing from a stored entry, as it is in entries of older journals; the fields
without one identify what the entry is about. -/

namespace RaftJournal

/-! ## choices -/

/-- Whether a file has reached the storage under the journalled file system. -/
inductive PersistenceState
  | notPersisted
  | toBePersisted
  | persisted
  | lost
  deriving DecidableEq, Repr

/-- The states with their names. -/
def PersistenceState.names : Json.Names PersistenceState where
  members := [.notPersisted, .toBePersisted, .persisted, .lost]
  name
    | .notPersisted => "NOT_PERSISTED"
    | .toBePersisted => "TO_BE_PERSISTED"
    | .persisted => "PERSISTED"
    | .lost => "LOST"

/-- How a state is stored. -/
def PersistenceState.wire : Wire PersistenceState := .choice PersistenceState.names

/-- What is done to an access control list. -/
inductive AclAction
  | replace
  | modify
  | remove
  | removeAll
  | removeDefault
  deriving DecidableEq, Repr

/-- The actions with their names. -/
def AclAction.names : Json.Names AclAction where
  members := [.replace, .modify, .remove, .removeAll, .removeDefault]
  name
    | .replace => "REPLACE"
    | .modify => "MODIFY"
    | .remove => "REMOVE"
    | .removeAll => "REMOVE_ALL"
    | .removeDefault => "REMOVE_DEFAULT"

/-- How an action is stored. -/
def AclAction.wire : Wire AclAction := .choice AclAction.names

/-! ## bodies -/

/-- A file is deleted. -/
structure DeleteFile where
  id : UInt64
  recursive : Bool
  opTimeMs : Int64
  path : Option String
  deriving DecidableEq, Repr

/-- The record of `DeleteFile`. -/
def DeleteFile.schema : Schema DeleteFile where
  name := "DeleteFileEntry"
  Row := UInt64 × Bool × Int64 × Option String × Unit
  layout :=
    .cons (.required "id" .word64) <|
    .cons (.defaulted "recursive" .flag false) <|
    .cons (.defaulted "op_time_ms" .int64 0) <|
    .cons (.defaulted "path" (.option .text) none) <|
    .nil
  ofRow := fun (id, recursive, opTimeMs, path, _) =>
    ⟨id, recursive, opTimeMs, path⟩
  toRow e := (e.id, e.recursive, e.opTimeMs, e.path, ())

/-- A directory is created or replaced. -/
structure InodeDirectory where
  id : UInt64
  parentId : UInt64
  name : String
  persistenceState : PersistenceState
  pinned : Bool
  creationTimeMs : Int64
  lastModificationTimeMs : Int64
  owner : String
  group : String
  mode : UInt32
  mountPoint : Bool
  directChildrenLoaded : Bool
  deriving DecidableEq, Repr

/-- The record of `InodeDirectory`. -/
def InodeDirectory.schema : Schema InodeDirectory where
  name := "InodeDirectoryEntry"
  Row := UInt64 × UInt64 × String × PersistenceState × Bool ×
    Int64 × Int64 × String × String × UInt32 ×
    Bool × Bool × Unit
  layout :=
    .cons (.required "id" .word64) <|
    .cons (.required "parent_id" .word64) <|
    .cons (.required "name" .text) <|
    .cons (.defaulted "persistence_state" PersistenceState.wire .notPersisted) <|
    .cons (.defaulted "pinned" .flag false) <|
    .cons (.defaulted "creation_time_ms" .int64 0) <|
    .cons (.defaulted "last_modification_time_ms" .int64 0) <|
    .cons (.defaulted "owner" .text "") <|
    .cons (.defaulted "group" .text "") <|
    .cons (.defaulted "mode" .word32 0) <|
    .cons (.defaulted "mount_point" .flag false) <|
    .cons (.defaulted "direct_children_loaded" .flag false) <|
    .nil
  ofRow := fun (id, parentId, name, persistenceState, pinned, creationTimeMs,
    lastModificationTimeMs, owner, group, mode, mountPoint, directChildrenLoaded, _) =>
    ⟨id, parentId, name, persistenceState, pinned, creationTimeMs, lastModificationTimeMs,
    owner, group, mode, mountPoint, directChildrenLoaded⟩
  toRow e := (e.id, e.parentId, e.name, e.persistenceState, e.pinned, e.creationTimeMs,
    e.lastModificationTimeMs, e.owner, e.group, e.mode, e.mountPoint, e.directChildrenLoaded,
    ())

/-- A file is created or replaced. -/
structure InodeFile where
  id : UInt64
  parentId : UInt64
  name : String
  persistenceState : PersistenceState
  pinned : Bool
  creationTimeMs : Int64
  lastModificationTimeMs : Int64
  blockSizeBytes : UInt64
  length : UInt64
  completed : Bool
  cacheable : Bool
  blocks : List UInt64
  ttl : Option Int64
  owner : String
  group : String
  mode : UInt32
  deriving DecidableEq, Repr

/-- The record of `InodeFile`. -/
def InodeFile.schema : Schema InodeFile where
  name := "InodeFileEntry"
  Row := UInt64 × UInt64 × String × PersistenceState × Bool ×
    Int64 × Int64 × UInt64 × UInt64 × Bool ×
    Bool × List UInt64 × Option Int64 × String × String ×
    UInt32 × Unit
  layout :=
    .cons (.required "id" .word64) <|
    .cons (.required "parent_id" .word64) <|
    .cons (.required "name" .text) <|
    .cons (.defaulted "persistence_state" PersistenceState.wire .notPersisted) <|
    .cons (.defaulted "pinned" .flag false) <|
    .cons (.defaulted "creation_time_ms" .int64 0) <|
    .cons (.defaulted "last_modification_time_ms" .int64 0) <|
    .cons (.defaulted "block_size_bytes" .word64 0) <|
    .cons (.defaulted "length" .word64 0) <|
    .cons (.defaulted "completed" .flag false) <|
    .cons (.defaulted "cacheable" .flag false) <|
    .cons (.defaulted "blocks" (.list .word64) []) <|
    .cons (.defaulted "ttl" (.option .int64) none) <|
    .cons (.defaulted "owner" .text "") <|
    .cons (.defaulted "group" .text "") <|
    .cons (.defaulted "mode" .word32 0) <|
    .nil
  ofRow := fun (id, parentId, name, persistenceState, pinned, creationTimeMs,
    lastModificationTimeMs, blockSizeBytes, length, completed, cacheable, blocks, ttl, owner,
    group, mode, _) =>
    ⟨id, parentId, name, persistenceState, pinned, creationTimeMs, lastModificationTimeMs,
    blockSizeBytes, length, completed, cacheable, blocks, ttl, owner, group, mode⟩
  toRow e := (e.id, e.parentId, e.name, e.persistenceState, e.pinned, e.creationTimeMs,
    e.lastModificationTimeMs, e.blockSizeBytes, e.length, e.completed, e.cacheable, e.blocks,
    e.ttl, e.owner, e.group, e.mode, ())

/-- A block is added to a file. -/
structure NewBlock where
  id : UInt64
  blockId : UInt64
  deriving DecidableEq, Repr

/-- The record of `NewBlock`. -/
def NewBlock.schema : Schema NewBlock where
  name := "NewBlockEntry"
  Row := UInt64 × UInt64 × Unit
  layout :=
    .cons (.required "id" .word64) <|
    .cons (.required "block_id" .word64) <|
    .nil
  ofRow := fun (id, blockId, _) =>
    ⟨id, blockId⟩
  toRow e := (e.id, e.blockId, ())

/-- A file or directory is moved. -/
structure Rename where
  id : UInt64
  opTimeMs : Int64
  newParentId : UInt64
  newName : String
  path : Option String
  newPath : Option String
  deriving DecidableEq, Repr

/-- The record of `Rename`. -/
def Rename.schema : Schema Rename where
  name := "RenameEntry"
  Row := UInt64 × Int64 × UInt64 × String × Option String ×
    Option String × Unit
  layout :=
    .cons (.required "id" .word64) <|
    .cons (.defaulted "op_time_ms" .int64 0) <|
    .cons (.defaulted "new_parent_id" .word64 0) <|
    .cons (.defaulted "new_name" .text "") <|
    .cons (.defaulted "path" (.option .text) none) <|
    .cons (.defaulted "new_path" (.option .text) none) <|
    .nil
  ofRow := fun (id, opTimeMs, newParentId, newName, path, newPath, _) =>
    ⟨id, opTimeMs, newParentId, newName, path, newPath⟩
  toRow e := (e.id, e.opTimeMs, e.newParentId, e.newName, e.path, e.newPath, ())

/-- The access control list of an inode is changed. -/
structure SetAcl where
  id : UInt64
  opTimeMs : Int64
  action : AclAction
  entries : List String
  recursive : Bool
  deriving DecidableEq, Repr

/-- The record of `SetAcl`. -/
def SetAcl.schema : Schema SetAcl where
  name := "SetAclEntry"
  Row := UInt64 × Int64 × AclAction × List String × Bool × Unit
  layout :=
    .cons (.required "id" .word64) <|
    .cons (.defaulted "op_time_ms" .int64 0) <|
    .cons (.defaulted "action" AclAction.wire .replace) <|
    .cons (.defaulted "entries" (.list .text) []) <|
    .cons (.defaulted "recursive" .flag false) <|
    .nil
  ofRow := fun (id, opTimeMs, action, entries, recursive, _) =>
    ⟨id, opTimeMs, action, entries, recursive⟩
  toRow e := (e.id, e.opTimeMs, e.action, e.entries, e.recursive, ())

/-- Attributes that all inodes have are changed. -/
structure UpdateInode where
  id : UInt64
  parentId : Option UInt64
  name : Option String
  persistenceState : Option PersistenceState
  pinned : Option Bool
  ttl : Option Int64
  lastModificationTimeMs : Option Int64
  lastAccessTimeMs : Option Int64
  owner : Option String
  group : Option String
  mode : Option UInt32
  ufsFingerprint : Option String
  deriving DecidableEq, Repr

/-- The record of `UpdateInode`. -/
def UpdateInode.schema : Schema UpdateInode where
  name := "UpdateInodeEntry"
  Row := UInt64 × Option UInt64 × Option String × Option PersistenceState × Option Bool ×
    Option Int64 × Option Int64 × Option Int64 × Option String × Option String ×
    Option UInt32 × Option String × Unit
  layout :=
    .cons (.required "id" .word64) <|
    .cons (.defaulted "parent_id" (.option .word64) none) <|
    .cons (.defaulted "name" (.option .text) none) <|
    .cons (.defaulted "persistence_state" (.option PersistenceState.wire) none) <|
    .cons (.defaulted "pinned" (.option .flag) none) <|
    .cons (.defaulted "ttl" (.option .int64) none) <|
    .cons (.defaulted "last_modification_time_ms" (.option .int64) none) <|
    .cons (.defaulted "last_access_time_ms" (.option .int64) none) <|
    .cons (.defaulted "owner" (.option .text) none) <|
    .cons (.defaulted "group" (.option .text) none) <|
    .cons (.defaulted "mode" (.option .word32) none) <|
    .cons (.defaulted "ufs_fingerprint" (.option .text) none) <|
    .nil
  ofRow := fun (id, parentId, name, persistenceState, pinned, ttl, lastModificationTimeMs,
    lastAccessTimeMs, owner, group, mode, ufsFingerprint, _) =>
    ⟨id, parentId, name, persistenceState, pinned, ttl, lastModificationTimeMs,
    lastAccessTimeMs, owner, group, mode, ufsFingerprint⟩
  toRow e := (e.id, e.parentId, e.name, e.persistenceState, e.pinned, e.ttl,
    e.lastModificationTimeMs, e.lastAccessTimeMs, e.owner, e.group, e.mode, e.ufsFingerprint,
    ())

/-- Attributes of a directory are changed. -/
structure UpdateInodeDirectory where
  id : UInt64
  mountPoint : Option Bool
  directChildrenLoaded : Option Bool
  defaultAcl : List String
  deriving DecidableEq, Repr

/-- The record of `UpdateInodeDirectory`. -/
def UpdateInodeDirectory.schema : Schema UpdateInodeDirectory where
  name := "UpdateInodeDirectoryEntry"
  Row := UInt64 × Option Bool × Option Bool × List String × Unit
  layout :=
    .cons (.required "id" .word64) <|
    .cons (.defaulted "mount_point" (.option .flag) none) <|
    .cons (.defaulted "direct_children_loaded" (.option .flag) none) <|
    .cons (.defaulted "default_acl" (.list .text) []) <|
    .nil
  ofRow := fun (id, mountPoint, directChildrenLoaded, defaultAcl, _) =>
    ⟨id, mountPoint, directChildrenLoaded, defaultAcl⟩
  toRow e := (e.id, e.mountPoint, e.directChildrenLoaded, e.defaultAcl, ())

/-- Attributes of a file are changed. -/
structure UpdateInodeFile where
  id : UInt64
  blockSizeBytes : Option UInt64
  length : Option UInt64
  completed : Option Bool
  cacheable : Option Bool
  setBlocks : List UInt64
  deriving DecidableEq, Repr

/-- The record of `UpdateInodeFile`. -/
def UpdateInodeFile.schema : Schema UpdateInodeFile where
  name := "UpdateInodeFileEntry"
  Row := UInt64 × Option UInt64 × Option UInt64 × Option Bool × Option Bool ×
    List UInt64 × Unit
  layout :=
    .cons (.required "id" .word64) <|
    .cons (.defaulted "block_size_bytes" (.option .word64) none) <|
    .cons (.defaulted "length" (.option .word64) none) <|
    .cons (.defaulted "completed" (.option .flag) none) <|
    .cons (.defaulted "cacheable" (.option .flag) none) <|
    .cons (.defaulted "set_blocks" (.list .word64) []) <|
    .nil
  ofRow := fun (id, blockSizeBytes, length, completed, cacheable, setBlocks, _) =>
    ⟨id, blockSizeBytes, length, completed, cacheable, setBlocks⟩
  toRow e := (e.id, e.blockSizeBytes, e.length, e.completed, e.cacheable, e.setBlocks, ())

/-- A file is to be persisted in the background. -/
structure AsyncPersistRequest where
  fileId : UInt64
  deriving DecidableEq, Repr

/-- The record of `AsyncPersistRequest`. -/
def AsyncPersistRequest.schema : Schema AsyncPersistRequest where
  name := "AsyncPersistRequestEntry"
  Row := UInt64 × Unit
  layout :=
    .cons (.required "file_id" .word64) <|
    .nil
  ofRow := fun (fileId, _) =>
    ⟨fileId⟩
  toRow e := (e.fileId, ())

/-- A file is completed. -/
structure CompleteFile where
  id : UInt64
  blockIds : List UInt64
  length : UInt64
  opTimeMs : Int64
  ufsFingerprint : Option String
  deriving DecidableEq, Repr

/-- The record of `CompleteFile`. -/
def CompleteFile.schema : Schema CompleteFile where
  name := "CompleteFileEntry"
  Row := UInt64 × List UInt64 × UInt64 × Int64 × Option String × Unit
  layout :=
    .cons (.required "id" .word64) <|
    .cons (.defaulted "block_ids" (.list .word64) []) <|
    .cons (.defaulted "length" .word64 0) <|
    .cons (.defaulted "op_time_ms" .int64 0) <|
    .cons (.defaulted "ufs_fingerprint" (.option .text) none) <|
    .nil
  ofRow := fun (id, blockIds, length, opTimeMs, ufsFingerprint, _) =>
    ⟨id, blockIds, length, opTimeMs, ufsFingerprint⟩
  toRow e := (e.id, e.blockIds, e.length, e.opTimeMs, e.ufsFingerprint, ())

/-- The modification time of an inode is set. -/
structure InodeLastModificationTime where
  id : UInt64
  lastModificationTimeMs : Int64
  deriving DecidableEq, Repr

/-- The record of `InodeLastModificationTime`. -/
def InodeLastModificationTime.schema : Schema InodeLastModificationTime where
  name := "InodeLastModificationTimeEntry"
  Row := UInt64 × Int64 × Unit
  layout :=
    .cons (.required "id" .word64) <|
    .cons (.required "last_modification_time_ms" .int64) <|
    .nil
  ofRow := fun (id, lastModificationTimeMs, _) =>
    ⟨id, lastModificationTimeMs⟩
  toRow e := (e.id, e.lastModificationTimeMs, ())

/-- A directory is persisted. -/
structure PersistDirectory where
  id : UInt64
  deriving DecidableEq, Repr

/-- The record of `PersistDirectory`. -/
def PersistDirectory.schema : Schema PersistDirectory where
  name := "PersistDirectoryEntry"
  Row := UInt64 × Unit
  layout :=
    .cons (.required "id" .word64) <|
    .nil
  ofRow := fun (id, _) =>
    ⟨id⟩
  toRow e := (e.id, ())

/-- Attributes of an inode are set by a user. -/
structure SetAttribute where
  id : UInt64
  opTimeMs : Int64
  pinned : Option Bool
  ttl : Option Int64
  persisted : Option Bool
  owner : Option String
  group : Option String
  permission : Option UInt32
  deriving DecidableEq, Repr

/-- The record of `SetAttribute`. -/
def SetAttribute.schema : Schema SetAttribute where
  name := "SetAttributeEntry"
  Row := UInt64 × Int64 × Option Bool × Option Int64 × Option Bool ×
    Option String × Option String × Option UInt32 × Unit
  layout :=
    .cons (.required "id" .word64) <|
    .cons (.defaulted "op_time_ms" .int64 0) <|
    .cons (.defaulted "pinned" (.option .flag) none) <|
    .cons (.defaulted "ttl" (.option .int64) none) <|
    .cons (.defaulted "persisted" (.option .flag) none) <|
    .cons (.defaulted "owner" (.option .text) none) <|
    .cons (.defaulted "group" (.option .text) none) <|
    .cons (.defaulted "permission" (.option .word32) none) <|
    .nil
  ofRow := fun (id, opTimeMs, pinned, ttl, persisted, owner, group, permission, _) =>
    ⟨id, opTimeMs, pinned, ttl, persisted, owner, group, permission⟩
  toRow e := (e.id, e.opTimeMs, e.pinned, e.ttl, e.persisted, e.owner, e.group, e.permission,
    ())

/-- The generator of directory ids moves on. -/
structure InodeDirectoryIdGenerator where
  containerId : UInt64
  sequenceNumber : UInt64
  deriving DecidableEq, Repr

/-- The record of `InodeDirectoryIdGenerator`. -/
def InodeDirectoryIdGenerator.schema : Schema InodeDirectoryIdGenerator where
  name := "InodeDirectoryIdGeneratorEntry"
  Row := UInt64 × UInt64 × Unit
  layout :=
    .cons (.required "container_id" .word64) <|
    .cons (.required "sequence_number" .word64) <|
    .nil
  ofRow := fun (containerId, sequenceNumber, _) =>
    ⟨containerId, sequenceNumber⟩
  toRow e := (e.containerId, e.sequenceNumber, ())

end RaftJournal
