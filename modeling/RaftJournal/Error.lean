import RaftJournal.Uuid

/-! # Errors of a session

Whatever ends the reading or the writing of a journal is a **`JournalError`**: its constructors say
what went wrong and where, and **`JournalError.message`** words them. Two of them, a root that is no
directory and a group that the root does not have, say that the session was set up wrongly
(**`JournalError.isConfiguration`**); the others are faults of the files or of the data. Coming to
the end of a journal is no error. -/

namespace RaftJournal

/-- What ends a session. -/
inductive JournalError
  /-- The file system refused an operation. -/
  | io (path : Option String) (message : String)
  /-- The root of the journal is no directory. -/
  | invalidDirectory (path : String)
  /-- The group has no directory under the root. -/
  | groupNotFound (group : Uuid) (path : String)
  /-- A segment does not start as a segment does. -/
  | invalidSegmentHeader (path message : String)
  /-- The length of a record cannot be right. -/
  | invalidRecordHeader (path : String) (offset : Nat) (message : String)
  /-- A record's checksum does not fit its body. -/
  | corruptRecord (path : String) (index : UInt64) (expected actual : UInt32)
  /-- A record has a kind that no record has. -/
  | unknownRecordKind (path : String) (offset : Nat) (kind : UInt8)
  /-- A record's index is not among those of its segment. -/
  | indexOutOfRange (path : String) (index start : UInt64) (last : Option UInt64)
  /-- The payload of a record is no batch. -/
  | deserialization (index : UInt64) (message : String)
  /-- A value cannot be written. -/
  | serialization (message : String)
  /-- A record does not fit even an empty segment. -/
  | entryTooLarge (entryBytes : Nat) (segmentSize : UInt64)
  /-- The group to be written already has segments. -/
  | segmentsAlreadyExist (path : String)
  deriving DecidableEq, Repr

namespace JournalError

/-- A checksum as `0x` and eight hexadecimal digits. -/
def checksum (crc : UInt32) : String :=
  let digits := Nat.toDigits 16 crc.toNat
  String.ofList (['0', 'x'] ++ List.replicate (8 - digits.length) '0' ++ digits)

/-- What an error says. -/
def message : JournalError → String
  | .io none message => s!"journal I/O error: {message}"
  | .io (some path) message => s!"journal I/O error at {path}: {message}"
  | .invalidDirectory path => s!"invalid journal directory: {path}"
  | .groupNotFound group path => s!"journal group {group.render} not found (expected {path})"
  | .invalidSegmentHeader path message => s!"invalid segment header in {path}: {message}"
  | .invalidRecordHeader path offset message =>
    s!"invalid record header in {path} at offset {offset}: {message}"
  | .corruptRecord path index expected actual =>
    s!"corrupt journal record at index {index} in {path}: " ++
      s!"expected CRC {checksum expected}, got {checksum actual}"
  | .unknownRecordKind path offset kind =>
    s!"unknown record kind {kind} in {path} at offset {offset}"
  | .indexOutOfRange path index start (some last) =>
    s!"record index {index} outside segment range [{start}, {last}] in {path}"
  | .indexOutOfRange path index start none =>
    s!"record index {index} below open segment start {start} in {path}"
  | .deserialization index message => s!"journal deserialization error at index {index}: {message}"
  | .serialization message => s!"journal serialization error: {message}"
  | .entryTooLarge entryBytes segmentSize =>
    s!"journal record too large: {entryBytes} bytes exceeds segment size {segmentSize} bytes"
  | .segmentsAlreadyExist path => s!"refusing to write into {path}: segments already exist"

/-- Whether the error says that the session was set up wrongly. -/
def isConfiguration : JournalError → Bool
  | .invalidDirectory _ => true
  | .groupNotFound _ _ => true
  | _ => false

end JournalError

end RaftJournal
