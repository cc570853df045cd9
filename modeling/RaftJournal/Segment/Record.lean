import RaftJournal.Bytes.Crc32

/-! # Records and their frames

A segment is a header of eight bytes and then records. **`LogRecord.frame`** writes a record: the
length of what follows it, the body (index, term, kind and payload) and the checksum of the body, all
words low byte first. -/

namespace RaftJournal

/-- What a record is for. -/
inductive RecordKind
  /-- A batch of entries for the state machine. -/
  | stateMachineData
  /-- The members of the group. -/
  | configuration
  /-- The bookkeeping of the group. -/
  | metadata
  deriving DecidableEq, Repr

namespace RecordKind

/-- The byte of a kind. -/
def byte : RecordKind → UInt8
  | .stateMachineData => 1
  | .configuration => 2
  | .metadata => 3

/-- The kind with the given byte. -/
def ofByte? : UInt8 → Option RecordKind
  | 1 => some .stateMachineData
  | 2 => some .configuration
  | 3 => some .metadata
  | _ => none

/-- The name of a kind. -/
def name : RecordKind → String
  | .stateMachineData => "state-machine-data"
  | .configuration => "configuration"
  | .metadata => "metadata"

@[simp] theorem ofByte?_byte (kind : RecordKind) : ofByte? kind.byte = some kind := by
  cases kind <;> rfl

theorem ofByte?_eq_some_iff {b : UInt8} {kind : RecordKind} :
    ofByte? b = some kind ↔ b = kind.byte := by
  constructor
  · intro h
    unfold ofByte? at h
    split at h <;> simp_all [byte] <;> subst h <;> rfl
  · rintro rfl
    exact ofByte?_byte kind

end RecordKind

/-- A record of the journal. -/
structure LogRecord where
  index : UInt64
  term : UInt64
  kind : RecordKind
  payload : Bytes
  deriving DecidableEq, Repr

namespace LogRecord

/-- The bytes that every segment starts with. -/
def segmentHeader : Bytes := [0x52, 0x61, 0x66, 0x74, 0x4C, 0x6F, 0x67, 0x31]

/-- The number of bytes of a segment's header. -/
def segmentHeaderSize : Nat := segmentHeader.length

/-- The number of bytes of a record before its payload. -/
def headerSize : Nat := 4 + 8 + 8 + 1

/-- The number of bytes of a checksum. -/
def checksumSize : Nat := 4

/-- The number of bytes of a record besides its payload. -/
def overhead : Nat := headerSize + checksumSize

/-- The smallest length that a record announces: all but the length itself, without a payload. -/
def minimalLength : Nat := overhead - 4

@[simp] theorem segmentHeaderSize_eq : segmentHeaderSize = 8 := rfl

@[simp] theorem checksumSize_eq : checksumSize = 4 := rfl

@[simp] theorem overhead_eq : overhead = 25 := rfl

@[simp] theorem minimalLength_eq : minimalLength = 21 := rfl

/-- The bytes that the checksum covers. -/
def body (r : LogRecord) : Bytes :=
  Bytes.ofWord64 r.index ++ (Bytes.ofWord64 r.term ++ (r.kind.byte :: r.payload))

/-- The length that a record announces. -/
def length (r : LogRecord) : Nat := r.payload.length + minimalLength

/-- A record as it stands in a segment. -/
def frame (r : LogRecord) : Bytes :=
  Bytes.ofNat 4 r.length ++ (r.body ++ Bytes.ofWord32 (crc32 r.body))

/-- Whether the length of a record fits its 32 bits. -/
def Framable (r : LogRecord) : Prop := r.length < UInt32.size

instance (r : LogRecord) : Decidable r.Framable := inferInstanceAs (Decidable (_ < _))

@[simp] theorem length_body (r : LogRecord) : r.body.length = r.payload.length + 17 := by
  simp [body, Bytes.ofWord64]
  omega

@[simp] theorem length_frame (r : LogRecord) : r.frame.length = r.payload.length + overhead := by
  simp [frame, Bytes.ofWord32]
  omega

end LogRecord

end RaftJournal
