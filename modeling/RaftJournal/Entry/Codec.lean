import RaftJournal.Entry.Basic

/-! # How batches are stored

A journal keeps all of its batches in one **`Codec`**: readable JSON, or packed bytes. A payload that
the codec of the journal does not read is refused with a **`Codec.Fault`**. -/

namespace RaftJournal

/-- How the batches of a journal are stored. -/
inductive Codec
  /-- As JSON texts. -/
  | json
  /-- As packed bytes. -/
  | packed
  deriving DecidableEq, Repr

namespace Codec

/-- Why a payload is no batch. -/
inductive Fault
  | json (fault : Json.Fault)
  | packed (fault : Packed.Fault)
  deriving DecidableEq, Repr

/-- What an error says about the payload. -/
def Fault.message : Fault → String
  | .json fault => fault.message
  | .packed fault => fault.message

/-- The content type of the payloads. -/
def contentType : Codec → String
  | .json => "application/json"
  | .packed => "application/x-bincode"

/-- The payload of a batch. -/
def encode : Codec → Batch → Bytes
  | .json, batch => Utf8.ofString (Batch.schema.wire.json.print batch)
  | .packed, batch => Batch.schema.wire.packed.write batch

/-- The batch of a payload. -/
def decode : Codec → Bytes → Except Fault Batch
  | .json, payload => (Batch.schema.wire.json.parse payload).mapError .json
  | .packed, payload => (Batch.schema.wire.packed.parse payload).mapError .packed

end Codec

end RaftJournal
