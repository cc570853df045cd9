import RaftJournal.Json.Record
import RaftJournal.Packed.Format

/-! # Values in both formats

Entries are stored in JSON or packed. A **`Wire`** says how the values of a type stand in each of
the two, so that a record's layout is written down once and serves both. -/

namespace RaftJournal

/-- How the values of a type stand in JSON texts and in packed bytes. -/
structure Wire (α : Type) where
  /-- The format in JSON texts. -/
  json : Json.Format α
  /-- The format in packed bytes. -/
  packed : Packed.Format α

namespace Wire

/-- Unsigned words of 64 bits. -/
def word64 : Wire UInt64 := ⟨Json.Format.word64, Packed.Format.word64⟩

/-- Unsigned words of 32 bits. -/
def word32 : Wire UInt32 := ⟨Json.Format.word32, Packed.Format.word32⟩

/-- Signed words of 64 bits. -/
def int64 : Wire Int64 := ⟨Json.Format.int64, Packed.Format.int64⟩

/-- Flags. -/
def flag : Wire Bool := ⟨Json.Format.flag, Packed.Format.flag⟩

/-- Texts. -/
def text : Wire String := ⟨Json.Format.text, Packed.Format.text⟩

/-- Optional values. -/
def option {α : Type} (wire : Wire α) : Wire (Option α) :=
  ⟨Json.Format.option wire.json, Packed.Format.option wire.packed⟩

/-- Lists. -/
def list {α : Type} (wire : Wire α) : Wire (List α) :=
  ⟨Json.Format.list wire.json, Packed.Format.list wire.packed⟩

/-- Choices by name in JSON texts and by index in packed bytes. -/
def choice {α : Type} [DecidableEq α] (names : Json.Names α) : Wire α :=
  ⟨Json.Format.choice names, Packed.Format.choice names.members⟩

/-- Rows of a layout as records of the given name. -/
def record {ρ : Type} (name : String) (layout : Layout Wire ρ) : Wire ρ :=
  ⟨Json.Format.record name (layout.map Wire.json),
    Packed.Format.record (layout.map Wire.packed)⟩

/-- The same formats for a type with the same values. -/
def imap {α β : Type} (forth : α → β) (back : β → α) (wire : Wire α) : Wire β :=
  ⟨wire.json.imap forth back, wire.packed.imap forth back⟩

end Wire

/-- A structure as a named record: its layout, and its values as rows and back. -/
structure Schema (α : Type) where
  /-- The name that errors give to the record. -/
  name : String
  /-- The type of the rows. -/
  Row : Type
  /-- The fields. -/
  layout : Layout Wire Row
  /-- The value with the given row. -/
  ofRow : Row → α
  /-- The row of a value. -/
  toRow : α → Row
  /-- A value is the value of its row. -/
  ofRow_toRow : ∀ a, ofRow (toRow a) = a := by intro; rfl

/-- How the values of a structure stand in both formats. -/
def Schema.wire {α : Type} (schema : Schema α) : Wire α :=
  (Wire.record schema.name schema.layout).imap schema.ofRow schema.toRow

end RaftJournal
