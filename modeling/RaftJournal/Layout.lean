/-! # Layouts of records

A record is described once, by its **`Layout`**: its fields in order, each with a name, a format and
what stands for it when it is absent. The same layout says how the record is written and read in
each format. The values of a layout's fields form a row of nested pairs, so that whatever holds for
every layout is shown by induction on its fields. -/

namespace RaftJournal

/-- A field of a record, whose values are in the format `F α`. -/
structure Field (F : Type → Type) (α : Type) where
  /-- The name of the field. -/
  name : String
  /-- How its values are written. -/
  format : F α
  /-- What stands for it in a record written with names, when the name is missing. -/
  ifMissing : Option α
  /-- What stands for it in a record written as a list, when the list is too short. -/
  ifCut : Option α

namespace Field

variable {F : Type → Type} {α : Type}

/-- A field that must be present. -/
def required (name : String) (format : F α) : Field F α := ⟨name, format, none, none⟩

/-- A field with a default for when it is absent. -/
def defaulted (name : String) (format : F α) (value : α) : Field F α :=
  ⟨name, format, some value, some value⟩

/-- A field with a default that a record written as a list must hold. -/
def nameable (name : String) (format : F α) (value : α) : Field F α :=
  ⟨name, format, some value, none⟩

end Field

/-- The fields of a record, over the type of its rows. -/
inductive Layout (F : Type → Type) : Type → Type 1
  /-- No more fields. -/
  | nil : Layout F Unit
  /-- A field before the others. -/
  | cons {α ρ : Type} (field : Field F α) (rest : Layout F ρ) : Layout F (α × ρ)

namespace Layout

variable {F G : Type → Type}

/-- The number of fields. -/
def size : {ρ : Type} → Layout F ρ → Nat
  | _, .nil => 0
  | _, .cons _ rest => rest.size + 1

/-- The names of the fields. -/
def names : {ρ : Type} → Layout F ρ → List String
  | _, .nil => []
  | _, .cons field rest => field.name :: rest.names

/-- The same fields in another format. -/
def map (f : {α : Type} → F α → G α) : {ρ : Type} → Layout F ρ → Layout G ρ
  | _, .nil => .nil
  | _, .cons field rest =>
    .cons ⟨field.name, f field.format, field.ifMissing, field.ifCut⟩ (rest.map f)

/-- What holds of the format of every field. -/
def Every (P : {α : Type} → F α → Prop) : {ρ : Type} → Layout F ρ → Prop
  | _, .nil => True
  | _, .cons field rest => P field.format ∧ rest.Every P

theorem Every.imp {P Q : {α : Type} → F α → Prop} {ρ : Type} {layout : Layout F ρ}
    (h : ∀ {α : Type} {format : F α}, P format → Q format) (all : layout.Every P) :
    layout.Every Q := by
  induction layout with
  | nil => trivial
  | cons field rest ih => exact ⟨h all.1, ih all.2⟩

theorem every_map {f : {α : Type} → F α → G α} {P : {α : Type} → G α → Prop} {ρ : Type}
    {layout : Layout F ρ} (h : layout.Every fun format => P (f format)) :
    (layout.map f).Every P := by
  induction layout with
  | nil => trivial
  | cons field rest ih => exact ⟨h.1, ih h.2⟩

@[simp] theorem names_map {f : {α : Type} → F α → G α} {ρ : Type} (layout : Layout F ρ) :
    (layout.map f).names = layout.names := by
  induction layout with
  | nil => rfl
  | cons field rest ih => rw [map, names, names, ih]

/-- The values found so far, one place for each field. -/
def Slots : {ρ : Type} → Layout F ρ → Type
  | _, .nil => Unit
  | _, .cons (α := α) _ rest => Option α × rest.Slots

/-- The place of the first field and the places of the others. -/
def Slots.uncons {α ρ : Type} {field : Field F α} {rest : Layout F ρ}
    (slots : (Layout.cons field rest).Slots) : Option α × rest.Slots := slots

/-- A place for the first field before the places of the others. -/
def Slots.cons {α ρ : Type} {rest : Layout F ρ} (field : Field F α) (slot : Option α)
    (slots : rest.Slots) : (Layout.cons field rest).Slots := (slot, slots)

/-- No values yet. -/
def empty : {ρ : Type} → (layout : Layout F ρ) → layout.Slots
  | _, .nil => ()
  | _, .cons field rest => .cons field none rest.empty

end Layout

end RaftJournal
