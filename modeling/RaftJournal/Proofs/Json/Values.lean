import RaftJournal.Json.Format
import RaftJournal.Json.Skip
import RaftJournal.Proofs.Json.Tokens

/-! # JSON values of any kind

The grammar of JSON values over tokens: **`IsValue`** has a constructor for each kind of value, and an
object may have any members (**`Member`**), of one name or of several, whose strings need not stand for
characters. Every value is skipped as a whole, whatever follows it and however deep it is
(**`skipValue_append`**). -/

namespace RaftJournal.Json

/-- A member of an object: its key, and the tokens of its value. -/
structure Member where
  key : Except Fault String
  value : List Token

/-- The tokens of the members from the second on, up to the closing brace. -/
def writeFurther : List Member → List Token
  | [] => [.rightBrace]
  | m :: more => .comma :: .text m.key :: .colon :: (m.value ++ writeFurther more)

/-- The tokens of an object with the given members. -/
def writeObject : List Member → List Token
  | [] => [.leftBrace, .rightBrace]
  | m :: more => .leftBrace :: .text m.key :: .colon :: (m.value ++ writeFurther more)

/-- The tokens of a list whose elements have the given tokens. -/
abbrev writeParts (parts : List (List Token)) : List Token := Format.writeList id parts

/-- The tokens of one value. -/
inductive IsValue : List Token → Prop
  | null : IsValue [.null]
  | boolean (b : Bool) : IsValue [.boolean b]
  | number (n : Numeral) : IsValue [.number n]
  | text (content : Except Fault String) : IsValue [.text content]
  | list {parts : List (List Token)} (h : ∀ part ∈ parts, IsValue part) : IsValue (writeParts parts)
  | object {members : List Member} (h : ∀ m ∈ members, IsValue m.value) :
    IsValue (writeObject members)

/-- A value has a first token, which does not close a list. -/
def Opens (tokens : List Token) : Prop :=
  ∃ token more, tokens = token :: more ∧ token ≠ .rightBracket

/-- A list starts with its bracket. -/
theorem opens_writeParts (parts : List (List Token)) : Opens (writeParts parts) := by
  cases parts with
  | nil => exact ⟨_, _, rfl, by rintro ⟨⟩⟩
  | cons part more => exact ⟨_, _, rfl, by rintro ⟨⟩⟩

/-- An object starts with its brace. -/
theorem opens_writeObject (members : List Member) : Opens (writeObject members) := by
  cases members with
  | nil => exact ⟨_, _, rfl, by rintro ⟨⟩⟩
  | cons m more => exact ⟨_, _, rfl, by rintro ⟨⟩⟩

/-- Every value has a first token, and it does not close a list. -/
theorem IsValue.opens {tokens : List Token} (h : IsValue tokens) : Opens tokens := by
  cases h with
  | list => exact opens_writeParts _
  | object => exact opens_writeObject _
  | _ => exact ⟨_, _, rfl, by rintro ⟨⟩⟩

/-! ## numbers in values -/

section Apart

open Token

/-- Behind an element comes a comma or the closing bracket. -/
theorem head_writeMore (parts : List (List Token)) :
    ∀ next ∈ (Format.writeMore id parts).head?, next.isNumber = false := by
  intro next mem
  cases parts <;> (obtain rfl := Option.some.inj mem; rfl)

/-- Behind a member comes a comma or the closing brace. -/
theorem head_writeFurther (members : List Member) :
    ∀ next ∈ (writeFurther members).head?, next.isNumber = false := by
  intro next mem
  cases members <;> (obtain rfl := Option.some.inj mem; rfl)

theorem apart_writeMore {parts : List (List Token)} (h : ∀ part ∈ parts, Apart part) :
    Apart (Format.writeMore id parts) := by
  induction parts with
  | nil => exact .singleton _
  | cons part more ih =>
    exact .cons rfl ((h part List.mem_cons_self).append
      (ih fun part mem => h part (List.mem_cons_of_mem _ mem)) (head_writeMore more))

/-- No two numbers touch in a list if none do in its elements. -/
theorem apart_writeParts {parts : List (List Token)} (h : ∀ part ∈ parts, Apart part) :
    Apart (writeParts parts) := by
  cases parts with
  | nil => exact .cons rfl (.singleton _)
  | cons part more =>
    exact .cons rfl ((h part List.mem_cons_self).append
      (apart_writeMore fun part mem => h part (List.mem_cons_of_mem _ mem)) (head_writeMore more))

theorem apart_writeFurther {members : List Member} (h : ∀ m ∈ members, Apart m.value) :
    Apart (writeFurther members) := by
  induction members with
  | nil => exact .singleton _
  | cons m more ih =>
    exact .cons rfl (.cons rfl (.cons rfl ((h m List.mem_cons_self).append
      (ih fun m mem => h m (List.mem_cons_of_mem _ mem)) (head_writeFurther more))))

/-- No two numbers touch in an object if none do in its values. -/
theorem apart_writeObject {members : List Member} (h : ∀ m ∈ members, Apart m.value) :
    Apart (writeObject members) := by
  cases members with
  | nil => exact .cons rfl (.singleton _)
  | cons m more =>
    exact .cons rfl (.cons rfl (.cons rfl ((h m List.mem_cons_self).append
      (apart_writeFurther fun m mem => h m (List.mem_cons_of_mem _ mem)) (head_writeFurther more))))

/-- Between two numbers of a value there is a comma at least. -/
theorem IsValue.apart {tokens : List Token} (h : IsValue tokens) : Apart tokens := by
  induction h with
  | list _ ih => exact apart_writeParts ih
  | object _ ih => exact apart_writeObject ih
  | _ => exact .singleton _

end Apart

/-! ## skipping -/

namespace Skip

/-- What is left when the value at the front has been walked over: the walk goes on behind it if there is
a bracket around it. -/
def resume (stack : List Frame) (rest : List Token) : Except Fault (List Token) :=
  if stack.isEmpty then .ok rest else walk .next stack rest

/-- One token completes the value. -/
theorem walk_of_closed {state : State} {stack outer : List Frame} {token : Token}
    (closes : step state stack token = .ok (step.closed outer)) (rest : List Token) :
    walk state stack (token :: rest) = resume outer rest := by
  rw [walk, closes, step.closed, resume]
  cases outer <;> rfl

/-- Where an element may come, it is walked over as a value. -/
theorem walk_first {tokens : List Token} (h : Opens tokens) (stack : List Frame) (rest : List Token) :
    walk .first (.list :: stack) (tokens ++ rest) = walk .value (.list :: stack) (tokens ++ rest) := by
  obtain ⟨token, more, rfl, other⟩ := h
  rw [List.cons_append, walk, walk]
  cases token with
  | rightBracket => exact absurd rfl other
  | _ => rfl

variable {stack : List Frame} {rest : List Token}

/-- The value at the front is walked over. -/
def Passes (tokens : List Token) : Prop :=
  ∀ stack rest, walk .value stack (tokens ++ rest) = resume stack rest

/-- The elements from the second on are walked over, up to the bracket that closes the list. -/
theorem walk_writeMore {parts : List (List Token)} (h : ∀ part ∈ parts, Passes part) :
    walk .next (.list :: stack) (Format.writeMore id parts ++ rest) = resume stack rest := by
  -- inside of the bracket the walk goes on behind every element; the last bracket is taken off the stack
  induction parts with
  | nil => exact walk_of_closed rfl rest
  | cons part more ih =>
    rw [Format.writeMore, List.cons_append, List.append_assoc]
    show walk .value (.list :: stack) (part ++ (Format.writeMore id more ++ rest)) = _
    rw [h part List.mem_cons_self]
    exact ih fun part mem => h part (List.mem_cons_of_mem _ mem)

/-- The members from the second on are walked over, up to the brace that closes the object. -/
theorem walk_writeFurther {members : List Member} (h : ∀ m ∈ members, Passes m.value) :
    walk .next (.object :: stack) (writeFurther members ++ rest) = resume stack rest := by
  induction members with
  | nil => exact walk_of_closed rfl rest
  | cons m more ih =>
    rw [writeFurther, List.cons_append, List.cons_append, List.cons_append, List.append_assoc]
    show walk .value (.object :: stack) (m.value ++ (writeFurther more ++ rest)) = _
    rw [h m List.mem_cons_self]
    exact ih fun m mem => h m (List.mem_cons_of_mem _ mem)

/-- Every value is walked over, inside any brackets. -/
theorem passes_of_isValue {tokens : List Token} (h : IsValue tokens) : Passes tokens := by
  -- on the value; the elements of a list and the members of an object come one after the other
  induction h with
  | @list parts values ih =>
    intro stack rest
    cases parts with
    | nil => exact walk_of_closed rfl rest
    | cons part more =>
      have first := values part List.mem_cons_self
      show walk .value stack (.leftBracket :: (part ++ Format.writeMore id more ++ rest)) = _
      rw [List.append_assoc]
      show walk .first (.list :: stack) (part ++ (Format.writeMore id more ++ rest)) = _
      rw [walk_first first.opens, ih part List.mem_cons_self]
      exact walk_writeMore fun part mem => ih part (List.mem_cons_of_mem _ mem)
  | @object members values ih =>
    intro stack rest
    cases members with
    | nil => exact walk_of_closed rfl rest
    | cons m more =>
      show walk .value stack
        (.leftBrace :: .text m.key :: .colon :: (m.value ++ writeFurther more ++ rest)) = _
      rw [List.append_assoc]
      show walk .value (.object :: stack) (m.value ++ (writeFurther more ++ rest)) = _
      rw [ih m List.mem_cons_self]
      exact walk_writeFurther fun m mem => ih m (List.mem_cons_of_mem _ mem)
  | _ => exact fun stack rest => walk_of_closed rfl rest

end Skip

/-- **A value is skipped**, and nothing that follows it. -/
theorem skipValue_append {tokens : List Token} (h : IsValue tokens) (rest : List Token) :
    skipValue (tokens ++ rest) = .ok rest :=
  Skip.passes_of_isValue h [] rest

end RaftJournal.Json
