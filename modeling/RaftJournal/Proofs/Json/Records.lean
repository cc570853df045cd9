import RaftJournal.Json.Record
import RaftJournal.Proofs.Json.Laws

/-! # JSON records are read back

A record is written in one way and read from many: as an object with its members in any order, without
those that have their defaults and with others that the record does not know, or as a list of its fields
that may stop where only defaults would follow. A **`Lenient`** format says which tokens are accepted for a
value, for the fields of a record as for the record itself (**`RecordTokens`**).

While the members of an object are read, the places of the fields fill up: what is still to come is what
the places still owe to the row (**`Owes`**), and every member takes it one step on
(**`readMember_of_owes`**). So a lenient record is read as its row (**`Lenient.sound_record`**), and what is
written for it is one case of that (**`Format.faithful_record`**). -/

namespace RaftJournal.Json

/-! ## lenient formats -/

/-- A format with the tokens that are accepted for a value, which need not be those that it writes. -/
structure Lenient (α : Type) where
  format : Format α
  Accepts : α → List Token → Prop

/-- What is accepted for a value stands for it, and what is written for it is accepted. -/
structure Lenient.Sound {α : Type} (l : Lenient α) : Prop where
  stand : ∀ {a : α} {tokens : List Token}, l.Accepts a tokens → Stand l.format.read a tokens
  write : ∀ a, l.Accepts a (l.format.write a)

/-- Nothing is accepted but what is written. -/
def Lenient.exact {α : Type} (format : Format α) : Lenient α :=
  ⟨format, fun a tokens => tokens = format.write a⟩

theorem Lenient.sound_exact {α : Type} {format : Format α} (h : format.Faithful) :
    (exact format).Sound := by
  refine ⟨?_, fun a => rfl⟩
  rintro a _ rfl
  exact h.stand a

/-- A list, each of its elements as it is accepted. -/
def Lenient.list {α : Type} (l : Lenient α) : Lenient (List α) :=
  ⟨l.format.list, fun elements tokens =>
    ∃ parts, List.Forall₂ l.Accepts elements parts ∧ tokens = writeParts parts⟩

theorem Lenient.Sound.list {α : Type} {l : Lenient α} (h : l.Sound) : l.list.Sound := by
  refine ⟨?_, fun elements => ⟨elements.map l.format.write, ?_, Format.writeList_eq _ _⟩⟩
  · rintro elements _ ⟨parts, accepted, rfl⟩
    exact stand_writeParts (accepted.imp fun _ _ => h.stand)
  · rw [List.forall₂_map_right_iff, List.forall₂_same]
    exact fun a _ => h.write a

/-- The same for a type with the same values. -/
def Lenient.imap {α β : Type} (forth : α → β) (back : β → α) (l : Lenient α) : Lenient β :=
  ⟨l.format.imap forth back, fun b => l.Accepts (back b)⟩

theorem Lenient.Sound.imap {α β : Type} {l : Lenient α} (h : l.Sound) {forth : α → β} {back : β → α}
    (inverse : ∀ b, forth (back b) = b) : (l.imap forth back).Sound := by
  refine ⟨fun {b tokens} accepted => ?_, fun b => h.write (back b)⟩
  have stand := h.stand accepted
  refine ⟨fun rest => ?_, stand.opens, stand.apart⟩
  show (l.format.read (tokens ++ rest)).map _ = _
  rw [stand.reads]
  show Except.ok (forth (back b), rest) = _
  rw [inverse]

/-! ## the tokens of a record -/

/-- A member by its name, with the tokens of its value. -/
abbrev Named := String × List Token

/-- The members of an object, each with its name as its key. -/
def keyed (members : List Named) : List Member := members.map fun m => ⟨.ok m.1, m.2⟩

/-- One member for each field, in the order of the fields; where a field has the value that stands for it
when it is missing, its member may be left out. -/
def Own : {ρ : Type} → Layout Lenient ρ → ρ → List Named → Prop
  | _, .nil, _, members => members = []
  | _, .cons field rest, (a, row), members =>
    (∃ tokens more, members = (field.name, tokens) :: more ∧ field.format.Accepts a tokens ∧
      Own rest row more) ∨
    (field.ifMissing = some a ∧ Own rest row members)

/-- One element for each field, in the order of the fields; the last ones may be left out if all of them
have the values that stand for them when the list is too short. -/
def Listed : {ρ : Type} → Layout Lenient ρ → ρ → List (List Token) → Prop
  | _, .nil, _, parts => parts = []
  | _, .cons field rest, (a, row), parts =>
    (∃ tokens more, parts = tokens :: more ∧ field.format.Accepts a tokens ∧ Listed rest row more) ∨
    (parts = [] ∧ field.ifCut = some a ∧ Listed rest row [])

/-- The tokens of a record with the given row. -/
inductive RecordTokens {ρ : Type} (layout : Layout Lenient ρ) (row : ρ) : List Token → Prop
  /-- An object, its members in any order, with others of any names that no field has. -/
  | object {own added members : List Named} (fields : Own layout row own)
    (unknown : ∀ m ∈ added, m.1 ∉ layout.names ∧ IsValue m.2) (order : members.Perm (own ++ added)) :
    RecordTokens layout row (writeObject (keyed members))
  /-- A list. -/
  | list {parts : List (List Token)} (fields : Listed layout row parts) :
    RecordTokens layout row (writeParts parts)

/-- Rows of a layout as lenient records. -/
def Lenient.record {ρ : Type} (name : String) (layout : Layout Lenient ρ) : Lenient ρ :=
  ⟨.record name (layout.map Lenient.format), RecordTokens layout⟩

/-! ## what is owed -/

/-- What the place of a field owes to its value: nothing once it has it, else one member with its name,
or none if the value is the one for a missing field. -/
def FieldOwes {α : Type} (field : Field Lenient α) (slot : Option α) (a : α) (own : List Named) : Prop :=
  match slot with
  | some b => b = a ∧ own = []
  | none => (∃ tokens, own = [(field.name, tokens)] ∧ field.format.Accepts a tokens) ∨
      (own = [] ∧ field.ifMissing = some a)

/-- The places and the members still to come make up the row. -/
def Owes : {ρ : Type} → (layout : Layout Lenient ρ) → (layout.map Lenient.format).Slots → ρ →
    List Named → Prop
  | _, .nil, _, _, _ => True
  | _, .cons field rest, slots, (a, row), members =>
    FieldOwes field (Layout.Slots.uncons slots).1 a (members.filter (·.1 = field.name)) ∧
      Owes rest (Layout.Slots.uncons slots).2 row members

theorem FieldOwes.perm {α : Type} {field : Field Lenient α} {slot : Option α} {a : α}
    {own other : List Named} (h : FieldOwes field slot a own) (same : own.Perm other) :
    FieldOwes field slot a other := by
  cases slot with
  | some b =>
    obtain ⟨value, rfl⟩ := h
    exact ⟨value, same.symm.eq_nil⟩
  | none =>
    rcases h with ⟨tokens, rfl, accepted⟩ | ⟨rfl, value⟩
    · exact .inl ⟨tokens, List.perm_singleton.mp same.symm, accepted⟩
    · exact .inr ⟨same.symm.eq_nil, value⟩

section Owes

variable {ρ : Type} {layout : Layout Lenient ρ} {slots : (layout.map Lenient.format).Slots} {row : ρ}
  {members own added : List Named}

/-- The order of the members does not matter. -/
theorem Owes.perm {others : List Named} (h : Owes layout slots row members)
    (same : members.Perm others) : Owes layout slots row others := by
  induction layout with
  | nil => trivial
  | cons field rest ih => exact ⟨h.1.perm (same.filter _), ih h.2⟩

/-- A member that no field has the name of is not owed. -/
theorem owes_cons_iff {m : Named} (other : m.1 ∉ layout.names) :
    Owes layout slots row (m :: members) ↔ Owes layout slots row members := by
  induction layout with
  | nil => exact Iff.rfl
  | cons field rest ih =>
    obtain ⟨first, others⟩ := not_or.mp (mt List.mem_cons.mpr other)
    have skipped : (m :: members).filter (·.1 = field.name) = members.filter (·.1 = field.name) :=
      List.filter_cons_of_neg (by rwa [decide_eq_true_eq])
    rw [Owes, Owes, skipped, ih others]

theorem mem_names_of_own (h : Own layout row own) {m : Named} (mem : m ∈ own) :
    m.1 ∈ layout.names := by
  induction layout generalizing own with
  | nil =>
    cases h
    cases mem
  | cons field rest ih =>
    rcases h with ⟨tokens, more, rfl, -, others⟩ | ⟨-, others⟩
    · rcases List.mem_cons.mp mem with rfl | mem
      · exact List.mem_cons_self
      · exact List.mem_cons_of_mem _ (ih others mem)
    · exact List.mem_cons_of_mem _ (ih others mem)

/-- Before any member has been read, the members of a row are owed. -/
theorem owes_empty (distinct : layout.names.Nodup) (h : Own layout row own)
    (unknown : ∀ m ∈ added, m.1 ∉ layout.names) :
    Owes layout (layout.map Lenient.format).empty row (own ++ added) := by
  -- on the fields: the member of the first one is passed over by the others, which have other names
  induction layout generalizing own with
  | nil => trivial
  | cons field rest ih =>
    obtain ⟨fresh, distinct⟩ := List.nodup_cons.mp distinct
    have unknown' : ∀ m ∈ added, m.1 ∉ rest.names :=
      fun m mem known => unknown m mem (List.mem_cons_of_mem _ known)
    -- no other member has the name of the field
    have alone {more : List Named} (others : Own rest row.2 more) :
        (more ++ added).filter (·.1 = field.name) = [] := by
      rw [List.filter_eq_nil_iff]
      intro m mem same
      rw [decide_eq_true_eq] at same
      rcases List.mem_append.mp mem with mem | mem
      · exact fresh (same ▸ mem_names_of_own others mem)
      · exact unknown m mem (same ▸ List.mem_cons_self)
    rcases h with ⟨tokens, more, rfl, accepted, others⟩ | ⟨value, others⟩
    · refine ⟨.inl ⟨tokens, ?_, accepted⟩, ?_⟩
      · rw [List.cons_append, List.filter_cons_of_pos (by simp), alone others]
      · rw [List.cons_append, owes_cons_iff fresh]
        exact ih distinct others unknown'
    · exact ⟨.inr ⟨alone others, value⟩, ih distinct others unknown'⟩

end Owes

/-! ## objects -/

section Members

variable {α ρ : Type}

/-- The member of a field goes to its place. -/
theorem readMember_own {field : Field Format α} {rest : Layout Format ρ} {slots : rest.Slots}
    {tokens left : List Token} {a : α} (reads : field.format.read tokens = .ok (a, left)) :
    readMember (.cons field rest) (.cons field none slots) field.name (.colon :: tokens) =
      .ok (.cons field (some a) slots, left) := by
  rw [readMember, if_pos rfl]
  show (field.format.read tokens).map _ = _
  rw [reads]
  rfl

/-- Another member goes past it. -/
theorem readMember_other {field : Field Format α} {rest : Layout Format ρ} {slots filled : rest.Slots}
    {slot : Option α} {name : String} {tokens left : List Token} (other : name ≠ field.name)
    (reads : readMember rest slots name tokens = .ok (filled, left)) :
    readMember (.cons field rest) (.cons field slot slots) name tokens =
      .ok (.cons field slot filled, left) := by
  rw [readMember, if_neg other]
  show (readMember rest slots name tokens).map _ = _
  rw [reads]
  rfl

/-- The row has what is in the place of a field, or else what stands for the field when it is missing. -/
theorem finishMembers_cons {field : Field Format α} {rest : Layout Format ρ} {slots : rest.Slots}
    {slot : Option α} {a : α} {row : ρ} (value : (slot <|> field.ifMissing) = some a)
    (others : finishMembers rest slots = .ok row) :
    finishMembers (.cons field rest) (.cons field slot slots) = .ok (a, row) := by
  have parts : (Layout.Slots.cons field slot slots).uncons = (slot, slots) := rfl
  simp only [finishMembers, parts, value, others]
  rfl

variable {layout : Layout Lenient ρ} {slots : (layout.map Lenient.format).Slots} {row : ρ}
  {members : List Named}

/-- Where no member is to come, the row is complete. -/
theorem finishMembers_of_owes (h : Owes layout slots row []) :
    finishMembers (layout.map Lenient.format) slots = .ok row := by
  induction layout with
  | nil => rfl
  | cons field rest ih =>
    obtain ⟨slot, slots⟩ := slots
    obtain ⟨a, row⟩ := row
    have first : FieldOwes field slot a [] := h.1
    refine finishMembers_cons ?_ (ih h.2)
    cases slot with
    | some b => exact congrArg some first.1
    | none =>
      rcases first with ⟨_, none, -⟩ | ⟨-, value⟩
      · cases none
      · exact value

/-- **One member is read**, and what is owed after it is what comes after it. -/
theorem readMember_of_owes (sound : layout.Every fun l => l.Sound) (distinct : layout.names.Nodup)
    {name : String} {tokens : List Token} (h : Owes layout slots row ((name, tokens) :: members))
    (unknown : name ∉ layout.names → IsValue tokens) (rest : List Token) :
    ∃ filled, readMember (layout.map Lenient.format) slots name (.colon :: (tokens ++ rest)) =
      .ok (filled, rest) ∧ Owes layout filled row members := by
  -- on the fields: the first one takes the member if it has its name, else the others do
  induction layout with
  | nil =>
    refine ⟨Layout.empty .nil, ?_, trivial⟩
    show (skipValue (tokens ++ rest)).map _ = _
    rw [skipValue_append (unknown List.not_mem_nil)]
    rfl
  | cons field others ih =>
    obtain ⟨slot, slots⟩ := slots
    obtain ⟨a, row⟩ := row
    obtain ⟨fresh, distinct⟩ := List.nodup_cons.mp distinct
    have first : FieldOwes field slot a (((name, tokens) :: members).filter (·.1 = field.name)) := h.1
    have owed : Owes others slots row ((name, tokens) :: members) := h.2
    by_cases same : name = field.name
    · subst same
      rw [List.filter_cons_of_pos (by simp)] at first
      cases slot with
      | some b => cases first.2
      | none =>
        rcases first with ⟨_, one, accepted⟩ | ⟨none, -⟩
        · obtain ⟨same, alone⟩ := List.cons.inj one
          cases same
          refine ⟨_, readMember_own ((sound.1.stand accepted).reads rest), ?_, ?_⟩
          · exact ⟨rfl, alone⟩
          · exact (owes_cons_iff fresh).mp owed
        · cases none
    · rw [List.filter_cons_of_neg (by simpa using same)] at first
      have unknown' (other : name ∉ others.names) : IsValue tokens := by
        refine unknown fun mem => ?_
        rcases List.mem_cons.mp mem with eq | mem
        · exact same eq
        · exact other mem
      obtain ⟨filled, reads, owed⟩ := ih sound.2 distinct owed unknown'
      exact ⟨_, readMember_other same reads, first, owed⟩

/-- What comes after the key of a member is read, and then the other members. -/
theorem readMembers_of_key {format : Layout Format ρ} {bound : Nat} {first : Bool}
    {slots filled : format.Slots} {tokens after left : List Token} {key : String}
    (next : nextKey first tokens = .ok (some key, after))
    (member : readMember format slots key after = .ok (filled, left)) :
    readMembers format (bound + 1) first slots tokens =
      readMembers format bound false filled left := by
  rw [readMembers, next]
  simp only
  rw [member]

/-- The members of an object make up the row, read from the second on. -/
theorem readMembers_of_owes (sound : layout.Every fun l => l.Sound) (distinct : layout.names.Nodup)
    (h : Owes layout slots row members) (unknown : ∀ m ∈ members, m.1 ∉ layout.names → IsValue m.2)
    {bound : Nat} (enough : members.length < bound) (rest : List Token) :
    readMembers (layout.map Lenient.format) bound false slots (writeFurther (keyed members) ++ rest) =
      .ok (row, rest) := by
  -- on the members: each is read to its place, and what is owed after it is what the others make up
  induction members generalizing slots bound with
  | nil =>
    cases bound with
    | zero => exact absurd enough (Nat.not_lt_zero _)
    | succ bound =>
      show (finishMembers (layout.map Lenient.format) slots).map _ = _
      rw [finishMembers_of_owes h]
      rfl
  | cons m members ih =>
    cases bound with
    | zero => exact absurd enough (Nat.not_lt_zero _)
    | succ bound =>
      obtain ⟨filled, reads, owed⟩ := readMember_of_owes sound distinct h
        (unknown m List.mem_cons_self) (writeFurther (keyed members) ++ rest)
      rw [keyed, List.map_cons, writeFurther, List.cons_append, List.cons_append, List.cons_append,
        List.append_assoc]
      refine Eq.trans (readMembers_of_key rfl reads) ?_
      exact ih owed (fun m mem => unknown m (List.mem_cons_of_mem _ mem)) (Nat.lt_of_succ_lt_succ enough)

/-- Every member but the first comes after a comma. -/
theorem length_lt_writeFurther (members : List Member) :
    members.length < (writeFurther members).length := by
  induction members with
  | nil => exact Nat.zero_lt_one
  | cons m members ih =>
    rw [writeFurther]
    simp only [List.length_cons, List.length_append]
    omega

/-- A record is read from an object. -/
theorem readRecord_writeObject (sound : layout.Every fun l => l.Sound) (distinct : layout.names.Nodup)
    (h : Owes layout (layout.map Lenient.format).empty row members)
    (unknown : ∀ m ∈ members, m.1 ∉ layout.names → IsValue m.2) (name : String) (rest : List Token) :
    readRecord name (layout.map Lenient.format) (writeObject (keyed members) ++ rest) =
      .ok (row, rest) := by
  cases members with
  | nil =>
    show (finishMembers (layout.map Lenient.format) _).map _ = _
    rw [finishMembers_of_owes h]
    rfl
  | cons m members =>
    obtain ⟨filled, reads, owed⟩ := readMember_of_owes sound distinct h
      (unknown m List.mem_cons_self) (writeFurther (keyed members) ++ rest)
    have enough : members.length < (m.2 ++ (writeFurther (keyed members) ++ rest)).length + 2 := by
      have := length_lt_writeFurther (keyed members)
      rw [keyed, List.length_map, ← keyed] at this
      simp only [List.length_append]
      omega
    rw [keyed, List.map_cons, writeObject, List.cons_append, List.cons_append, List.cons_append,
      List.append_assoc, readRecord]
    -- the first member comes without a comma, the others are read as the rest of the object
    refine Eq.trans (readMembers_of_key rfl reads) ?_
    exact readMembers_of_owes sound distinct owed
      (fun m mem => unknown m (List.mem_cons_of_mem _ mem)) enough rest

end Members

/-! ## lists -/

section Fields

variable {ρ : Type} {layout : Layout Lenient ρ} {row : ρ} {parts : List (List Token)}

/-- A field is read from the element that stands for it, and then the other fields. -/
theorem readFields_of_next {α : Type} {field : Field Format α} {rest : Layout Format ρ} {name : String}
    {fields read : Nat} {tokens after left ends : List Token} {a : α} {row : ρ}
    (next : nextElement (read = 0) tokens = .ok (true, after))
    (reads : field.format.read after = .ok (a, left))
    (others : readFields name fields rest (read + 1) left = .ok (row, ends)) :
    readFields name fields (.cons field rest) read tokens = .ok ((a, row), ends) := by
  rw [readFields, next]
  simp only
  rw [reads]
  simp only
  rw [others]
  rfl

/-- Where the list has ended, what is left of the row stands for the missing fields. -/
theorem readFields_of_ended (h : Listed layout row []) (name : String) (fields read : Nat)
    (rest : List Token) :
    readFields name fields (layout.map Lenient.format) read (.rightBracket :: rest) =
      .ok (row, .rightBracket :: rest) := by
  induction layout generalizing read with
  | nil => rfl
  | cons field others ih =>
    rcases h with ⟨_, _, none, -⟩ | ⟨-, value, more⟩
    · cases none
    · show readFields name fields (.cons ⟨_, _, _, field.ifCut⟩ _) read _ = _
      rw [readFields, nextElement]
      simp only
      rw [value]
      simp only
      rw [ih more]
      rfl

/-- The fields of a record are read from the elements of a list, from the second on. -/
theorem readFields_writeMore (sound : layout.Every fun l => l.Sound) (h : Listed layout row parts)
    (name : String) (fields read : Nat) (rest : List Token) :
    readFields name fields (layout.map Lenient.format) (read + 1)
        (Format.writeMore id parts ++ rest) = .ok (row, .rightBracket :: rest) := by
  -- on the fields: the next element is for the first one, unless the list has been cut before it
  induction layout generalizing parts read with
  | nil =>
    obtain rfl : parts = [] := h
    rfl
  | cons field others ih =>
    rcases h with ⟨tokens, more, rfl, accepted, listed⟩ | ⟨rfl, value, more⟩
    · have stand := sound.1.stand accepted
      obtain ⟨token, further, eq, opens⟩ := stand.opens
      have reads := stand.reads (Format.writeMore id more ++ rest)
      rw [Format.writeMore, id, List.cons_append, List.append_assoc]
      refine readFields_of_next ?_ reads (ih sound.2 listed (read + 1))
      rw [eq]
      exact nextElement_comma opens _
    · have ended : Listed (.cons field others) row [] := Or.inr ⟨rfl, value, more⟩
      exact readFields_of_ended ended name fields (read + 1) rest

/-- A record is read from a list. -/
theorem readRecord_writeParts (sound : layout.Every fun l => l.Sound) (h : Listed layout row parts)
    (name : String) (rest : List Token) :
    readRecord name (layout.map Lenient.format) (writeParts parts ++ rest) = .ok (row, rest) := by
  have fields : ∃ tail, writeParts parts ++ rest = .leftBracket :: tail ∧
      readFields name (layout.map Lenient.format).size (layout.map Lenient.format) 0 tail =
        .ok (row, .rightBracket :: rest) := by
    cases parts with
    | nil => exact ⟨_, rfl, readFields_of_ended h name _ 0 rest⟩
    | cons part more =>
      cases layout with
      | nil => cases h
      | cons field others =>
        rcases h with ⟨tokens, _, eq, accepted, listed⟩ | ⟨none, -⟩
        · obtain ⟨rfl, rfl⟩ := List.cons.inj eq
          have stand := sound.1.stand accepted
          obtain ⟨token, further, eq, opens⟩ := stand.opens
          have reads := stand.reads (Format.writeMore id more ++ rest)
          refine ⟨part ++ (Format.writeMore id more ++ rest), ?_, ?_⟩
          · rw [← List.append_assoc]
            rfl
          · refine readFields_of_next ?_ reads (readFields_writeMore sound.2 listed name _ 0 rest)
            rw [eq]
            exact nextElement_first opens _
        · cases none
  obtain ⟨tail, eq, reads⟩ := fields
  rw [eq, readRecord, reads]
  rfl

end Fields

/-! ## the format -/

section Record

variable {ρ : Type} {layout : Layout Lenient ρ} {row : ρ}

theorem apart_of_own (sound : layout.Every fun l => l.Sound) {own : List Named}
    (h : Own layout row own) {m : Named} (mem : m ∈ own) : Token.Apart m.2 := by
  induction layout generalizing own with
  | nil =>
    obtain rfl : own = [] := h
    cases mem
  | cons field rest ih =>
    rcases h with ⟨tokens, more, rfl, accepted, others⟩ | ⟨-, others⟩
    · rcases List.mem_cons.mp mem with rfl | mem
      · exact (sound.1.stand accepted).apart
      · exact ih sound.2 others mem
    · exact ih sound.2 others mem

theorem apart_of_listed (sound : layout.Every fun l => l.Sound) {parts : List (List Token)}
    (h : Listed layout row parts) {part : List Token} (mem : part ∈ parts) : Token.Apart part := by
  induction layout generalizing parts with
  | nil =>
    obtain rfl : parts = [] := h
    cases mem
  | cons field rest ih =>
    rcases h with ⟨tokens, more, rfl, accepted, others⟩ | ⟨rfl, -, -⟩
    · rcases List.mem_cons.mp mem with rfl | mem
      · exact (sound.1.stand accepted).apart
      · exact ih sound.2 others mem
    · cases mem

/-- What is accepted for a row is read as it. -/
theorem stand_of_recordTokens (sound : layout.Every fun l => l.Sound) (distinct : layout.names.Nodup)
    (name : String) {tokens : List Token} (h : RecordTokens layout row tokens) :
    Stand (readRecord name (layout.map Lenient.format)) row tokens := by
  cases h with
  | @object own added members fields unknown order =>
    -- the order of the members matters to nothing that is asked of them
    have owed := (owes_empty distinct fields fun m mem => (unknown m mem).1).perm order.symm
    have values : ∀ m ∈ members, m.1 ∉ layout.names → IsValue m.2 := by
      intro m mem other
      rcases List.mem_append.mp (order.mem_iff.mp mem) with mem | mem
      · exact absurd (mem_names_of_own fields mem) other
      · exact (unknown m mem).2
    have apart : ∀ m ∈ keyed members, Token.Apart m.value := by
      intro _ keyed
      obtain ⟨m, mem, rfl⟩ := List.mem_map.mp keyed
      rcases List.mem_append.mp (order.mem_iff.mp mem) with mem | mem
      · exact apart_of_own sound fields mem
      · exact (unknown m mem).2.apart
    exact ⟨readRecord_writeObject sound distinct owed values name, opens_writeObject _,
      apart_writeObject apart⟩
  | @list parts fields =>
    exact ⟨readRecord_writeParts sound fields name, opens_writeParts parts,
      apart_writeParts fun part mem => apart_of_listed sound fields mem⟩

/-- The members that a record is written with. -/
def members : {ρ : Type} → Layout Format ρ → ρ → List Named
  | _, .nil, () => []
  | _, .cons field rest, (a, row) => (field.name, field.format.write a) :: members rest row

theorem writeMembers_eq (layout : Layout Format ρ) (row : ρ) :
    writeMembers layout row = writeFurther (keyed (members layout row)) := by
  induction layout with
  | nil => rfl
  | cons field rest ih =>
    rw [writeMembers, ih, members, keyed, keyed, List.map_cons, writeFurther]

theorem writeRecord_eq (layout : Layout Format ρ) (row : ρ) :
    writeRecord layout row = writeObject (keyed (members layout row)) := by
  cases layout with
  | nil => rfl
  | cons field rest =>
    rw [writeRecord, writeMembers_eq, members, keyed, keyed, List.map_cons, writeObject]

theorem own_members (sound : layout.Every fun l => l.Sound) (row : ρ) :
    Own layout row (members (layout.map Lenient.format) row) := by
  induction layout with
  | nil => rfl
  | cons field rest ih => exact .inl ⟨_, _, rfl, sound.1.write row.1, ih sound.2 row.2⟩

/-- **A lenient record is read as its row**, if its fields are and no two of them have one name. -/
theorem Lenient.sound_record (name : String) (sound : layout.Every fun l => l.Sound)
    (distinct : layout.names.Nodup) : (Lenient.record name layout).Sound where
  stand := stand_of_recordTokens sound distinct name
  write row := by
    show RecordTokens layout row (writeRecord (layout.map Lenient.format) row)
    rw [writeRecord_eq]
    have alone : (members (layout.map Lenient.format) row).Perm
        (members (layout.map Lenient.format) row ++ []) := by
      rw [List.append_nil]
    exact .object (own_members sound row) (List.forall_mem_nil _) alone

theorem clean_writeMembers {layout : Layout Format ρ} (h : layout.Every fun format => format.Faithful)
    (row : ρ) : Token.Clean (writeMembers layout row) := by
  induction layout with
  | nil => exact .singleton trivial
  | cons field rest ih =>
    refine .cons trivial rfl (.cons trivial rfl (.cons trivial rfl ?_))
    refine .append (h.1.clean row.1) (ih h.2 row.2) fun next mem => ?_
    cases rest <;> (obtain rfl := Option.some.inj mem; rfl)

theorem map_exact (layout : Layout Format ρ) :
    (layout.map Lenient.exact).map Lenient.format = layout := by
  induction layout with
  | nil => rfl
  | cons field rest ih =>
    rw [Layout.map, Layout.map, ih]
    rfl

/-- A record is read back if each of its fields is and no two fields have one name. -/
theorem Format.faithful_record (name : String) {layout : Layout Format ρ}
    (h : layout.Every fun format => format.Faithful) (distinct : layout.names.Nodup) :
    (record name layout).Faithful := by
  have sound : (Lenient.record name (layout.map Lenient.exact)).Sound :=
    Lenient.sound_record name (Layout.every_map (h.imp Lenient.sound_exact))
      (by rwa [Layout.names_map])
  have stand (row : ρ) : Stand (record name layout).read row ((record name layout).write row) := by
    have stand := sound.stand (sound.write row)
    rwa [Lenient.record, map_exact] at stand
  refine ⟨fun row => (stand row).reads, fun row => (stand row).opens, fun row => ?_⟩
  cases layout with
  | nil => exact .cons trivial rfl (.singleton trivial)
  | cons field rest =>
    refine .cons trivial rfl (.cons trivial rfl (.cons trivial rfl ?_))
    refine .append (h.1.clean row.1) (clean_writeMembers h.2 row.2) fun next mem => ?_
    cases rest <;> (obtain rfl := Option.some.inj mem; rfl)

end Record

end RaftJournal.Json
