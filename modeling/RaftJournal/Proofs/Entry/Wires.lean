import RaftJournal.Entry.Codec
import RaftJournal.Proofs.Json.Records
import RaftJournal.Proofs.Packed.Laws

/-! # Batches are read back

Every layout of the journal is built from the same few formats, so that its values are read back in
both formats follows from one lemma for each way to build a format (**`Wire.Faithful`**, and
**`Wire.Plain`** for what may be optional or stand in a list). The payloads follow kind by kind, and
from them the entries and the batches: **`Codec.decode_encode`**. -/

namespace RaftJournal

namespace Wire

/-- Values are read back in both formats. -/
structure Faithful {α : Type} (wire : Wire α) : Prop where
  json : wire.json.Faithful
  packed : wire.packed.Faithful

/-- Values are read back in both formats, are not written like an absent one, and have bytes. -/
structure Plain {α : Type} (wire : Wire α) : Prop extends wire.Faithful where
  present : wire.json.Present
  filled : wire.packed.Filled

variable {α : Type} {wire : Wire α}

/-! ## plain values -/

/-- Words of 64 bits are plain. -/
theorem plain_word64 : word64.Plain where
  json := Json.Format.faithful_word64
  packed := Packed.Format.faithful_word64
  present := by rintro _ ⟨⟩
  filled w := Packed.Varint.write_ne_nil w.toNat

/-- Words of 32 bits are plain. -/
theorem plain_word32 : word32.Plain where
  json := Json.Format.faithful_word32
  packed := Packed.Format.faithful_word32
  present := by rintro _ ⟨⟩
  filled w := Packed.Varint.write_ne_nil w.toNat

/-- Signed integers are plain; packed, they are zigzag numbers. -/
theorem plain_int64 : int64.Plain where
  json := Json.Format.faithful_int64
  packed := Packed.Format.faithful_int64
  present := by rintro _ ⟨⟩
  filled i := Packed.Varint.write_ne_nil (Packed.Varint.zigzag i.toInt)

/-- Flags are plain. -/
theorem plain_flag : flag.Plain where
  json := Json.Format.faithful_flag
  packed := Packed.Format.faithful_flag
  present := by rintro _ ⟨⟩
  filled _ := List.cons_ne_nil _ _

/-- Texts are plain; packed, their length comes first, so that the empty text has a byte too. -/
theorem plain_text : text.Plain where
  json := Json.Format.faithful_text
  packed := Packed.Format.faithful_text
  present := by rintro _ ⟨⟩
  filled s := List.append_ne_nil_of_left_ne_nil
    (Packed.Varint.write_ne_nil (Utf8.ofString s).length) _

/-- A choice among names is plain if every value is found under its own name and the index of each
fits in 32 bits. -/
theorem plain_choice [DecidableEq α] {names : Json.Names α}
    (named : ∀ a, names.find? (names.name a) = some a) (few : names.members.length ≤ UInt32.size) :
    (choice names).Plain where
  json := Json.Format.faithful_choice named
  packed := Packed.Format.faithful_choice (fun a => List.mem_of_find?_eq_some (named a)) few
  present := by rintro _ ⟨⟩
  filled a := Packed.Varint.write_ne_nil (names.members.idxOf a)

attribute [simp] plain_word64 plain_word32 plain_int64 plain_flag plain_text

/-! ## values made of others -/

/-- Plain values are read back. -/
@[simp] theorem Plain.faithful (h : wire.Plain) : wire.Faithful := h.toFaithful

/-- A plain value that may be absent is read back: it is not written like an absent one. -/
@[simp] theorem Plain.option (h : wire.Plain) : wire.option.Faithful where
  json := h.json.option h.present
  packed := h.packed.option

/-- A list of plain values is read back: packed, there are no more elements than bytes, since each has
some. -/
@[simp] theorem Plain.list (h : wire.Plain) : wire.list.Faithful where
  json := h.json.list
  packed := h.packed.list h.filled

end Wire

/-- A structure is read back if its fields are and no two fields have one name. -/
theorem Schema.faithful {α : Type} {schema : Schema α}
    (h : schema.layout.Every fun wire => wire.Faithful) (distinct : schema.layout.names.Nodup) :
    schema.wire.Faithful := by
  have json : (schema.layout.map Wire.json).Every fun format => format.Faithful :=
    Layout.every_map (h.imp fun wire => wire.json)
  have packed : (schema.layout.map Wire.packed).Every fun format => format.Faithful :=
    Layout.every_map (h.imp fun wire => wire.packed)
  have names : (schema.layout.map Wire.json).names.Nodup := by rwa [Layout.names_map]
  exact ⟨(Json.Format.faithful_record schema.name json names).imap schema.ofRow_toRow,
    (Packed.Format.faithful_record packed).imap schema.ofRow_toRow⟩

/-! ## payloads -/

/-- The states of a persist request are plain. -/
@[simp] theorem PersistenceState.plain : PersistenceState.wire.Plain :=
  Wire.plain_choice (fun state => by cases state <;> decide) (by decide)

/-- The actions on an access control list are plain. -/
@[simp] theorem AclAction.plain : AclAction.wire.Plain :=
  Wire.plain_choice (fun action => by cases action <;> decide) (by decide)

/-- No two fields of a body have one name. -/
theorem PayloadKind.nodup_names (kind : PayloadKind) : kind.schema.layout.names.Nodup := by
  cases kind <;> decide

/-- Every field of a body is read back. -/
theorem PayloadKind.every_faithful (kind : PayloadKind) :
    kind.schema.layout.Every fun wire => wire.Faithful := by
  cases kind <;>
    simp [schema, Layout.Every, DeleteFile.schema, InodeDirectory.schema, InodeFile.schema,
      NewBlock.schema, Rename.schema, SetAcl.schema, UpdateInode.schema,
      UpdateInodeDirectory.schema, UpdateInodeFile.schema, AsyncPersistRequest.schema,
      CompleteFile.schema, InodeLastModificationTime.schema, PersistDirectory.schema,
      SetAttribute.schema, InodeDirectoryIdGenerator.schema, Field.required, Field.defaulted]

/-- The body of every kind is read back. -/
theorem PayloadKind.faithful (kind : PayloadKind) : kind.schema.wire.Faithful :=
  Schema.faithful kind.every_faithful kind.nodup_names

namespace Payload

/-- The name of the only member decides how its value is read. -/
theorem read_object {name : String} {value : List Json.Token} {payload? : Option Payload}
    {rest : List Json.Token}
    (reads : readBody (PayloadKind.named? name) (value ++ .rightBrace :: rest) =
      .ok (payload?, .rightBrace :: rest)) :
    json.read (.leftBrace :: .text (.ok name) :: .colon :: (value ++ .rightBrace :: rest)) =
      .ok (payload?, rest) := by
  have named : Json.readChoiceName (fun name => .ok (PayloadKind.named? name))
      (.text (.ok name) :: .colon :: (value ++ .rightBrace :: rest)) =
        .ok (PayloadKind.named? name, value ++ .rightBrace :: rest) := rfl
  simp only [json]
  rw [named]
  simp only
  rw [reads]
  rfl

/-- Under the name of a kind there is a body of that kind. -/
theorem readBody_name (kind : PayloadKind) {body : kind.Body} {value rest : List Json.Token}
    (reads : kind.schema.wire.json.read (value ++ rest) = .ok (body, rest)) :
    readBody (PayloadKind.named? kind.name) (value ++ rest) = .ok (some ⟨kind, body⟩, rest) := by
  rw [PayloadKind.named?_name, readBody]
  simp only
  rw [reads]
  rfl

/-- Payloads are read back from JSON, where the kind is the name of the only member and an absent
payload is `null`. -/
theorem faithful_json : json.Faithful := by
  refine ⟨fun payload? rest => ?_, fun payload? => ?_, fun payload? => ?_⟩
  · cases payload? with
    | none => rfl
    | some payload =>
      have reads := payload.kind.faithful.json.read_write payload.body (.rightBrace :: rest)
      simp only [json, List.cons_append, List.append_assoc, List.nil_append]
      exact read_object (readBody_name payload.kind reads)
  · cases payload? with
    | none => exact ⟨_, _, rfl, by rintro ⟨⟩⟩
    | some payload => exact ⟨_, _, rfl, by rintro ⟨⟩⟩
  · cases payload? with
    | none => exact .singleton trivial
    | some payload =>
      refine .cons trivial rfl (.cons trivial rfl (.cons trivial rfl ?_))
      refine .append (payload.kind.faithful.json.clean payload.body) (.singleton trivial) ?_
      rintro next ⟨⟩
      rfl

/-- The index of the kind decides how the body is read from packed bytes. -/
theorem read_packed (kind : PayloadKind) (rest : Bytes) :
    packed.read (Packed.Varint.write kind.index ++ rest) =
      (kind.schema.wire.packed.read rest).map fun (body, rest) => (⟨kind, body⟩, rest) := by
  have inside : kind.index < UInt32.size := by cases kind <;> decide
  simp only [packed]
  rw [Packed.Varint.read_write .word32 _ (Nat.lt_trans inside (by decide)) fun _ => inside]
  simp only
  rw [PayloadKind.all_index]

/-- The body is no longer than the payload. -/
theorem body_short {payload : Payload} (short : (packed.write payload).length < UInt64.size) :
    (payload.kind.schema.wire.packed.write payload.body).length < UInt64.size := by
  replace short : (Packed.Varint.write payload.kind.index ++
    payload.kind.schema.wire.packed.write payload.body).length < UInt64.size := short
  rw [List.length_append] at short
  omega

/-- Payloads are read back from packed bytes, where the index of the kind comes before the body. -/
theorem faithful_packed : packed.Faithful where
  read_write payload rest short := by
    have inner := body_short short
    obtain ⟨kind, body⟩ := payload
    show packed.read ((Packed.Varint.write kind.index ++ kind.schema.wire.packed.write body) ++
      rest) = _
    rw [List.append_assoc, read_packed, kind.faithful.packed.read_write body rest inner]
    rfl
  needsAll payload short := by
    have inner := body_short short
    obtain ⟨kind, body⟩ := payload
    have inside : kind.index < UInt32.size := by cases kind <;> decide
    refine Packed.NeedsAll.append
      ((Packed.Varint.needsAll_read .word32 fun _ => inside).of_fails
        fun bytes missing refused => ?_)
      ((kind.faithful.packed.needsAll body inner).of_fails fun bytes missing refused => ?_)
    · simp only [packed]
      rw [refused]
    · rw [read_packed, refused]
      rfl

end Payload

/-! ## entries and batches -/

/-- Entries are plain, and may so stand in a list. -/
theorem Entry.plain : Entry.schema.wire.Plain where
  toFaithful := by
    refine Schema.faithful ⟨Wire.plain_word64.option, ?_, trivial⟩ (by decide)
    exact ⟨Payload.faithful_json, Payload.faithful_packed.option⟩
  present := by rintro _ ⟨⟩
  filled e := by
    show (Packed.Format.option Packed.Format.word64).write e.sequenceNumber ++ _ ≠ []
    refine List.append_ne_nil_of_left_ne_nil ?_ _
    cases e.sequenceNumber <;> exact List.cons_ne_nil _ _

/-- Batches are read back in both formats. -/
theorem Batch.faithful : Batch.schema.wire.Faithful :=
  Schema.faithful ⟨Entry.plain.list, trivial⟩ (by decide)

namespace Codec

/-- **A batch is read back from its JSON text.** -/
theorem json_round_trip (batch : Batch) : json.decode (json.encode batch) = .ok batch := by
  show (Batch.schema.wire.json.parse _).mapError Fault.json = _
  rw [encode, Batch.faithful.json.parse_print]
  rfl

/-- **Packed batches delimit themselves.** Lengths are stored in 64 bits; they can count the bytes of
every batch that can be held in memory. It is read back from its bytes; whatever follows these is
reported as trailing; and wherever they are cut short, bytes are missing. -/
theorem packed_delimits_itself (batch : Batch)
    (short : (packed.encode batch).length < UInt64.size) :
    packed.decode (packed.encode batch) = .ok batch ∧
    (∀ rest : Bytes, rest ≠ [] →
      ∃ fault, packed.decode (packed.encode batch ++ rest) = .error fault ∧
        fault.message = s!"{rest.length} trailing bytes after batch") ∧
    (∀ front back : Bytes, packed.encode batch = front ++ back → back ≠ [] →
      ∃ missing, packed.decode front = .error (.packed (.unexpectedEnd missing))) := by
  have faithful := Batch.faithful.packed
  refine ⟨?_, fun rest more => ?_, fun front back eq more => ?_⟩
  · show (Batch.schema.wire.packed.parse _).mapError Fault.packed = _
    rw [encode, faithful.parse_write short]
    rfl
  · refine ⟨.packed (.trailingBytes rest.length), ?_, rfl⟩
    show (Batch.schema.wire.packed.parse _).mapError Fault.packed = _
    rw [encode, faithful.parse_append short more]
    rfl
  · obtain ⟨missing, refused⟩ := faithful.needsAll_parse short front back eq more
    refine ⟨missing, ?_⟩
    show (Batch.schema.wire.packed.parse _).mapError Fault.packed = _
    rw [refused]
    rfl

/-- A batch of a new block and of an entry that says nothing. -/
def twoEntries : Batch :=
  ⟨[⟨some 7, some ⟨.newBlock, NewBlock.mk 10 1000⟩⟩, .ofPayload none]⟩

/-- The batch of two entries delimits itself: two bytes behind it are too many, and it cannot do
without its last three. -/
theorem packed_delimits_itself_of_two :
    (packed.encode twoEntries).length < UInt64.size ∧
    packed.encode twoEntries = [2, 1, 7, 1, 3, 10, 251, 232] ++ [3, 0, 0] ∧
    packed.decode (packed.encode twoEntries) = .ok twoEntries ∧
    (∃ fault, packed.decode (packed.encode twoEntries ++ [0, 0]) = .error fault ∧
      fault.message = "2 trailing bytes after batch") ∧
    ∃ missing,
      packed.decode [2, 1, 7, 1, 3, 10, 251, 232] = .error (.packed (.unexpectedEnd missing)) := by
  have short : (packed.encode twoEntries).length < UInt64.size := by decide +kernel
  have bytes : packed.encode twoEntries = [2, 1, 7, 1, 3, 10, 251, 232] ++ [3, 0, 0] := by
    decide +kernel
  obtain ⟨back, trailing, cut⟩ := packed_delimits_itself twoEntries short
  refine ⟨short, bytes, back, ?_, cut _ _ bytes (by decide)⟩
  obtain ⟨fault, refused, message⟩ := trailing [0, 0] (by decide)
  exact ⟨fault, refused, message⟩

/-- **A batch is read back** from its payload with either codec. Lengths are stored in 64 bits. -/
theorem decode_encode (codec : Codec) {batch : Batch}
    (short : (codec.encode batch).length < UInt64.size) :
    codec.decode (codec.encode batch) = .ok batch := by
  cases codec with
  | json =>
    show (Batch.schema.wire.json.parse _).mapError Fault.json = _
    rw [encode, Batch.faithful.json.parse_print]
    rfl
  | packed =>
    show (Batch.schema.wire.packed.parse _).mapError Fault.packed = _
    rw [encode, Batch.faithful.packed.parse_write short]
    rfl

end Codec

end RaftJournal
