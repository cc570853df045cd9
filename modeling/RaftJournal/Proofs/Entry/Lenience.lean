import RaftJournal.Proofs.Entry.Wires
import RaftJournal.Proofs.Json.Spellings

/-! # Batches are read leniently

A batch is read from more texts than the one that is written for it. At each of its records (the batch, its
entries and the bodies of their payloads) members may come in any order, those with their defaults may be
left out and others may be added, or the record may be written as a list; a payload of an unknown kind
stands for none. **`Batch.lenient`** says all of this, and **`Codec.json_lenient`** that every such text is
read as the batch. So a payload that is not known costs nothing but itself: **`Codec.unknown_alone`**. -/

namespace RaftJournal

open Json

/-! ## bodies and payloads -/

/-- A structure as a lenient record with the given fields. -/
def Schema.lenient {α : Type} (schema : Schema α) (layout : Layout Lenient schema.Row) : Lenient α :=
  (Lenient.record schema.name layout).imap schema.ofRow schema.toRow

/-- A structure is read from all that is accepted for it, if its fields are. -/
theorem Schema.sound_lenient {α : Type} (schema : Schema α) {layout : Layout Lenient schema.Row}
    (sound : layout.Every fun l => l.Sound) (distinct : layout.names.Nodup) :
    (schema.lenient layout).Sound :=
  (Lenient.sound_record schema.name sound distinct).imap schema.ofRow_toRow

/-- The body of a kind: its fields are accepted as they are written, but any of them with its default may
be absent. -/
def PayloadKind.lenient (kind : PayloadKind) : Lenient kind.Body :=
  kind.schema.lenient ((kind.schema.layout.map Wire.json).map Lenient.exact)

/-- The body of a kind is read as it is without lenience. -/
theorem PayloadKind.format_lenient (kind : PayloadKind) :
    kind.lenient.format = kind.schema.wire.json := by
  show (Format.record _ (((kind.schema.layout.map Wire.json).map Lenient.exact).map
    Lenient.format)).imap _ _ = _
  rw [map_exact]
  rfl

/-- The body of a kind is read from all that is accepted for it. -/
theorem PayloadKind.sound_lenient (kind : PayloadKind) : kind.lenient.Sound := by
  refine kind.schema.sound_lenient ?_ ?_
  · refine Layout.every_map (Layout.every_map ?_)
    exact kind.every_faithful.imp fun faithful => Lenient.sound_exact faithful.json
  · rw [Layout.names_map, Layout.names_map]
    exact kind.nodup_names

/-- The tokens of an object with one member. -/
def writeOnly (name : String) (value : List Token) : List Token := writeObject (keyed [(name, value)])

/-- A payload: an object named for its kind. None is `null`, or an object that is named for no kind. -/
def Payload.lenient : Lenient (Option Payload) where
  format := Payload.json
  Accepts payload? tokens :=
    match payload? with
    | some payload => ∃ value, payload.kind.lenient.Accepts payload.body value ∧
        tokens = writeOnly payload.kind.name value
    | none => tokens = [.null] ∨ ∃ name value, (∀ kind : PayloadKind, name ≠ kind.name) ∧
        IsValue value ∧ tokens = writeOnly name value

/-- A name that no kind has names none. -/
theorem PayloadKind.named?_of_unknown {name : String} (unknown : ∀ kind : PayloadKind, name ≠ kind.name) :
    named? name = none := by
  rw [named?, List.find?_eq_none]
  intro kind _ same
  exact unknown kind (of_decide_eq_true same).symm

/-- What stands for a value under the name of the only member stands for the payload. -/
theorem Payload.stand_writeOnly {name : String} {value : List Token} {payload? : Option Payload}
    (reads : ∀ rest, readBody (PayloadKind.named? name) (value ++ rest) = .ok (payload?, rest))
    (apart : Token.Apart value) : Stand Payload.json.read payload? (writeOnly name value) := by
  refine ⟨fun rest => ?_, opens_writeObject _, apart_writeObject ?_⟩
  · have text : writeOnly name value ++ rest =
        .leftBrace :: .text (.ok name) :: .colon :: (value ++ .rightBrace :: rest) := by
      show .leftBrace :: .text (.ok name) :: .colon :: (value ++ [.rightBrace] ++ rest) = _
      rw [List.append_assoc]
      rfl
    rw [text]
    exact read_object (reads _)
  · intro m mem
    obtain rfl := List.mem_singleton.mp mem
    exact apart

/-- A payload is read from all that is accepted for it. -/
theorem Payload.sound_lenient : Payload.lenient.Sound := by
  refine ⟨fun {payload? tokens} accepted => ?_, fun payload? => ?_⟩
  · cases payload? with
    | some payload =>
      obtain ⟨value, body, rfl⟩ := accepted
      have stand := payload.kind.sound_lenient.stand body
      rw [payload.kind.format_lenient] at stand
      exact stand_writeOnly (fun rest => readBody_name payload.kind (stand.reads rest)) stand.apart
    | none =>
      rcases accepted with rfl | ⟨name, value, unknown, isValue, rfl⟩
      · exact faithful_json.stand none
      · refine stand_writeOnly (fun rest => ?_) isValue.apart
        rw [PayloadKind.named?_of_unknown unknown, readBody, skipValue_append isValue]
        rfl
  · cases payload? with
    | some payload =>
      have body := payload.kind.sound_lenient.write payload.body
      rw [payload.kind.format_lenient] at body
      exact ⟨_, body, rfl⟩
    | none => exact .inl rfl

/-! ## entries and batches -/

/-- An entry: its payload is accepted leniently. -/
def Entry.lenient : Lenient Entry :=
  Entry.schema.lenient <|
    .cons (.defaulted "sequence_number" (.exact (.option .word64)) none) <|
    .cons (.defaulted "payload" Payload.lenient none) .nil

/-- An entry is read from all that is accepted for it. -/
theorem Entry.sound_lenient : Entry.lenient.Sound := by
  refine Entry.schema.sound_lenient ⟨?_, Payload.sound_lenient, trivial⟩ (by decide)
  exact Lenient.sound_exact (Format.faithful_word64.option (by rintro _ ⟨⟩))

/-- A batch: its entries are accepted leniently. -/
def Batch.lenient : Lenient Batch :=
  Batch.schema.lenient <| .cons (.defaulted "entries" Entry.lenient.list []) .nil

/-- A batch is read from all that is accepted for it. -/
theorem Batch.sound_lenient : Batch.lenient.Sound :=
  Batch.schema.sound_lenient ⟨Entry.sound_lenient.list, trivial⟩ (by decide)

theorem Batch.format_lenient : Batch.lenient.format = Batch.schema.wire.json := rfl

/-- A text that spells what is accepted for a batch is read as the batch. -/
theorem Batch.decode_of_accepts {batch : Batch} {tokens : List Token} {text : List Char}
    (accepted : Batch.lenient.Accepts batch tokens) (spelled : Token.Spells tokens text) :
    Codec.json.decode (Utf8.encode text) = .ok batch := by
  have stand := Batch.sound_lenient.stand accepted
  show (Batch.schema.wire.json.parse _).mapError Codec.Fault.json = _
  rw [← Batch.format_lenient, stand.parse (Token.scan_of_spells spelled stand.apart)]
  rfl

namespace Codec

/-- **A batch is read leniently.** Its text may have white space anywhere between tokens. Each of its records
may have its members in any order, without those that have their defaults and with others of unknown names
and any values, or may be a list of its fields that leaves off defaults at its end. -/
theorem json_lenient {batch : Batch} {tokens : List Token} {text : List Char}
    (accepted : Batch.lenient.Accepts batch tokens) (spelled : Token.Spells tokens text) :
    json.decode (Utf8.encode text) = .ok batch :=
  Batch.decode_of_accepts accepted spelled

/-- The members of a new block in reverse, after an unknown one. -/
def reversedBlock : List Named :=
  [("x", [.boolean true]), ("block_id", [.number (.integer 1000)]), ("id", [.number (.integer 10)])]

/-- A value that no field could have. -/
def laterValue : List Token :=
  writeParts [[.number .floating], writeObject [⟨.error .cutSurrogate, [.null]⟩]]

/-- A text of that value, with white space around its number. -/
def laterText : List Char := "[\n 1.5E+3 ,\x7b\"\\uD800\":null\x7d]".toList

/-- The entries of the batch of two: a list, and an object that leaves everything to its defaults. -/
def shortEntries : List Token :=
  writeParts [
    writeParts [[.number (.integer 7)], writeOnly "new_block" (writeObject (keyed reversedBlock))],
    writeObject []]

/-- The batch of two entries after an unknown member. -/
def lenientTokens : List Token :=
  writeObject (keyed [("later", laterValue), ("entries", shortEntries)])

/-- A text of these tokens. -/
def lenientText : List Char :=
  "\x7b\"later\":".toList ++ (laterText ++
    ",\"entries\":[[7,\x7b\"new_block\":\x7b\"x\":true,\"block_id\":1000,\"id\":10\x7d\x7d],\x7b\x7d]\x7d".toList)

theorem isValue_laterValue : IsValue laterValue := by
  have object : IsValue (writeObject [⟨.error .cutSurrogate, [.null]⟩]) := by
    refine .object fun m mem => ?_
    obtain rfl := List.mem_singleton.mp mem
    exact .null
  exact .list (List.forall_mem_cons.mpr ⟨.number _, List.forall_mem_singleton.mpr object⟩)

theorem accepts_lenientTokens : Batch.lenient.Accepts twoEntries lenientTokens := by
  have block : PayloadKind.newBlock.lenient.Accepts (NewBlock.mk 10 1000)
      (writeObject (keyed reversedBlock)) := by
    have unknown : ∀ m ∈ [(("x", [.boolean true]) : Named)],
        m.1 ∉ ((PayloadKind.newBlock.schema.layout.map Wire.json).map Lenient.exact).names ∧
          IsValue m.2 := by
      intro m mem
      obtain rfl := List.mem_singleton.mp mem
      exact ⟨by decide, .boolean true⟩
    exact .object (Or.inl ⟨_, _, rfl, rfl, Or.inl ⟨_, _, rfl, rfl, rfl⟩⟩) unknown
      (List.reverse_perm reversedBlock).symm
  have first : Entry.lenient.Accepts ⟨some 7, some ⟨.newBlock, NewBlock.mk 10 1000⟩⟩ (writeParts
      [[.number (.integer 7)], writeOnly "new_block" (writeObject (keyed reversedBlock))]) :=
    .list (Or.inl ⟨_, _, rfl, rfl, Or.inl ⟨_, _, rfl, ⟨_, block, rfl⟩, rfl⟩⟩)
  have second : Entry.lenient.Accepts (.ofPayload none) (writeObject (keyed [])) := by
    have defaults : Own (.cons (.defaulted "sequence_number" (.exact (.option .word64)) none) <|
        .cons (.defaulted "payload" Payload.lenient none) .nil)
        (Entry.schema.toRow (.ofPayload none)) [] := Or.inr ⟨rfl, Or.inr ⟨rfl, rfl⟩⟩
    exact .object defaults (List.forall_mem_nil _) .nil
  have unknown : ∀ m ∈ [(("later", laterValue) : Named)], m.1 ∉ ["entries"] ∧ IsValue m.2 := by
    intro m mem
    obtain rfl := List.mem_singleton.mp mem
    exact ⟨by decide, isValue_laterValue⟩
  exact .object (Or.inl ⟨_, _, rfl, ⟨_, .cons first (.cons second .nil), rfl⟩, rfl⟩) unknown
    (List.Perm.swap _ _ _)

theorem spells_laterText : Token.Spells laterValue laterText := by
  have line : Token.IsSpace '\n' := .inr (.inr (.inl rfl))
  have space : Token.IsSpace ' ' := .inl rfl
  have number : Token.Spelling (.number .floating) ['1', '.', '5', 'E', '+', '3'] := by
    have digit {c : Char} (h : Decimal.isDigit c) : Numeral.IsDigits [c] :=
      ⟨List.cons_ne_nil _ _, List.forall_mem_singleton.mpr h⟩
    have valid : Numeral.Parts.Valid ⟨false, ['1'], some ['5'], some ('E', some '+', ['3'])⟩ := by
      refine ⟨digit (by decide), nofun, ?_, ?_⟩
      · rintro _ ⟨⟩
        exact digit (by decide)
      · rintro _ _ _ ⟨⟩
        exact ⟨.inr rfl, fun c same => .inl (Option.some.inj same).symm, digit (by decide)⟩
    exact .number valid
  have string : Token.Spelling (.text (.error .cutSurrogate))
      ['"', '\\', 'u', 'D', '8', '0', '0', '"'] := by
    have d : ('D', 13) ∈ Quotation.hexDigits := by decide
    have eight : ('8', 8) ∈ Quotation.hexDigits := by decide
    have zero : ('0', 0) ∈ Quotation.hexDigits := by decide
    exact .text (.unit d eight zero zero .nil)
  have middle : Token.Clean [.comma, .leftBrace] := by
    simp [Token.Clean, Token.WellFormed, Token.isNumber]
  have back : Token.Clean [.colon, .null, .rightBrace, .rightBracket] := by
    simp [Token.Clean, Token.WellFormed, Token.isNumber]
  have first : Token.Spells [.leftBracket, .number .floating]
      ['[', '\n', ' ', '1', '.', '5', 'E', '+', '3', ' '] := by
    have bracket : Token.Spelling .leftBracket ['['] := .written trivial
    exact .token bracket (.space line (.space space (.token number (.space space .nil))))
  exact first.append ((Token.spells_render middle).append
    ((Token.Spells.token string .nil).append (Token.spells_render back)))

theorem spells_lenientText : Token.Spells lenientTokens lenientText := by
  have front : Token.Clean [.leftBrace, .text (.ok "later"), .colon] := by
    simp [Token.Clean, Token.WellFormed, Token.isNumber]
  have back : Token.Clean ([.comma, .text (.ok "entries"), .colon] ++ shortEntries ++
      [.rightBrace]) := by
    simp [Token.Clean, Token.WellFormed, Token.isNumber, shortEntries, writeParts, Format.writeList,
      Format.writeMore, writeOnly, keyed, reversedBlock, writeObject, writeFurther]
  exact (Token.spells_render front).append (spells_laterText.append (Token.spells_render back))

/-- The batch of two entries is read from this text. -/
theorem json_lenient_of_two :
    Batch.lenient.Accepts twoEntries lenientTokens ∧ Token.Spells lenientTokens lenientText ∧
      json.decode (Utf8.encode lenientText) = .ok twoEntries :=
  ⟨accepts_lenientTokens, spells_lenientText, json_lenient accepts_lenientTokens spells_lenientText⟩

end Codec

/-! ## unknown payloads -/

/-- The tokens of a payload, or of an object with the given member in its place. -/
def Payload.tokensOr (payload? : Option Payload) : Option Named → List Token
  | some (name, value) => writeOnly name value
  | none => Payload.json.write payload?

/-- The tokens of an entry, with those of its payload or of an object in its place. -/
def Entry.tokensOr (e : Entry) (replaced : Option Named) : List Token :=
  writeObject (keyed [("sequence_number", (Format.option .word64).write e.sequenceNumber),
    ("payload", Payload.tokensOr e.payload replaced)])

/-- The tokens of a batch in which objects stand in place of the payloads at the chosen positions. -/
def Batch.tokensOr (batch : Batch) (chosen : Nat → Option Named) : List Token :=
  writeObject (keyed [("entries", writeParts (batch.entries.mapIdx fun i e => e.tokensOr (chosen i)))])

/-- The entry without its payload, if that has been replaced. -/
def Entry.without (e : Entry) (replaced : Option Named) : Entry :=
  if replaced.isSome then { e with payload := none } else e

/-- The batch without the payloads at the chosen positions. -/
def Batch.without (batch : Batch) (chosen : Nat → Option Named) : Batch :=
  ⟨batch.entries.mapIdx fun i e => e.without (chosen i)⟩

/-- The member that replaces a payload has a name that no kind has, and some value. -/
def IsUnknown (m : Named) : Prop := (∀ kind : PayloadKind, m.1 ≠ kind.name) ∧ IsValue m.2

/-- An entry is accepted as one without a payload if that is unknown. -/
theorem Entry.accepts_tokensOr {replaced : Option Named} (unknown : ∀ m, replaced = some m → IsUnknown m)
    (e : Entry) : Entry.lenient.Accepts (e.without replaced) (e.tokensOr replaced) := by
  have accepted : (e.without replaced).sequenceNumber = e.sequenceNumber ∧
      Payload.lenient.Accepts (e.without replaced).payload (Payload.tokensOr e.payload replaced) := by
    cases replaced with
    | none => exact ⟨rfl, Payload.sound_lenient.write e.payload⟩
    | some m =>
      obtain ⟨name, isValue⟩ := unknown m rfl
      exact ⟨rfl, .inr ⟨m.1, m.2, name, isValue, rfl⟩⟩
  have alone : ∀ m ∈ ([] : List Named), m.1 ∉ ["sequence_number", "payload"] ∧ IsValue m.2 :=
    List.forall_mem_nil _
  refine .object (Or.inl ⟨_, _, rfl, ?_, Or.inl ⟨_, _, rfl, accepted.2, rfl⟩⟩) alone (.refl _)
  exact congrArg _ accepted.1.symm

/-- So is a batch in which unknown payloads have been put. -/
theorem Batch.accepts_tokensOr {chosen : Nat → Option Named}
    (unknown : ∀ i m, chosen i = some m → IsUnknown m) (batch : Batch) :
    Batch.lenient.Accepts (batch.without chosen) (batch.tokensOr chosen) := by
  obtain ⟨entries⟩ := batch
  have accepted : List.Forall₂ Entry.lenient.Accepts (entries.mapIdx fun i e => e.without (chosen i))
      (entries.mapIdx fun i e => e.tokensOr (chosen i)) := by
    induction entries generalizing chosen with
    | nil => exact .nil
    | cons e entries ih =>
      rw [List.mapIdx_cons, List.mapIdx_cons]
      exact .cons (e.accepts_tokensOr (unknown 0)) (ih fun i m => unknown (i + 1) m)
  have alone : ∀ m ∈ ([] : List Named), m.1 ∉ ["entries"] ∧ IsValue m.2 := List.forall_mem_nil _
  exact .object (Or.inl ⟨_, _, rfl, ⟨_, accepted, rfl⟩, rfl⟩) alone (.refl _)

namespace Codec

/-- **Unknown payloads cost nothing but themselves.** A batch in whose text some payloads have been replaced
by objects with one member, of a name that no kind has and of any value, is read as the batch without these
payloads: its entries are there in their order and with their sequence numbers, and those with an unknown
payload are of the type for it. -/
theorem unknown_alone (batch : Batch) {chosen : Nat → Option Named}
    (unknown : ∀ i m, chosen i = some m → IsUnknown m)
    {text : List Char} (spelled : Token.Spells (batch.tokensOr chosen) text) :
    ∃ entries, json.decode (Utf8.encode text) = .ok ⟨entries⟩ ∧
      entries.length = batch.entries.length ∧
      ∀ i e, batch.entries[i]? = some e →
        (chosen i = none → entries[i]? = some e) ∧
        ((chosen i).isSome → ∃ e', entries[i]? = some e' ∧ e'.sequenceNumber = e.sequenceNumber ∧
          e'.payload = none ∧ e'.type = .unmatched) := by
  refine ⟨_, Batch.decode_of_accepts (batch.accepts_tokensOr unknown) spelled, List.length_mapIdx,
    fun i e found => ?_⟩
  rw [List.getElem?_mapIdx, found, Option.map_some, Entry.without]
  refine ⟨fun kept => ?_, fun replaced => ⟨⟨e.sequenceNumber, none⟩, ?_, rfl, rfl, rfl⟩⟩
  · rw [kept]
    rfl
  · rw [if_pos replaced]

/-- A payload of a kind to come, in the first place. -/
def laterPayload (i : Nat) : Option Named := if i = 0 then some ("later", laterValue) else none

/-- A text of the batch of two entries with this payload in its first one. -/
def laterPayloadText : List Char :=
  "\x7b\"entries\":[\x7b\"sequence_number\":7,\"payload\":\x7b\"later\":".toList ++ (laterText ++
    "\x7d\x7d,\x7b\"sequence_number\":null,\"payload\":null\x7d]\x7d".toList)

/-- Of the batch of two entries with an unknown payload in the first one, the second one is read as it is. -/
theorem unknown_alone_of_two :
    (∀ i m, laterPayload i = some m → IsUnknown m) ∧
      Token.Spells (twoEntries.tokensOr laterPayload) laterPayloadText ∧
      ∃ entries, json.decode (Utf8.encode laterPayloadText) = .ok ⟨entries⟩ ∧
        entries.length = 2 ∧ entries[1]? = some (.ofPayload none) ∧
        ∃ e, entries[0]? = some e ∧ e.sequenceNumber = some 7 ∧ e.type = .unmatched := by
  have unknown : ∀ i m, laterPayload i = some m → IsUnknown m := by
    intro i m chosen
    rw [laterPayload] at chosen
    split at chosen
    · cases chosen
      exact ⟨fun kind => by cases kind <;> decide, isValue_laterValue⟩
    · cases chosen
  have spelled : Token.Spells (twoEntries.tokensOr laterPayload) laterPayloadText := by
    have front : Token.Clean [.leftBrace, .text (.ok "entries"), .colon, .leftBracket, .leftBrace,
        .text (.ok "sequence_number"), .colon, .number (.integer 7), .comma, .text (.ok "payload"),
        .colon, .leftBrace, .text (.ok "later"), .colon] := by
      simp [Token.Clean, Token.WellFormed, Token.isNumber]
    have back : Token.Clean [.rightBrace, .rightBrace, .comma, .leftBrace,
        .text (.ok "sequence_number"), .colon, .null, .comma, .text (.ok "payload"), .colon, .null,
        .rightBrace, .rightBracket, .rightBrace] := by
      simp [Token.Clean, Token.WellFormed, Token.isNumber]
    exact (Token.spells_render front).append (spells_laterText.append (Token.spells_render back))
  obtain ⟨entries, read, length, each⟩ := unknown_alone twoEntries unknown spelled
  obtain ⟨e, first, stamp, -, type⟩ := (each 0 _ rfl).2 rfl
  exact ⟨unknown, spelled, entries, read, length, (each 1 _ rfl).1 rfl, e, first, stamp, type⟩

end Codec

end RaftJournal
