import RaftJournal.Proofs.Json.Spellings
import RaftJournal.Proofs.Stream.Entries
import RaftJournal.Proofs.Stream.Ordering

/-! # Payloads of the other codec

Neither codec marks its payloads as its own, and still neither reads a payload of the other. A JSON
text starts with a brace and a quotation mark: as a packed batch it announces 123 entries, and the
first of them has no tag (**`Codec.packed_decode_json`**). A packed batch starts with the number of its
entries; where this byte is blank or opens a JSON value, the tag of the first entry comes next, and
that starts no token (**`Codec.json_decode_packed`**).

So a source that is opened with the wrong codec fails at the first batch, before any entry:
**`Codec.other_rejects`**. -/

namespace RaftJournal

/-! ## JSON texts as packed batches -/

namespace Codec

/-- The JSON text of a batch begins with a brace and a quotation mark. -/
theorem json_encode_eq (batch : Batch) : ∃ more, json.encode batch = 123 :: 34 :: more := by
  rw [encode, Json.Format.print, Utf8.ofString, String.toList_ofList]
  exact ⟨_, rfl⟩

/-- A JSON text is no packed batch: there is an entry due after its first byte, and the second byte is
no tag of one. -/
theorem packed_decode_json (batch : Batch) :
    packed.decode (json.encode batch) = .error (.packed (.optionTag 34)) := by
  obtain ⟨more, text⟩ := json_encode_eq batch
  rw [text]
  rfl

end Codec

/-! ## packed batches as JSON texts -/

namespace Json

/-- A token that opens a record: its brace, or the bracket of a record written as a list. -/
def Token.opensRecord : Token → Bool
  | .leftBrace | .leftBracket => true
  | _ => false

namespace Token

/-- No record begins with a text. -/
theorem opensRecord_ofQuotation (q : Quotation) : (ofQuotation q).opensRecord = false := by
  rw [ofQuotation]
  split <;> rfl

/-- No record begins with a broken number. -/
theorem opensRecord_ofBreak (reason : Numeral.Break) : (ofBreak reason).opensRecord = false := by
  cases reason <;> rfl

/-- The first of some tokens does not open a record. -/
def Unopened (tokens : List Token) : Prop :=
  ∃ token more, tokens = token :: more ∧ token.opensRecord = false

/-- Only the first token decides. -/
theorem Unopened.cons {token : Token} (closed : token.opensRecord = false) (more : List Token) :
    Unopened (token :: more) := ⟨token, more, rfl, closed⟩

/-- A byte that is not blank and no opening one starts no record. -/
theorem unopened_scan {b : UInt8} (visible : isBlank b = false) (brace : b ≠ 123)
    (bracket : b ≠ 91) (rest : Bytes) : Unopened (scan (b :: rest)) := by
  -- one case for each byte that a token starts with, in the order in which they are tried
  rw [scan.eq_def]
  simp only [visible]
  rw [if_neg (by decide), if_neg brace]
  by_cases closing : b = 125
  · rw [if_pos closing]
    exact .cons rfl _
  rw [if_neg closing, if_neg bracket]
  split
  · exact .cons rfl _
  split
  · exact .cons rfl _
  split
  · exact .cons rfl _
  split
  · split
    · exact .cons rfl _
    · exact .cons (opensRecord_ofQuotation _) _
  split
  · split <;> exact .cons rfl _
  split
  · split <;> exact .cons rfl _
  split
  · split <;> exact .cons rfl _
  split
  · split
    · exact .cons rfl _
    · exact .cons (opensRecord_ofBreak _) _
  · exact .cons rfl _

end Token

/-- What does not open a record is not read as one. -/
theorem readRecord_unopened {ρ : Type} (record : String) (layout : Layout Format ρ)
    {tokens : List Token} (h : Token.Unopened tokens) :
    ∃ fault, readRecord record layout tokens = .error fault := by
  obtain ⟨token, more, rfl, closed⟩ := h
  cases token with
  | leftBrace => cases closed
  | leftBracket => cases closed
  | _ => exact ⟨_, rfl⟩

end Json

/-- A value that may be absent begins with a zero or a one. -/
theorem Packed.Format.exists_write_option {α : Type} (format : Format α) (a? : Option α) :
    ∃ tag more, (option format).write a? = tag :: more ∧ (tag = 0 ∨ tag = 1) := by
  cases a? with
  | none => exact ⟨0, [], rfl, .inl rfl⟩
  | some a => exact ⟨1, format.write a, rfl, .inr rfl⟩

/-- An entry starts with the tag of its sequence number. -/
theorem Entry.exists_write_packed (e : Entry) :
    ∃ tag more, schema.wire.packed.write e = tag :: more ∧ (tag = 0 ∨ tag = 1) := by
  obtain ⟨tag, more, written, low⟩ := Packed.Format.word64.exists_write_option e.sequenceNumber
  obtain ⟨payload, split⟩ : ∃ payload, schema.wire.packed.write e =
      (Packed.Format.option Packed.Format.word64).write e.sequenceNumber ++ payload := ⟨_, rfl⟩
  exact ⟨tag, more ++ payload, by rw [split, written, List.cons_append], low⟩

/-- A word is one byte, or starts with a marker. -/
theorem Packed.Varint.exists_write (n : Nat) :
    (∃ b, write n = [b]) ∨
      ∃ marker more, write n = marker :: more ∧ (marker = 251 ∨ marker = 252 ∨ marker = 253) := by
  rw [write]
  split
  · exact .inl ⟨_, rfl⟩
  split
  · exact .inr ⟨251, _, rfl, .inl rfl⟩
  split
  · exact .inr ⟨252, _, rfl, .inr (.inl rfl)⟩
  · exact .inr ⟨253, _, rfl, .inr (.inr rfl)⟩

namespace Codec

open Json

/-- What does not open a record is no batch. -/
theorem json_decode_unopened {payload : Bytes} (h : Token.Unopened (Token.scan payload)) :
    ∃ fault, json.decode payload = .error fault := by
  obtain ⟨fault, refused⟩ :=
    readRecord_unopened Batch.schema.name (Batch.schema.layout.map Wire.json) h
  refine ⟨.json fault, ?_⟩
  have read : Batch.schema.wire.json.read (Token.scan payload) = .error fault := by
    show (readRecord _ _ _).map _ = _
    rw [refused]
    rfl
  rw [decode, Format.parse, read]
  rfl

/-- A text whose second byte is the tag of an optional value is no batch, whatever its first byte. -/
theorem json_decode_tag {tag : UInt8} (low : tag = 0 ∨ tag = 1) (b : UInt8) (more : Bytes) :
    ∃ fault, json.decode (b :: tag :: more) = .error fault := by
  have stray : Token.scan (tag :: more) = [.stray] := by
    rcases low with rfl | rfl <;> (rw [Token.scan.eq_def]; rfl)
  by_cases blank : Token.isBlank b
  · refine json_decode_unopened ?_
    rw [Token.scan_blank blank, stray]
    exact .cons rfl _
  rw [Bool.not_eq_true] at blank
  by_cases brace : b = 123
  · -- a member should have its key there
    refine ⟨.json .keyNotText, ?_⟩
    have tokens : Token.scan (b :: tag :: more) = [.leftBrace, .stray] := by
      rw [brace, Token.scan.eq_def, ← stray]
      rfl
    rw [decode, Format.parse, tokens]
    rfl
  by_cases bracket : b = 91
  · -- the list of the entries should start there
    refine ⟨.json .noValue, ?_⟩
    have tokens : Token.scan (b :: tag :: more) = [.leftBracket, .stray] := by
      rw [bracket, Token.scan.eq_def, ← stray]
      rfl
    rw [decode, Format.parse, tokens]
    rfl
  exact json_decode_unopened (Token.unopened_scan blank brace bracket _)

/-- A packed batch is no JSON text. -/
theorem json_decode_packed (batch : Batch) :
    ∃ fault, json.decode (packed.encode batch) = .error fault := by
  obtain ⟨entries⟩ := batch
  show ∃ fault, json.decode ((Packed.Varint.write entries.length ++
    entries.flatMap Entry.schema.wire.packed.write) ++ []) = .error fault
  rw [List.append_nil]
  cases entries with
  | nil => exact json_decode_unopened (Token.unopened_scan rfl (by decide) (by decide) _)
  | cons first entries =>
    rcases Packed.Varint.exists_write (first :: entries).length with
      ⟨b, count⟩ | ⟨marker, more, count, markers⟩
    · obtain ⟨tag, more, written, low⟩ := first.exists_write_packed
      rw [count, List.flatMap_cons, written]
      exact json_decode_tag low b _
    · rw [count]
      rcases markers with rfl | rfl | rfl <;>
        exact json_decode_unopened (Token.unopened_scan rfl (by decide) (by decide) _)

/-! ## sources with the wrong codec -/

/-- Unpacking ends at the first batch if its payload is not read. -/
theorem unpack_of_first {codec : Codec} {records : List LogRecord} {record : LogRecord} {fault : Fault}
    (first : records.find? (fun record => record.kind = .stateMachineData) = some record)
    (refused : codec.decode record.payload = .error fault) (end? : Option JournalError) :
    codec.unpack end? records = ([], some (.deserialization record.index fault.message)) := by
  induction records with
  | nil => cases first
  | cons other records ih =>
    rw [unpack]
    by_cases machine : other.kind = .stateMachineData
    · obtain rfl : other = record := by simpa [machine] using first
      rw [if_pos machine, refused]
    · rw [if_neg machine]
      exact ih (by simpa [machine] using first)

/-- **A codec rejects the payloads of the other.** Whatever a batch holds, and however many entries, the
payload that one codec writes for it is refused by the other. So when the first record for the state machine
that a stream of records hands out holds a batch of one codec, a source with the other codec gives the
error of this payload and nothing before or after it. -/
theorem other_rejects {codec other : Codec} (differ : other ≠ codec) :
    (∀ batch, ∃ fault, other.decode (codec.encode batch) = .error fault) ∧
    ∀ (tree : FileTree) (stream : RecordStream) (records : List LogRecord)
      (end? : Option JournalError) (record : LogRecord) (batch : Batch),
      Gives (RecordStream.next tree) records end? stream →
      records.find? (fun record => record.kind = .stateMachineData) = some record →
      record.payload = codec.encode batch →
      ∃ fault, other.decode record.payload = .error fault ∧
        Gives (JournalEntries.next tree) []
          (some (.deserialization record.index fault.message)) (.ofRecords stream other) := by
  have rejects (batch : Batch) : ∃ fault, other.decode (codec.encode batch) = .error fault := by
    cases codec with
    | json =>
      cases other with
      | json => exact absurd rfl differ
      | packed => exact ⟨_, packed_decode_json batch⟩
    | packed =>
      cases other with
      | json => exact json_decode_packed batch
      | packed => exact absurd rfl differ
  refine ⟨rejects, fun tree stream records end? record batch gives first payload => ?_⟩
  obtain ⟨fault, refused⟩ := rejects batch
  rw [← payload] at refused
  have entries := JournalEntries.gives_unpack other gives
  rw [unpack_of_first first refused] at entries
  exact ⟨fault, refused, entries⟩

/-- A batch whose packed bytes start with a blank: the number of its entries. -/
def blankLed : Batch := ⟨List.replicate 9 ⟨none, none⟩⟩

/-- A journal of a record without a batch and of one with this batch. -/
def blankLedRecords : List LogRecord :=
  [RecordStream.bare 1, ⟨2, 1, .stateMachineData, packed.encode blankLed⟩]

/-- The journal in one segment. -/
def blankLedTree : FileTree := RecordStream.shelf [("log_0-4", blankLedRecords)]

/-- Read as JSON, the journal fails at its batch, though the payload starts with a blank. -/
theorem other_rejects_of_blank :
    json ≠ packed ∧ (packed.encode blankLed).head? = some 9 ∧
    ∃ stream message,
      RecordStream.ofRoot blankLedTree "j" ⟨.defaultGroup, 0, none⟩ = .ok stream ∧
      Gives (RecordStream.next blankLedTree) blankLedRecords none stream ∧
      Gives (JournalEntries.next blankLedTree) [] (some (.deserialization 2 message))
        (.ofRecords stream json) := by
  have differ : json ≠ packed := by decide
  have opened : RecordStream.ofRoot blankLedTree "j" ⟨.defaultGroup, 0, none⟩ =
      .ok (.ofSegments [RecordStream.shelved 0 4] ⟨.defaultGroup, 0, none⟩) := by decide +kernel
  have file : blankLedTree.read (RecordStream.shelved 0 4).path =
      .ok (.ofList (segmentBytes blankLedRecords)) := by decide +kernel
  have gives := RecordStream.gives_of_bytes file (by decide) .defaultGroup
  obtain ⟨-, fails⟩ := other_rejects differ
  obtain ⟨fault, -, entries⟩ := fails blankLedTree _ blankLedRecords none _ blankLed gives rfl rfl
  exact ⟨differ, by decide +kernel, _, fault.message, opened, gives, entries⟩

end Codec

end RaftJournal
