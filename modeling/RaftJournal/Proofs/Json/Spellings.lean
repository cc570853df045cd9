import RaftJournal.Proofs.Json.Tokens

/-! # How tokens are spelled

The grammar of JSON texts over characters: a token has one spelling or, if it is a number or a string,
many (**`Token.Spelling`**), and a text spells a run of tokens with any white space before, between and
behind them (**`Token.Spells`**). Whatever text spells a run in which no two numbers touch is cut into these
tokens: **`Token.scan_of_spells`**. What is written for tokens is one of their spellings
(**`Token.spells_render`**). -/

namespace RaftJournal.Json.Token

/-- White space in a text. -/
def IsSpace (c : Char) : Prop := c = ' ' ∨ c = '\t' ∨ c = '\n' ∨ c = '\r'

/-- The ways to spell a token. -/
inductive Spelling : Token → List Char → Prop
  /-- As it is written. -/
  | written {token : Token} (formed : token.WellFormed) : Spelling token token.chars
  /-- Any number, by its parts. -/
  | number {p : Numeral.Parts} (valid : p.Valid) : Spelling (.number p.numeral) p.text
  /-- Any string, by its pieces; not every run of pieces stands for characters. -/
  | text {chars : List Char} {pieces : List Piece} (spelled : Quotation.Spelling chars pieces) :
    Spelling (.text (Quotation.content ⟨pieces, .closed, []⟩)) ('"' :: (chars ++ ['"']))

/-- The text is made of the tokens in order, with white space anywhere around them. -/
inductive Spells : List Token → List Char → Prop
  | nil : Spells [] []
  | space {c : Char} {tokens : List Token} {text : List Char} (blank : IsSpace c)
    (more : Spells tokens text) : Spells tokens (c :: text)
  | token {token : Token} {tokens : List Token} {chars text : List Char}
    (spelled : Spelling token chars) (more : Spells tokens text) :
    Spells (token :: tokens) (chars ++ text)

theorem Spells.append {a b : List Token} {text text' : List Char} (h : Spells a text)
    (h' : Spells b text') : Spells (a ++ b) (text ++ text') := by
  induction h with
  | nil => exact h'
  | space blank more ih => exact .space blank ih
  | token spelled more ih =>
    rw [List.append_assoc]
    exact .token spelled ih

/-- White space is one byte that is passed over. -/
theorem IsSpace.encode {c : Char} (h : IsSpace c) :
    ∃ b, String.utf8EncodeChar c = [b] ∧ isBlank b ∧ Numeral.Ends [b] := by
  have passed {b : UInt8} (blank : isBlank b) (digit : Numeral.isDigit b = false)
      (others : b ≠ 46 ∧ b ≠ 101 ∧ b ≠ 69) : isBlank b ∧ Numeral.Ends [b] := by
    refine ⟨blank, fun b' mem => ?_⟩
    obtain rfl := Option.some.inj mem
    exact ⟨digit, others⟩
  rcases h with rfl | rfl | rfl | rfl
  · exact ⟨32, by decide, passed (by decide) (by decide) (by decide)⟩
  · exact ⟨9, by decide, passed (by decide) (by decide) (by decide)⟩
  · exact ⟨10, by decide, passed (by decide) (by decide) (by decide)⟩
  · exact ⟨13, by decide, passed (by decide) (by decide) (by decide)⟩

theorem scan_blank {b : UInt8} (blank : isBlank b) (rest : Bytes) : scan (b :: rest) = scan rest := by
  rw [scan.eq_def]
  exact if_pos blank

/-- A string is one token however it is spelled. -/
theorem scan_quoted {chars : List Char} {pieces : List Piece}
    (spelled : Quotation.Spelling chars pieces) (rest : Bytes) :
    scan (34 :: (Utf8.encode chars ++ 34 :: rest)) =
      .text (Quotation.content ⟨pieces, .closed, []⟩) :: scan rest := by
  have scanned := Quotation.scan_spelling spelled rest
  rw [scan.eq_def]
  simp only [isBlank]
  rw [if_neg (by decide), if_neg (by decide), if_neg (by decide), if_neg (by decide),
    if_neg (by decide), if_neg (by decide), if_neg (by decide), if_pos trivial, scanned]
  rfl

/-- A token is cut from the front of its text however it is spelled. -/
theorem scan_spelling {token : Token} {chars : List Char} (h : Spelling token chars) {rest : Bytes}
    (ends : token.isNumber → Numeral.Ends rest) :
    scan (Utf8.encode chars ++ rest) = token :: scan rest := by
  cases h with
  | written formed => exact scan_append formed ends
  | number valid =>
    obtain ⟨first, more, text, lead, scanned⟩ := Numeral.scan_parts valid (ends rfl)
    rw [text]
    exact scan_number lead scanned
  | text spelled =>
    rw [Utf8.encode_cons, Utf8.encode_append, List.append_assoc, List.append_assoc]
    exact scan_quoted spelled rest

/-- Where a text starts with no number, it does not continue one. -/
theorem ends_of_spells {tokens : List Token} {text : List Char} (h : Spells tokens text)
    (free : ∀ next ∈ tokens.head?, next.isNumber = false) : Numeral.Ends (Utf8.encode text) := by
  cases h with
  | nil =>
    intro b none
    cases none
  | space blank more =>
    obtain ⟨b, byte, -, ends⟩ := blank.encode
    rw [Utf8.encode_cons, byte]
    exact fun b' mem => ends b' mem
  | token spelled more =>
    have other := free _ rfl
    cases spelled with
    | written formed =>
      rw [Utf8.encode_append]
      exact ends_of_free formed other _
    | number valid => cases other
    | text spelled =>
      intro b mem
      obtain rfl := Option.some.inj mem
      decide

/-- **A text is cut into the tokens that it spells**, if no two of them are numbers side by side. -/
theorem scan_of_spells {tokens : List Token} {text : List Char} (h : Spells tokens text)
    (apart : Apart tokens) : scan (Utf8.encode text) = tokens := by
  -- on the text: white space is passed over; a token ends where the text behind it does not continue it
  induction h with
  | nil => rw [Utf8.encode_nil, scan.eq_def]
  | space blank more ih =>
    obtain ⟨b, byte, passed, -⟩ := blank.encode
    rw [Utf8.encode_cons, byte]
    exact (scan_blank passed _).trans (ih apart)
  | token spelled more ih =>
    have ends := fun number => ends_of_spells more (apart.1 number)
    rw [Utf8.encode_append, scan_spelling spelled ends, ih apart.2]

/-- What is written for tokens spells them. -/
theorem spells_render {tokens : List Token} (h : Clean tokens) : Spells tokens (render tokens) := by
  induction tokens with
  | nil => exact .nil
  | cons token tokens ih => exact .token (.written h.1) (ih h.2.2)

end RaftJournal.Json.Token
