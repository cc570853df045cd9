import RaftJournal.Json.Token
import RaftJournal.Proofs.Json.Numerals
import RaftJournal.Proofs.Json.Quotations

/-! # Tokens are read back

A well-formed token is cut from the front of its text (**`Token.scan_append`**), and a run of tokens
is cut into the same tokens unless two numbers stand side by side: **`Token.scan_render`** for runs
that are **`Token.Clean`**. -/

namespace RaftJournal.Json

namespace Token

/-- A token that has a text of its own. -/
def WellFormed : Token → Prop
  | .number (.integer n) => -(1 <<< 63) ≤ n ∧ n < UInt64.size
  | .number _ => False
  | .text (.ok _) => True
  | .text (.error _) => False
  | .broken _ _ _ => False
  | .stray => False
  | _ => True

/-- A token that runs on until something else starts. -/
def isNumber : Token → Bool
  | .number _ => true
  | _ => false

/-- Tokens that can be written without blanks: each has a text, and no two numbers touch. -/
def Clean : List Token → Prop
  | [] => True
  | token :: rest =>
    token.WellFormed ∧ (token.isNumber → ∀ next ∈ rest.head?, next.isNumber = false) ∧ Clean rest

/-- A single well-formed token can be written. -/
theorem Clean.singleton {token : Token} (formed : token.WellFormed) : Clean [token] :=
  ⟨formed, fun _ next none => absurd none (Option.not_mem_none next), trivial⟩

/-- A token that is no number can stand before any others. -/
theorem Clean.cons {token : Token} {rest : List Token} (formed : token.WellFormed)
    (free : token.isNumber = false) (h : Clean rest) : Clean (token :: rest) := by
  refine ⟨formed, fun number => ?_, h⟩
  rw [free] at number
  cases number

/-- Two runs of tokens can stand side by side if the second does not start with a number. -/
theorem Clean.append {a b : List Token} (ha : Clean a) (hb : Clean b)
    (free : ∀ next ∈ b.head?, next.isNumber = false) : Clean (a ++ b) := by
  induction a with
  | nil => exact hb
  | cons token a ih =>
    obtain ⟨formed, apart, rest⟩ := ha
    refine ⟨formed, fun number next mem => ?_, ih rest⟩
    cases a with
    | nil => exact free next mem
    | cons other a => exact apart number next mem

/-- No two numbers touch. -/
def Apart : List Token → Prop
  | [] => True
  | token :: rest => (token.isNumber → ∀ next ∈ rest.head?, next.isNumber = false) ∧ Apart rest

/-- In what can be written without blanks, no two numbers touch. -/
theorem Clean.apart {tokens : List Token} (h : Clean tokens) : Apart tokens := by
  induction tokens with
  | nil => trivial
  | cons token rest ih => exact ⟨h.2.1, ih h.2.2⟩

theorem Apart.singleton (token : Token) : Apart [token] :=
  ⟨fun _ next none => absurd none (Option.not_mem_none next), trivial⟩

/-- A token that is no number can stand before tokens of any kind. -/
theorem Apart.cons {token : Token} {rest : List Token} (free : token.isNumber = false)
    (h : Apart rest) : Apart (token :: rest) := by
  refine ⟨fun number => ?_, h⟩
  rw [free] at number
  cases number

/-- No two numbers touch where two runs meet if the second does not start with one. -/
theorem Apart.append {a b : List Token} (ha : Apart a) (hb : Apart b)
    (free : ∀ next ∈ b.head?, next.isNumber = false) : Apart (a ++ b) := by
  induction a with
  | nil => exact hb
  | cons token a ih =>
    obtain ⟨apart, rest⟩ := ha
    refine ⟨fun number next mem => ?_, ih rest⟩
    cases a with
    | nil => exact free next mem
    | cons other a => exact apart number next mem

/-! ## words -/

/-- The rest of a word is read up to its end. -/
theorem scanWord_append (word rest : Bytes) : scanWord word (word ++ rest) = .ok rest := by
  induction word with
  | nil => rfl
  | cons w word ih =>
    rw [List.cons_append, scanWord, if_pos rfl, ih]

/-- A reader that goes on behind the rest of a word goes on with what follows it. -/
theorem match_scanWord_append {β : Type} (word rest : Bytes) (found : Bytes → β)
    (missed : Fault → β) :
    (match _h : scanWord word (word ++ rest) with
      | .ok tail => found tail
      | .error fault => missed fault) = found rest := by
  rw [scanWord_append]

/-- `null` is cut from the front. -/
theorem scan_null (rest : Bytes) : scan (110 :: (ull ++ rest)) = .null :: scan rest := by
  rw [scan.eq_def]
  exact match_scanWord_append ull rest (fun tail => .null :: scan tail)
    fun fault => [.broken .null fault fault]

/-- `true` is cut from the front. -/
theorem scan_true (rest : Bytes) : scan (116 :: (rue ++ rest)) = .boolean true :: scan rest := by
  rw [scan.eq_def]
  exact match_scanWord_append rue rest (fun tail => .boolean true :: scan tail)
    fun fault => [.broken .other fault fault]

/-- `false` is cut from the front. -/
theorem scan_false (rest : Bytes) : scan (102 :: (alse ++ rest)) = .boolean false :: scan rest := by
  rw [scan.eq_def]
  exact match_scanWord_append alse rest (fun tail => .boolean false :: scan tail)
    fun fault => [.broken .other fault fault]

/-! ## strings and numbers -/

/-- A quoted text is cut from the front, up to the quotation mark that closes it. -/
theorem scan_text (s : String) (rest : Bytes) :
    scan (34 :: (Utf8.encode (s.toList.flatMap escape) ++ 34 :: rest)) =
      .text (.ok s) :: scan rest := by
  obtain ⟨q, scanned, closed, content, left⟩ := Quotation.scan_quoted s rest
  have token : ofQuotation q = .text (.ok s) := by
    rw [ofQuotation, closed, content]
    rfl
  rw [scan.eq_def]
  simp only [isBlank]
  rw [if_neg (by decide), if_neg (by decide), if_neg (by decide), if_neg (by decide),
    if_neg (by decide), if_neg (by decide), if_neg (by decide), if_pos trivial, scanned, token,
    left]

/-- A minus sign or a digit starts a number and no other token. -/
theorem scan_number {first : UInt8} {n : Numeral} {bytes rest : Bytes}
    (lead : first = 45 ∨ Numeral.isDigit first)
    (scanned : Numeral.scan first bytes = .ok (n, rest)) :
    scan (first :: bytes) = .number n :: scan rest := by
  -- none of the branches before that of numbers is taken
  have other (b : UInt8) (h : ¬ (b = 45 ∨ Numeral.isDigit b)) : first ≠ b := by
    rintro rfl
    exact h lead
  have blank : isBlank first = false := by
    rw [isBlank, decide_eq_false (other 32 (by decide)), decide_eq_false (other 9 (by decide)),
      decide_eq_false (other 10 (by decide)), decide_eq_false (other 13 (by decide))]
    rfl
  rw [scan.eq_def]
  simp only [blank]
  rw [if_neg (by decide), if_neg (other 123 (by decide)), if_neg (other 125 (by decide)),
    if_neg (other 91 (by decide)), if_neg (other 93 (by decide)), if_neg (other 44 (by decide)),
    if_neg (other 58 (by decide)), if_neg (other 34 (by decide)), if_neg (other 110 (by decide)),
    if_neg (other 116 (by decide)), if_neg (other 102 (by decide)), if_pos lead]
  split
  next n' tail found =>
    rw [scanned] at found
    cases found
    rfl
  next fault found =>
    rw [scanned] at found
    cases found

/-! ## runs -/

theorem render_cons (token : Token) (tokens : List Token) :
    render (token :: tokens) = token.chars ++ render tokens := rfl

/-- A well-formed token is cut from the front of its text. -/
theorem scan_append {token : Token} (formed : token.WellFormed) {rest : Bytes}
    (ends : token.isNumber → Numeral.Ends rest) :
    scan (Utf8.encode token.chars ++ rest) = token :: scan rest := by
  -- words, strings and numbers are read by scanners of their own, the marks by their byte
  cases token with
  | null => exact scan_null rest
  | boolean b =>
    cases b with
    | true => exact scan_true rest
    | false => exact scan_false rest
  | number n =>
    cases n with
    | integer n =>
      obtain ⟨first, more, written, lead, scanned⟩ :=
        Numeral.scan_toString formed.1 formed.2 (ends rfl)
      rw [chars, written]
      exact scan_number lead scanned
    | floating => exact absurd formed id
    | tooLarge => exact absurd formed id
  | text content =>
    cases content with
    | ok s =>
      rw [chars, quote, Utf8.encode_cons, Utf8.encode_append, List.append_assoc, List.append_assoc]
      exact scan_text s rest
    | error fault => exact absurd formed id
  | broken lead read skipped => exact absurd formed id
  | stray => exact absurd formed id
  | _ =>
    rw [chars, scan.eq_def]
    rfl

/-- What is written for a token that is no number does not continue a number. -/
theorem ends_of_free {token : Token} (formed : token.WellFormed) (free : token.isNumber = false)
    (rest : Bytes) : Numeral.Ends (Utf8.encode token.chars ++ rest) := by
  intro b mem
  cases token with
  | boolean b' =>
    cases b' <;> (obtain rfl := Option.some.inj mem; decide)
  | number n => cases free
  | text content =>
    cases content with
    | ok s => obtain rfl := Option.some.inj mem; decide
    | error fault => exact absurd formed id
  | broken lead read skipped => exact absurd formed id
  | stray => exact absurd formed id
  | _ => obtain rfl := Option.some.inj mem; decide

/-- **Tokens are read back** from the text that is written for them. -/
theorem scan_render {tokens : List Token} (h : Clean tokens) :
    scan (Utf8.encode (render tokens)) = tokens := by
  induction tokens with
  | nil => rw [render, List.flatMap_nil, Utf8.encode_nil, scan.eq_def]
  | cons token tokens ih =>
    obtain ⟨formed, apart, rest⟩ := h
    -- only a number needs to know what comes after it, and no number does
    have ends : token.isNumber → Numeral.Ends (Utf8.encode (render tokens)) := by
      intro number
      cases tokens with
      | nil => exact fun b mem => by cases mem
      | cons next tokens =>
        rw [render_cons, Utf8.encode_append]
        exact ends_of_free rest.1 (apart number next rfl) _
    rw [render_cons, Utf8.encode_append, scan_append formed ends, ih rest]

end Token

end RaftJournal.Json
