import RaftJournal.Json.Numeral
import RaftJournal.Json.Quotation

/-! # JSON tokens

A JSON text is a run of bytes that **`Token.scan`** cuts into tokens, and **`Token.render`** writes
tokens without any blanks. Cutting never fails: what is wrong inside a string, a number or a word
stays in its token, since only the reader that reaches it can say which fault is the first, and
since a string that is skipped may hold what a string that is read may not. -/

namespace RaftJournal.Json

/-- What a broken token begins like. -/
inductive Lead
  /-- A string. -/
  | text
  /-- The word `null`. -/
  | null
  /-- A number, or another word. -/
  | other
  deriving DecidableEq, Repr

/-- A token of a JSON text. -/
inductive Token
  | leftBrace
  | rightBrace
  | leftBracket
  | rightBracket
  | comma
  | colon
  | null
  | boolean (b : Bool)
  | number (n : Numeral)
  /-- A closed string: its characters, or what is wrong with them. -/
  | text (content : Except Fault String)
  /-- A token that is not well formed: the fault for a reader that wants its value, and the fault
  for one that skips it. -/
  | broken (lead : Lead) (read skipped : Fault)
  /-- A character that starts no token. -/
  | stray

namespace Token

/-! ## cutting -/

/-- White space between tokens. -/
def isBlank (b : UInt8) : Bool := b = 32 || b = 9 || b = 10 || b = 13

/-- Reads the rest of a word. -/
def scanWord : (word : Bytes) → Bytes → Except Fault Bytes
  | [], rest => .ok rest
  | _ :: _, [] => .error .cutValue
  | w :: word, b :: rest => if b = w then scanWord word rest else .error .noWord

/-- The rest of the word `null`. -/
def ull : Bytes := [117, 108, 108]

/-- The rest of the word `true`. -/
def rue : Bytes := [114, 117, 101]

/-- The rest of the word `false`. -/
def alse : Bytes := [97, 108, 115, 101]

/-- The token of a number that is not well formed. -/
def ofBreak : Numeral.Break → Token
  | .cut => .broken .other .cutValue .badNumber
  | .malformed => .broken .other .badNumber .badNumber

/-- The token of a string. -/
def ofQuotation (q : Quotation) : Token :=
  match q.ending.fault?, q.content with
  | some skipped, .error read => .broken .text read skipped
  | some skipped, .ok _ => .broken .text skipped skipped
  | none, content => .text content

theorem length_of_scanWord {word bytes rest : Bytes} (h : scanWord word bytes = .ok rest) :
    rest.length ≤ bytes.length := by
  fun_induction scanWord word bytes with
  | case1 => cases h; exact Nat.le_refl _
  | case2 => cases h
  | case3 w word rest ih =>
    have := ih h
    simp only [List.length_cons]
    omega
  | case4 => cases h

/-- Cuts a run of bytes into tokens, up to the first that is not well formed. -/
def scan (bytes : Bytes) : List Token :=
  match bytes with
  | [] => []
  | b :: rest =>
    if isBlank b then scan rest
    else if b = 123 then .leftBrace :: scan rest
    else if b = 125 then .rightBrace :: scan rest
    else if b = 91 then .leftBracket :: scan rest
    else if b = 93 then .rightBracket :: scan rest
    else if b = 44 then .comma :: scan rest
    else if b = 58 then .colon :: scan rest
    else if b = 34 then
      match ofQuotation (Quotation.scan rest) with
      | .broken lead read skipped => [.broken lead read skipped]
      | token => token :: scan (Quotation.scan rest).rest
    else if b = 110 then
      match _h : scanWord ull rest with
      | .ok rest => .null :: scan rest
      | .error fault => [.broken .null fault fault]
    else if b = 116 then
      match _h : scanWord rue rest with
      | .ok rest => .boolean true :: scan rest
      | .error fault => [.broken .other fault fault]
    else if b = 102 then
      match _h : scanWord alse rest with
      | .ok rest => .boolean false :: scan rest
      | .error fault => [.broken .other fault fault]
    else if b = 45 ∨ Numeral.isDigit b then
      match _h : Numeral.scan b rest with
      | .ok (n, rest) => .number n :: scan rest
      | .error reason => [ofBreak reason]
    else [.stray]
termination_by bytes.length
decreasing_by
  all_goals try (simp only [List.length_cons]; omega)
  · have := Quotation.length_rest_scan rest
    simp only [List.length_cons]
    omega
  · have := length_of_scanWord _h
    simp only [List.length_cons]
    omega
  · have := length_of_scanWord _h
    simp only [List.length_cons]
    omega
  · have := length_of_scanWord _h
    simp only [List.length_cons]
    omega
  · have := Numeral.length_of_scan _h
    simp only [List.length_cons]
    omega

/-! ## writing -/

/-- The characters of a token; only well-formed tokens have any. -/
def chars : Token → List Char
  | .leftBrace => ['\x7b']
  | .rightBrace => ['\x7d']
  | .leftBracket => ['[']
  | .rightBracket => [']']
  | .comma => [',']
  | .colon => [':']
  | .null => ['n', 'u', 'l', 'l']
  | .boolean true => ['t', 'r', 'u', 'e']
  | .boolean false => ['f', 'a', 'l', 's', 'e']
  | .number (.integer n) => (toString n).toList
  | .text (.ok s) => quote s
  | .number _ | .text _ | .broken _ _ _ | .stray => []

/-- Writes tokens without blanks between them. -/
def render (tokens : List Token) : List Char := tokens.flatMap chars

end Token

end RaftJournal.Json
