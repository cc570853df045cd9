import RaftJournal.Text.Unshown

/-! # Quoted text

**`Quoted.quote`** shows a text in an error message: between double quotes, with a backslash before
a quote or a backslash, short escapes for four controls, and `\u{…}` for every other character that
is not shown as it is. -/

namespace RaftJournal.Quoted

/-- One character between quotes. -/
def escape (c : Char) : List Char :=
  match c with
  | '\x00' => ['\\', '0']
  | '\t' => ['\\', 't']
  | '\r' => ['\\', 'r']
  | '\n' => ['\\', 'n']
  | '"' => ['\\', '"']
  | '\\' => ['\\', '\\']
  | _ =>
    if Unshown.isUnshown c then
      ['\\', 'u', '\x7b'] ++ Nat.toDigits 16 c.toNat ++ ['\x7d']
    else [c]

/-- A text between quotes. -/
def quote (text : String) : String :=
  String.ofList ('"' :: (text.toList.flatMap escape ++ ['"']))

end RaftJournal.Quoted
