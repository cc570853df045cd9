import Mathlib.Data.List.Forall2
import RaftJournal.Command.Outcome
import RaftJournal.Proofs.Entry.Wires
import RaftJournal.Proofs.Storage.Paths

/-! # Lines of standard output

A program prints its lines one after the other with a newline behind each (**`Outcome.stdout`**). A JSON
text is written without control characters, whatever its strings hold (**`Token.le_of_mem_render`**), so
the lines can be told apart again. An outcome **`Prints`** some entries if its lines are read back as
these, one line an entry: **`Outcome.prints_map`**. -/

namespace RaftJournal

namespace Json

theorem digitChar_printed : ∀ n < 16, 32 ≤ (Nat.digitChar n).toNat := by decide

/-- No control character is written for a character of a string. -/
theorem le_of_mem_escape {c d : Char} (mem : d ∈ escape c) : 32 ≤ d.toNat := by
  have short {a b : Char} (mem : d ∈ [a, b]) (high : 32 ≤ a.toNat) (low : 32 ≤ b.toNat) :
      32 ≤ d.toNat := by
    rcases List.mem_pair.mp mem with rfl | rfl
    · exact high
    · exact low
  unfold escape at mem
  split at mem
  -- the short escapes first; what is left is escaped by its number or is no control character
  iterate 7 exact short mem (by decide) (by decide)
  split at mem
  · simp only [List.mem_cons, List.not_mem_nil, or_false] at mem
    rcases mem with rfl | rfl | rfl | rfl | rfl | rfl
    · decide
    · decide
    · decide
    · decide
    · exact digitChar_printed _ (by omega)
    · exact digitChar_printed _ (by omega)
  · rw [List.mem_singleton.mp mem]
    omega

theorem le_of_mem_toDigits {n : Nat} {c : Char} (mem : c ∈ Nat.toDigits 10 n) : 32 ≤ c.toNat := by
  have digit := Decimal.isDigit_of_mem mem
  rw [Decimal.isDigit, Bool.and_eq_true, decide_eq_true_iff, decide_eq_true_iff] at digit
  have low : '0'.toNat ≤ c.toNat := digit.1
  exact Nat.le_trans (by decide) low

theorem le_of_mem_toString {n : Int} {c : Char} (mem : c ∈ (toString n).toList) : 32 ≤ c.toNat := by
  cases n with
  | ofNat n =>
    have text : (toString (Int.ofNat n)).toList = Nat.toDigits 10 n := Nat.toList_repr
    exact le_of_mem_toDigits (text ▸ mem)
  | negSucc n =>
    have text : (toString (Int.negSucc n)).toList = '-' :: Nat.toDigits 10 (n + 1) := by
      show ("-" ++ (n + 1).repr).toList = _
      rw [String.toList_append, Nat.toList_repr]
      rfl
    rw [text] at mem
    rcases List.mem_cons.mp mem with rfl | mem
    · decide
    · exact le_of_mem_toDigits mem

namespace Token

/-- No control character is written for a token. -/
theorem le_of_mem_chars {token : Token} {c : Char} (mem : c ∈ token.chars) : 32 ≤ c.toNat := by
  have marks {cs : List Char} (mem : c ∈ cs) (all : cs.all fun c => 32 ≤ c.toNat) : 32 ≤ c.toNat :=
    of_decide_eq_true (List.all_eq_true.mp all c mem)
  cases token with
  | boolean b => cases b <;> exact marks mem (by decide)
  | number n =>
    cases n with
    | integer n => exact le_of_mem_toString mem
    | floating => exact absurd mem List.not_mem_nil
    | tooLarge => exact absurd mem List.not_mem_nil
  | text content =>
    cases content with
    | error fault => exact absurd mem List.not_mem_nil
    | ok s =>
      rw [chars, quote, List.mem_cons, List.mem_append, List.mem_flatMap, List.mem_singleton] at mem
      rcases mem with rfl | ⟨inner, -, mem⟩ | rfl
      · decide
      · exact le_of_mem_escape mem
      · decide
  | broken lead read skipped => exact absurd mem List.not_mem_nil
  | stray => exact absurd mem List.not_mem_nil
  | _ => exact marks mem (by decide)

/-- **A JSON text is written without control characters.** -/
theorem le_of_mem_render {tokens : List Token} {c : Char} (mem : c ∈ render tokens) :
    32 ≤ c.toNat := by
  obtain ⟨token, -, mem⟩ := List.mem_flatMap.mp mem
  exact le_of_mem_chars mem

end Token

end Json

/-- An entry is printed on one line. -/
theorem Entry.newline_not_mem_print (e : Entry) : '\n' ∉ e.print.toList := by
  intro mem
  rw [print, Json.Format.print, String.toList_ofList] at mem
  exact absurd (Json.Token.le_of_mem_render mem) (by decide)

/-- An entry is read back from its line. -/
theorem Entry.parse_print (e : Entry) : parse e.print = .ok e :=
  Entry.plain.toFaithful.json.parse_print e

namespace Outcome

/-- The text of standard output: the lines, with a newline behind each. -/
def stdout (outcome : Outcome) : List Char := outcome.lines.flatMap fun line => line.toList ++ ['\n']

/-- Between the newlines of standard output are lines that are read back as the entries, one line an
entry, and behind the last newline is nothing. -/
structure Prints (outcome : Outcome) (entries : List Entry) : Prop where
  ended : Parts.split '\n' outcome.stdout = outcome.lines.map String.toList ++ [[]]
  parsed : List.Forall₂ (fun line entry => Entry.parse line = .ok entry) outcome.lines entries

/-- Lines without newlines are the parts of their text. -/
theorem split_stdout {outcome : Outcome} (h : ∀ line ∈ outcome.lines, '\n' ∉ line.toList) :
    Parts.split '\n' outcome.stdout = outcome.lines.map String.toList ++ [[]] := by
  rw [stdout]
  generalize outcome.lines = lines at h ⊢
  induction lines with
  | nil => rfl
  | cons line lines ih =>
    rw [List.flatMap_cons, List.append_assoc, List.singleton_append, Parts.split_append,
      Parts.split_of_not_mem (h line List.mem_cons_self),
      ih fun other mem => h other (List.mem_cons_of_mem _ mem)]
    rfl

/-- **Entries that are printed line by line are read back line by line.** -/
theorem prints_map {outcome : Outcome} {entries : List Entry}
    (lines : outcome.lines = entries.map Entry.print) : outcome.Prints entries := by
  refine ⟨split_stdout ?_, ?_⟩
  · rw [lines]
    intro line mem
    obtain ⟨e, -, rfl⟩ := List.mem_map.mp mem
    exact e.newline_not_mem_print
  · rw [lines, List.forall₂_map_left_iff]
    exact List.forall₂_same.mpr fun e _ => e.parse_print

end Outcome

end RaftJournal
