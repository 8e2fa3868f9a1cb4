import Calculator.Proofs.Numeral.Positional
import Calculator.Token.Lexer
import Mathlib

/-!
# Texts and the pieces they are cut into

`Cuts text rest isCut` says that before `rest` a text is cut off as lexemes of a
kind, at whichever offset it stands. Texts are put together with `Cuts.append`,
where what comes next is part of the statement: a piece ends only where it is
not continued.

The pieces are a mark or an operator, which end on their own, a name, which ends
before any character that is no part of names, and a positional spelling of a
number, which ends before any character that is no part of literals. A blank is
cut off as nothing.
-/

set_option autoImplicit false

namespace Calculator

/-! ## Names -/

namespace Scan

/-- Whether a text is a name. -/
def isName (text : String) : Bool :=
  match text.toList with
  | first :: rest => isNameStart first && rest.all isNameChar
  | [] => false

/-- A name begins with an ASCII letter or an underscore. -/
theorem isNameStart_iff {c : Char} :
    isNameStart c = true ↔ 'a' ≤ c ∧ c ≤ 'z' ∨ 'A' ≤ c ∧ c ≤ 'Z' ∨ c = '_' := by
  simp only [isNameStart, Char.isAlpha, Char.isUpper, Char.isLower, Bool.or_eq_true,
    Bool.and_eq_true, decide_eq_true_eq, beq_iff_eq, Char.le_def, ge_iff_le]
  tauto

/-- It goes on with such characters and decimal digits. -/
theorem isNameChar_iff {c : Char} :
    isNameChar c = true ↔ isNameStart c = true ∨ '0' ≤ c ∧ c ≤ '9' := by
  simp only [isNameChar, isNameStart, Char.isAlphanum, Char.isDigit, Bool.or_eq_true,
    Bool.and_eq_true, decide_eq_true_eq, Char.le_def, ge_iff_le]
  tauto

theorem isName_iff {text : String} : isName text = true ↔ ∃ first rest,
    text.toList = first :: rest ∧ isNameStart first = true ∧ ∀ c ∈ rest, isNameChar c = true := by
  rw [isName]
  cases text.toList with
  | nil => exact iff_of_false Bool.false_ne_true (by simp)
  | cons first rest => simp

end Scan

namespace Lexeme

open Numeral (Positional)

/-- Before `rest`, a text is cut into lexemes that meet `isCut`. -/
def Cuts (text rest : List Char) (isCut : List Lexeme → Prop) : Prop :=
  ∀ offset, ∃ lexemes, isCut lexemes ∧
    ofChars offset (text ++ rest) =
      (ofChars (offset + Text.byteLength text) rest).map (lexemes ++ ·)

/-- A single lexeme with a given token. -/
def One (token : Token) (lexemes : List Lexeme) : Prop :=
  ∃ text offset, lexemes = [⟨token, text, offset⟩]

/-- Lexemes of one kind and then lexemes of another. -/
def Joined (first second : List Lexeme → Prop) (lexemes : List Lexeme) : Prop :=
  ∃ ls rs, first ls ∧ second rs ∧ lexemes = ls ++ rs

/-! ## Putting texts together -/

theorem Cuts.mono {text rest : List Char} {isCut other : List Lexeme → Prop}
    (cuts : Cuts text rest isCut) (weaker : ∀ lexemes, isCut lexemes → other lexemes) :
    Cuts text rest other := by
  intro offset
  obtain ⟨lexemes, kind, cut⟩ := cuts offset
  exact ⟨lexemes, weaker lexemes kind, cut⟩

theorem Cuts.append {text more rest : List Char} {first second : List Lexeme → Prop}
    (before : Cuts text (more ++ rest) first) (after : Cuts more rest second) :
    Cuts (text ++ more) rest (Joined first second) := by
  intro offset
  obtain ⟨ls, firstKind, firstCut⟩ := before offset
  obtain ⟨rs, secondKind, secondCut⟩ := after (offset + Text.byteLength text)
  refine ⟨ls ++ rs, ⟨ls, rs, firstKind, secondKind, rfl⟩, ?_⟩
  rw [List.append_assoc, firstCut, secondCut, Text.byteLength_append, Nat.add_assoc]
  cases ofChars (offset + (Text.byteLength text + Text.byteLength more)) rest with
  | error error => rfl
  | ok later => simp [Except.map]

/-- A whole text is cut into its lexemes and the end of the text. -/
theorem Cuts.ofText {text : List Char} {isCut : List Lexeme → Prop} (cuts : Cuts text [] isCut) :
    ∃ lexemes offset, isCut lexemes ∧
      Lexeme.ofText (String.ofList text) = .ok (lexemes ++ [⟨.endOfText, "", offset⟩]) := by
  obtain ⟨lexemes, kind, cut⟩ := cuts 0
  rw [List.append_nil, ofChars] at cut
  refine ⟨lexemes, 0 + Text.byteLength text, kind, ?_⟩
  rw [Lexeme.ofText, String.toList_ofList, cut]
  rfl

/-! ## Single pieces -/

theorem cuts_blank (rest : List Char) : Cuts [' '] rest (· = []) := by
  intro offset
  refine ⟨[], rfl, ?_⟩
  have width : Text.byteLength [' '] = ' '.utf8Size := rfl
  rw [List.singleton_append, ofChars, if_pos (by rfl : Text.isSeparator ' ' = true), width]
  cases ofChars (offset + ' '.utf8Size) rest with
  | error error => rfl
  | ok later => rfl

/-- A piece is cut off where the scan of what follows takes just its characters. -/
theorem cuts_one {first : Char} {tail rest : List Char} {token : Token}
    (noSeparator : Text.isSeparator first = false)
    (scanned : Scan.ofText first (tail ++ rest) = ⟨tail.length, some token⟩) :
    Cuts (first :: tail) rest (One token) := by
  intro offset
  refine ⟨[⟨token, String.ofList (first :: tail), offset⟩], ⟨_, _, rfl⟩, ?_⟩
  rw [List.cons_append, ofChars, if_neg (by simp [noSeparator])]
  simp only [scanned, List.take_left, List.drop_left]
  cases ofChars (offset + Text.byteLength (first :: tail)) rest with
  | error error => rfl
  | ok later => rfl

theorem cuts_operator (op : BinaryOperator) (rest : List Char) :
    Cuts op.symbol.toList rest (One (.operator op)) := by
  cases op <;> exact cuts_one rfl rfl

theorem cuts_leftParen (rest : List Char) : Cuts ['('] rest (One .leftParen) := cuts_one rfl rfl

theorem cuts_rightParen (rest : List Char) : Cuts [')'] rest (One .rightParen) := cuts_one rfl rfl

theorem cuts_comma (rest : List Char) : Cuts [','] rest (One .comma) := cuts_one rfl rfl

/-! ## Names and numbers -/

theorem isSeparator_eq_false {c : Char} (large : 48 ≤ c.toNat) : Text.isSeparator c = false := by
  by_contra separator
  simp only [Text.isSeparator, Bool.not_eq_false, Bool.or_eq_true, beq_iff_eq] at separator
  rcases separator with ((((rfl | rfl) | rfl) | rfl) | rfl) | rfl <;> revert large <;> decide

theorem large_of_isDigit {c : Char} (digit : c.isDigit = true) : 48 ≤ c.toNat := by
  simp only [Char.isDigit, UInt32.le_iff_toNat_le, Bool.and_eq_true, decide_eq_true_eq] at digit
  exact digit.1

theorem of_isNameStart {c : Char} (start : Scan.isNameStart c = true) :
    58 ≤ c.toNat ∧ c.isDigit = false := by
  have large : 58 ≤ c.toNat := by
    rcases Scan.isNameStart_iff.1 start with ⟨lower, -⟩ | ⟨upper, -⟩ | rfl
    · exact Nat.le_trans (by decide) lower
    · exact Nat.le_trans (by decide) upper
    · decide
  refine ⟨large, ?_⟩
  by_contra digit
  simp [Char.isDigit, UInt32.le_iff_toNat_le] at digit
  omega

/-- A name is cut off before any character that does not continue it. -/
theorem cuts_name {name : String} {rest : List Char} (isName : Scan.isName name = true)
    (closed : ∀ c ∈ rest.head?, Scan.isNameChar c = false) :
    Cuts name.toList rest (One (.name name)) := by
  obtain ⟨first, tail, spelled, start, continues⟩ := Scan.isName_iff.1 isName
  obtain ⟨large, noDigit⟩ := of_isNameStart start
  have noPoint : first ≠ '.' := by
    rintro rfl
    revert large
    decide
  have taken : (tail ++ rest).takeWhile Scan.isNameChar = tail := by
    rw [List.takeWhile_append_of_pos continues]
    cases rest with
    | nil => simp
    | cons c rest => simp [closed c rfl]
  have same : String.ofList (first :: tail) = name := by rw [← spelled, String.ofList_toList]
  rw [spelled]
  refine cuts_one (isSeparator_eq_false (by omega)) ?_
  rw [Scan.ofText, if_neg (by simp [noDigit, noPoint]), if_pos start, Scan.name]
  simp only [taken, same]

/-- A positional spelling is cut off before any character that does not continue a literal. -/
theorem cuts_literal {text rest : List Char} {value : Float} (positional : Positional text)
    (read : Literal.value? text = some value)
    (closed : ∀ c ∈ rest.head?, Literal.isLiteralChar c = false) :
    Cuts text rest (One (.number value)) := by
  obtain ⟨first, tail, rfl, digit⟩ := positional.begins
  have ends : ∀ signed, Literal.extent signed (tail ++ rest) = tail.length := fun signed =>
    Literal.extent_append (fun c member => positional.digits c (List.mem_cons_of_mem _ member))
      closed signed
  refine cuts_one (isSeparator_eq_false (large_of_isDigit digit)) ?_
  rw [Scan.ofText, if_pos (by simp [digit]), Scan.literal]
  simp [ends, read]

end Lexeme

end Calculator
