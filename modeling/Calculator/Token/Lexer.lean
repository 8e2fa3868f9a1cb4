import Calculator.Error.Basic
import Calculator.Text.Blank
import Calculator.Token.Basic
import Calculator.Token.Literal

/-!
# From text to lexemes

Separators are skipped. At any other character the longest lexeme that begins there is taken:
`Scan` holds how many further characters belong to it and the token it is, if it is one. The
sequence ends with a single end-of-text lexeme at the byte length of the text, and the first piece
that is no token ends the reading with an error.
-/

set_option autoImplicit false

namespace Calculator

open Literal (startsWith)

/-- What a text begins with: how many characters after the first belong to the piece, and the
token that the piece is. -/
structure Scan where
  extra : Nat
  token? : Option Token
deriving DecidableEq, Repr

namespace Scan

/-- Whether a character begins a name. -/
def isNameStart (c : Char) : Bool := c.isAlpha || c == '_'

/-- Whether a character continues a name. -/
def isNameChar (c : Char) : Bool := c.isAlphanum || c == '_'

/-- The piece that is a number literal. -/
def literal (first : Char) (rest : List Char) : Scan :=
  let extra := Literal.extent (!Literal.hasRadixMark first rest) rest
  ⟨extra, (Literal.value? (first :: rest.take extra)).map .number⟩

/-- The piece that is a name. -/
def name (first : Char) (rest : List Char) : Scan :=
  let following := rest.takeWhile isNameChar
  ⟨following.length, some (.name (String.ofList (first :: following)))⟩

/-- An operator of one character. -/
def operator (op : BinaryOperator) : Scan := ⟨0, some (.operator op)⟩

/-- An operator of two equal characters, of which the first has been seen. -/
def doubled (mark : Char) (op : BinaryOperator) (rest : List Char) : Scan :=
  if startsWith (· == mark) rest then ⟨1, some (.operator op)⟩ else ⟨0, none⟩

/-- The piece that is an operator or a mark, or no token. -/
def symbol (first : Char) (rest : List Char) : Scan :=
  match first with
  | '+' => operator .add
  | '-' => operator .sub
  | '*' => operator .mul
  | '/' => operator .div
  | '%' => operator .rem
  | '&' => operator .bitAnd
  | '|' => operator .bitOr
  | '^' => operator .bitXor
  | '~' => operator .tilde
  | '<' => doubled '<' .shiftLeft rest
  | '>' => doubled '>' .shiftRight rest
  | '(' => ⟨0, some .leftParen⟩
  | ')' => ⟨0, some .rightParen⟩
  | '[' => ⟨0, some .leftBracket⟩
  | ']' => ⟨0, some .rightBracket⟩
  | ',' => ⟨0, some .comma⟩
  | _ => ⟨0, none⟩

/-- The piece that a text begins with, for a first character that is no separator. -/
def ofText (first : Char) (rest : List Char) : Scan :=
  if first.isDigit || (first == '.' && startsWith Char.isDigit rest) then literal first rest
  else if isNameStart first then name first rest
  else symbol first rest

end Scan

namespace Lexeme

/-- The error for a piece that is no token: a malformed number if it begins like one. -/
def fault (first : Char) (text : List Char) (offset : Nat) : ParseError :=
  if first.isDigit || first == '.' then .malformedNumber (String.ofList text) offset
  else .unexpectedCharacter first offset

/-- The lexemes of a text whose first character has a given byte offset. -/
def ofChars (offset : Nat) : List Char → Except ParseError (List Lexeme)
  | [] => .ok [⟨.endOfText, "", offset⟩]
  | first :: rest =>
    if Text.isSeparator first then ofChars (offset + first.utf8Size) rest
    else
      let scan := Scan.ofText first rest
      let text := first :: rest.take scan.extra
      match scan.token? with
      | none => .error (fault first text offset)
      | some token => do
        let later ← ofChars (offset + Text.byteLength text) (rest.drop scan.extra)
        .ok (⟨token, String.ofList text, offset⟩ :: later)
termination_by text => text.length
decreasing_by
  · simp
  · simp only [List.length_drop, List.length_cons]; omega

/-- The lexemes of a whole text. -/
def ofText (text : String) : Except ParseError (List Lexeme) := ofChars 0 text.toList

end Lexeme

end Calculator
