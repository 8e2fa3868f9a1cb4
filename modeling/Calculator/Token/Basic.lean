import Calculator.Operator.Basic

/-!
# Tokens and lexemes

A token is what a piece of text stands for; a lexeme is a token with the text it was read from
and the byte offset where that text begins.
-/

set_option autoImplicit false

namespace Calculator

/-- What a piece of text stands for. The end of the text is a token of its own. -/
inductive Token where
  | number (value : Float)
  | name (text : String)
  | operator (op : BinaryOperator)
  | leftParen
  | rightParen
  | leftBracket
  | rightBracket
  | comma
  | endOfText
deriving DecidableEq, Repr

/-- A token together with its text and the byte offset of that text. -/
structure Lexeme where
  token : Token
  text : String
  offset : Nat
deriving DecidableEq, Repr

end Calculator
