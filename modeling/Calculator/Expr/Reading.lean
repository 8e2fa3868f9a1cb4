import Calculator.Expr.Build
import Calculator.Token.Lexer
import Calculator.Yard

/-!
# Reading expressions

A text is cut into lexemes, their order is changed to postorder by the operator yard, and the
expression is built from there.
-/

set_option autoImplicit false

namespace Calculator.Expr

/-- The expression that lexemes spell. -/
def ofLexemes (lexemes : List Lexeme) : Except ParseError Expr := do
  ofPostorder (← Yard.postorder lexemes)

/-- The expression that a text spells. -/
def ofText (text : String) : Except ParseError Expr := do
  ofLexemes (← Lexeme.ofText text)

end Calculator.Expr
