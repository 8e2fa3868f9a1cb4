import Calculator.Numeral.Shortest
import Calculator.Operator.Basic

/-!
# Expressions

An expression is a number, an operator between two expressions, or a named function applied to
a list of expressions. Every node keeps the byte offset of the lexeme it was read from.

`Expr.render` spells an expression with every operation in parentheses. `Expr.postorder` lists
its nodes with the operands of a node before it, in order; a `Node` is what remains of a node
without its operands.
-/

set_option autoImplicit false

namespace Calculator

open Numeral (shortestText)

/-- An expression, with the byte offset of each of its nodes. -/
inductive Expr where
  | number (value : Float) (offset : Nat)
  | binary (op : BinaryOperator) (left right : Expr) (offset : Nat)
  | call (name : String) (arguments : List Expr) (offset : Nat)
deriving Repr

/-- A node of an expression without its operands. -/
inductive Node where
  | number (value : Float) (offset : Nat)
  | operator (op : BinaryOperator) (offset : Nat)
  | call (name : String) (arity : Nat) (offset : Nat)
deriving DecidableEq, Repr

namespace Expr

/-- The byte offset of the node at the root. -/
def offset : Expr → Nat
  | number _ offset => offset
  | binary _ _ _ offset => offset
  | call _ _ offset => offset

/-! ## Spelling -/

mutual
/-- The spelling with every operation in parentheses and the arguments of a call between commas. -/
def render : Expr → List Char
  | number value _ => shortestText value
  | binary op left right _ =>
    '(' :: left.render ++ ' ' :: op.symbol.toList ++ ' ' :: right.render ++ [')']
  | call name arguments _ => name.toList ++ '(' :: renderArguments arguments ++ [')']

/-- The spelling of the arguments of a call. -/
def renderArguments : List Expr → List Char
  | [] => []
  | [argument] => argument.render
  | argument :: others => argument.render ++ ',' :: ' ' :: renderArguments others
end

/-- The spelling as a string. -/
def text (e : Expr) : String := String.ofList e.render

/-! ## Nodes in postorder -/

mutual
/-- The nodes of an expression, each after its operands. -/
def postorder : Expr → List Node
  | number value offset => [.number value offset]
  | binary op left right offset =>
    left.postorder ++ right.postorder ++ [.operator op offset]
  | call name arguments offset =>
    postorderAll arguments ++ [.call name arguments.length offset]

/-- The nodes of several expressions, one expression after the other. -/
def postorderAll : List Expr → List Node
  | [] => []
  | e :: others => e.postorder ++ postorderAll others
end

end Expr

end Calculator
