/-!
# Binary operators

Every operator is left associative. `precedence` says how tightly it binds: the shifts bind
loosest of the operators with a meaning, and `|` binds tightest. `~` is read as an operator too,
below all others, but stands for no operation on two numbers.
-/

set_option autoImplicit false

namespace Calculator

/-- The operators that may stand between two operands. -/
inductive BinaryOperator where
  | add
  | sub
  | mul
  | div
  | rem
  | bitAnd
  | bitOr
  | bitXor
  | shiftLeft
  | shiftRight
  | tilde
deriving DecidableEq, Repr

namespace BinaryOperator

/-- All operators, in the order of their declaration. -/
def all : List BinaryOperator :=
  [add, sub, mul, div, rem, bitAnd, bitOr, bitXor, shiftLeft, shiftRight, tilde]

/-- How tightly an operator binds its operands; a higher number binds tighter. -/
def precedence : BinaryOperator → Nat
  | tilde => 0
  | shiftLeft | shiftRight => 1
  | add | sub => 2
  | mul | div | rem => 3
  | bitAnd => 4
  | bitXor => 5
  | bitOr => 6

/-- How an operator is written. -/
def symbol : BinaryOperator → String
  | add => "+"
  | sub => "-"
  | mul => "*"
  | div => "/"
  | rem => "%"
  | bitAnd => "&"
  | bitOr => "|"
  | bitXor => "^"
  | shiftLeft => "<<"
  | shiftRight => ">>"
  | tilde => "~"

/-- The operator that is written in a given way. -/
def ofSymbol? (text : String) : Option BinaryOperator := all.find? fun op => op.symbol == text

theorem precedence_le (op : BinaryOperator) : op.precedence ≤ 6 := by cases op <;> decide

end BinaryOperator

end Calculator
