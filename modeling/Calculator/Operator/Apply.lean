import Calculator.Integer
import Calculator.Operator.Basic
import Calculator.Value.Basic

/-!
# What the operators compute

Arithmetic operators compute with binary64 numbers; only a zero divisor of `/` is an error by
itself. The bitwise operators and shifts read both operands as signed 64-bit words; a shift amount
lies between 0 and 63, and a right shift keeps the sign. Applied to values, an operator needs two
numbers, and a result that is not finite is an error.
-/

set_option autoImplicit false

namespace Calculator.BinaryOperator

/-- Whether an operator is computed on words. -/
def isBitwise : BinaryOperator → Bool
  | bitAnd | bitOr | bitXor | shiftLeft | shiftRight => true
  | _ => false

/-- The result of an arithmetic operator. -/
def arithmetic (op : BinaryOperator) (left right : Float) : Except RuntimeError Float :=
  match op with
  | add => .ok (left + right)
  | sub => .ok (left - right)
  | mul => .ok (left * right)
  | div =>
    if right == 0.0 then .error (.divisionByZero (.quotient left)) else .ok (left / right)
  | rem => .ok (Binary64.remainder left right)
  | _ => .error (.unsupported (.notArithmetic op))

/-- The result of a bitwise operator on words. -/
def onWords (op : BinaryOperator) (a b : Int64) : Except RuntimeError Int64 :=
  let shifted (result : Int64) : Except RuntimeError Int64 :=
    if 0 ≤ b.toInt ∧ b.toInt ≤ 63 then .ok result
    else .error (.invalidArgument (.shiftAmount b.toInt))
  match op with
  | bitAnd => .ok (a &&& b)
  | bitOr => .ok (a ||| b)
  | bitXor => .ok (a ^^^ b)
  | shiftLeft => shifted (a <<< b)
  | shiftRight => shifted (a >>> b)
  | _ => .error (.unsupported (.notBitwise op))

/-- The result of a bitwise operator on numbers, read as words. -/
def bitwise (op : BinaryOperator) (left right : Float) : Except RuntimeError Float := do
  let a ← Integer.ofNumber op.symbol left
  let b ← Integer.ofNumber op.symbol right
  return Integer.toNumber (← op.onWords a b)

/-- The result of an operator on two numbers. -/
def onNumbers (op : BinaryOperator) (left right : Float) : Except RuntimeError Float := do
  let result ←
    if op = tilde then .error (.unsupported (.notBinary op))
    else if op.isBitwise then op.bitwise left right
    else op.arithmetic left right
  if Binary64.isFinite result then return result
  else throw (.domain (.operation left op right))

/-- The result of an operator on two values. -/
def apply (op : BinaryOperator) (left right : Value) : Except RuntimeError Value :=
  match left, right with
  | .number a, .number b => (op.onNumbers a b).map .number
  | _, _ => .error (.nonNumericOperands op)

end Calculator.BinaryOperator
