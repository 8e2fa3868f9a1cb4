import Calculator.Error.Basic

/-!
# Numbers used as integers

Integer operations read their operands with the fraction dropped, toward zero, as signed 64-bit
words. Sizes must be whole already and fit an unsigned word. Both limits are tested on the exact
integer.
-/

set_option autoImplicit false

namespace Calculator.Integer

/-- Whether an integer fits a signed 64-bit word. -/
def fits (n : Int) : Bool := -2 ^ 63 ≤ n && n < 2 ^ 63

/-- The integer part of a number, as an operand of `what`. -/
def ofNumber (what : String) (x : Float) : Except RuntimeError Int64 :=
  if !Binary64.isFinite x then .error (.domain (.notFinite what x))
  else
    let n := Binary64.truncate x
    if fits n then .ok (Int64.ofInt n) else .error (.overflow (.integer x what))

/-- The size that a number is, where `what` names the size. -/
def sizeOfNumber (what : String) (x : Float) : Except RuntimeError Nat :=
  match Binary64.toInteger? x with
  | some n =>
    if 0 ≤ n ∧ n ≤ largestCount then .ok n.toNat
    else .error (.invalidArgument (.size what x))
  | none => .error (.invalidArgument (.size what x))

/-- The number nearest to a 64-bit integer. -/
def toNumber (n : Int64) : Float := Binary64.ofInt n.toInt

end Calculator.Integer
