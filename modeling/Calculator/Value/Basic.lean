import Calculator.DenseMatrix.Basic

/-!
# Values

A value is a number, a vector or a matrix. `Value.elements` lists the numbers in a value, a
matrix row by row, and the accessors return the contents of a value of the right type or an error
that names the function that asked.
-/

set_option autoImplicit false

namespace Calculator

/-- What an expression can evaluate to. -/
inductive Value where
  | number (x : Float)
  | vector (xs : List Float)
  | matrix (m : DenseMatrix Float)
deriving DecidableEq

namespace Value

/-- The type of a value. -/
def type : Value → ValueType
  | number _ => .number
  | vector _ => .vector
  | matrix _ => .matrix

/-- Truth as a number: one or zero. -/
def ofBool (b : Bool) : Value := number (if b then 1.0 else 0.0)

/-- The numbers in a value, in order. -/
def elements : Value → List Float
  | number x => [x]
  | vector xs => xs
  | matrix m => m.elements

/-- The number that a value is. -/
def asNumber (function : String) : Value → Except RuntimeError Float
  | number x => .ok x
  | other => .error (.expectedNumber function other.type)

/-- The matrix that a value is. -/
def asMatrix (function : String) : Value → Except RuntimeError (DenseMatrix Float)
  | matrix m => .ok m
  | other => .error (.expectedMatrix function other.type)

/-- The vector that a value is, if it is one. -/
def vector? : Value → Option (List Float)
  | vector xs => some xs
  | _ => none

end Value

end Calculator
