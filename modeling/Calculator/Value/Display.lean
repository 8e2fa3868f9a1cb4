import Calculator.Base
import Calculator.Integer
import Calculator.Numeral.General
import Calculator.Value.Basic

/-!
# Values as text

A number is shown in the general form with ten significant digits; in a base other than ten a
whole number within the signed 64-bit range is shown as its bit pattern instead. A vector or a
matrix is shown as the list of its elements in the general form with six significant digits, always
in base ten.
-/

set_option autoImplicit false

namespace Calculator

open Numeral (showGeneral)

/-- The significant digits of a number on its own. -/
def numberPrecision : Nat := 10

/-- The significant digits of an element of a vector or a matrix. -/
def elementPrecision : Nat := 6

/-- The integer whose bit pattern stands for a number: a whole number in the signed 64-bit
range. -/
def patternInteger? (x : Float) : Option Int :=
  (Binary64.toInteger? x).filter Integer.fits

/-- A number as text in a base. -/
def showNumber (base : Base) (x : Float) : String :=
  match patternInteger? x with
  | some n =>
    if base = .decimal then showGeneral x numberPrecision
    else String.ofList (base.patternText (n % 2 ^ 64).toNat)
  | none => showGeneral x numberPrecision

/-- Numbers as a bracketed list. -/
def showElements (xs : List Float) : String :=
  "[" ++ String.intercalate ", " (xs.map (showGeneral · elementPrecision)) ++ "]"

namespace Value

/-- A value as text in a base. -/
def display (base : Base) : Value → String
  | number x => showNumber base x
  | vector xs => showElements xs
  | matrix m => showElements m.elements

end Value

end Calculator
