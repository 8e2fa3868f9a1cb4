import Calculator.Binary64.Conversion
import Calculator.Numeral.Decimal

/-!
# The general form with a number of significant digits

`generalText x precision` rounds the exact value of `x` to `precision` significant digits, a half
going to the even neighbour. With `X` the power of ten of the first digit after rounding, the
form is scientific when `X < -4` or `precision ≤ X` and positional otherwise; the positional form
is rounded after the `precision - 1 - X` places that leave the same digits. Trailing zeros after
a point are dropped, with the point if nothing is left behind it. The exponent has a sign and at
least two digits.
-/

set_option autoImplicit false

namespace Calculator.Numeral

open Binary64

/-- A value rounded to some number of significant digits: those digits as a number, and the power
of ten of the first of them. -/
structure Significant where
  digits : Nat
  leading : Int
deriving DecidableEq, Repr

/-- Rounds a positive quotient to `precision ≥ 1` significant digits. When the digits carry into
a further place, they are a power of ten and lose their last zero. -/
def roundToDigits (num den precision : Nat) : Significant :=
  let leading := leadingExponent num den
  let digits := roundToPlaces num den (precision - 1 - leading)
  if digits = 10 ^ precision then ⟨10 ^ (precision - 1), leading + 1⟩ else ⟨digits, leading⟩

/-- Drops the trailing zeros after a point, and then the point itself. -/
def trimFraction (text : List Char) : List Char :=
  if text.contains '.' then
    ((text.reverse.dropWhile (· == '0')).dropWhile (· == '.')).reverse
  else text

/-- The digits with a point after the first one. -/
def mantissaText (digits : Nat) : List Char :=
  match write 10 digits with
  | first :: second :: rest => first :: '.' :: second :: rest
  | digits => digits

/-- An exponent with its sign and at least two digits. -/
def exponentText (exponent : Int) : List Char :=
  'e' :: (if exponent < 0 then '-' else '+') :: writePadded 10 2 exponent.natAbs

/-- The general form of a positive quotient. -/
def generalDigits (num den precision : Nat) : List Char :=
  let rounded := roundToDigits num den precision
  if rounded.leading < -4 ∨ (precision : Int) ≤ rounded.leading then
    trimFraction (mantissaText rounded.digits) ++ exponentText rounded.leading
  else
    let places := ((precision : Int) - 1 - rounded.leading).toNat
    trimFraction (withPoint places (roundToPlaces num den places))

/-- The general form of a binary64 number; a precision of zero counts as one. -/
def generalText (x : Float) (precision : Nat) : List Char :=
  let sign := if isNegative x then ['-'] else []
  if isNaN x then ['n', 'a', 'n']
  else if isInfinite x then sign ++ ['i', 'n', 'f']
  else if pattern x = 0 then sign ++ ['0']
  else sign ++ generalDigits (magnitude x) unitsOfOne (max precision 1)

/-- The general form as a string. -/
def showGeneral (x : Float) (precision : Nat) : String := String.ofList (generalText x precision)

end Calculator.Numeral
