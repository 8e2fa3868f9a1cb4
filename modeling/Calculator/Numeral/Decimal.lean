import Calculator.Binary64.Pattern
import Calculator.Numeral.Radix

/-!
# Decimal numerals

A decimal numeral is a natural coefficient and a power of ten. `Decimal.pattern` is the binary64
pattern nearest to it, `Decimal.plain` its positional spelling without an exponent, and
`Decimal.read?` reads the literals of the usual grammar: digits with an optional point, at least
one digit on one side of it, and an optional exponent.

The decimal places of a quotient are found and rounded in natural arithmetic: `leadingExponent`
is the power of ten of its first digit, and `roundToPlaces` rounds it after a number of places.
-/

set_option autoImplicit false

namespace Calculator.Numeral

/-- The number `coefficient * 10 ^ exponent`. -/
structure Decimal where
  coefficient : Nat
  exponent : Int
deriving DecidableEq, Repr

/-- How many digits a number has; zero has none. -/
def digitCount (n : Nat) : Nat :=
  if n = 0 then 0 else digitCount (n / 10) + 1
termination_by n
decreasing_by omega

/-! ## Decimal places of a quotient -/

/-- The power of ten of the first digit of `num / den`, for a positive quotient. -/
def leadingExponent (num den : Nat) : Int :=
  if den ≤ num then digitCount (num / den) - 1 else -digitCount ((den - 1) / num)

/-- The integer nearest to `num / den * 10 ^ places`; a half goes to the even neighbour. -/
def roundToPlaces (num den : Nat) (places : Int) : Nat :=
  if 0 ≤ places then roundHalfEven (num * 10 ^ places.toNat) den
  else roundHalfEven num (den * 10 ^ (-places).toNat)

/-- Digits with a point before the last `places` of them, and no point for no places. -/
def withPoint (places n : Nat) : List Char :=
  if places = 0 then write 10 n
  else
    let digits := writePadded 10 (places + 1) n
    let whole := digits.length - places
    digits.take whole ++ '.' :: digits.drop whole

namespace Decimal

/-! ## The nearest binary64 number -/

/-- The binary64 pattern nearest to a decimal numeral, a half going to the even pattern. A
numeral with more than 310 digits before the point is past the finite numbers, and one whose first
digit comes more than 330 places after the point rounds to zero. -/
def pattern (d : Decimal) : Nat :=
  let length : Int := digitCount d.coefficient + d.exponent
  if d.coefficient = 0 ∨ length < -330 then 0
  else if 310 < length then Binary64.infinityPattern
  else if 0 ≤ d.exponent then Binary64.nearest (d.coefficient * 10 ^ d.exponent.toNat) 1
  else Binary64.nearest d.coefficient (10 ^ (-d.exponent).toNat)

/-! ## Spelling -/

/-- The same number with no trailing zero in its coefficient. -/
def strip (d : Decimal) : Decimal :=
  if h : d.coefficient ≠ 0 ∧ d.coefficient % 10 = 0 then
    strip ⟨d.coefficient / 10, d.exponent + 1⟩
  else d
termination_by d.coefficient
decreasing_by omega

/-- The positional spelling: never an exponent, and a point only before decimal places. -/
def plain (d : Decimal) : List Char :=
  if 0 ≤ d.exponent then write 10 (d.coefficient * 10 ^ d.exponent.toNat)
  else withPoint (-d.exponent).toNat d.coefficient

/-! ## Reading -/

/-- The exponent after a mantissa: nothing, or a marker, an optional sign and digits. -/
def readExponent? : List Char → Option Int
  | [] => some 0
  | mark :: rest =>
    if mark = 'e' ∨ mark = 'E' then
      match rest with
      | '+' :: digits => (Numeral.read? 10 digits).map Int.ofNat
      | '-' :: digits => (Numeral.read? 10 digits).map fun n => -Int.ofNat n
      | digits => (Numeral.read? 10 digits).map Int.ofNat
    else none

/-- The digits after a point, and what follows them; without a point there are none. -/
def splitFraction : List Char → List Char × List Char
  | '.' :: rest => (rest.takeWhile Char.isDigit, rest.dropWhile Char.isDigit)
  | rest => ([], rest)

/-- The decimal numeral that a whole text spells: digits with an optional point and an optional
exponent, with at least one digit in the mantissa. -/
def read? (text : List Char) : Option Decimal :=
  let whole := text.takeWhile Char.isDigit
  let (fraction, rest) := splitFraction (text.dropWhile Char.isDigit)
  if whole.isEmpty && fraction.isEmpty then none
  else (readExponent? rest).map fun exponent =>
    ⟨valueOf 10 (whole ++ fraction), exponent - fraction.length⟩

end Decimal

end Calculator.Numeral
