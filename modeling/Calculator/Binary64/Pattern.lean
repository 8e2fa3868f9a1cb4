import Calculator.Numeral.Rounding

/-!
# Patterns of binary64 magnitudes

A non-negative binary64 number is named by its bit pattern without the sign bit, read as a
natural number. The pattern of a finite number is `p * 2 ^ 52 + s`: its value is `s` steps of
`2 ^ p` times the smallest positive number, where `s < 2 ^ 53` and `s ≥ 2 ^ 52` unless `p = 0`.
Patterns are ordered as the numbers they name, and the first pattern past the finite ones names
infinity.

Every value is counted in *units*, the multiples of the smallest positive number `2 ^ -1074`. A
unit count is a natural number, so what a pattern means, and which pattern is nearest to a
quotient, is said without rational numbers: `units` gives the count, and `nearest` rounds a
quotient of naturals to the nearest pattern, a half going to the even neighbour.
-/

set_option autoImplicit false

namespace Calculator.Binary64

open Numeral

/-! ## What a pattern is worth -/

/-- The pattern of infinity. Smaller patterns are finite, larger ones are no numbers. -/
def infinityPattern : Nat := 2047 * 2 ^ 52

/-- The power of two that one step of the pattern is worth, counted in units. -/
def scale (pattern : Nat) : Nat := pattern / 2 ^ 52 - 1

/-- The significand of a pattern: how many steps of its scale it holds. -/
def significand (pattern : Nat) : Nat := pattern - scale pattern * 2 ^ 52

/-- The value of a pattern, counted in units of `2 ^ -1074`. -/
def units (pattern : Nat) : Nat := significand pattern * 2 ^ scale pattern

/-- The number one, counted in units. -/
def unitsOfOne : Nat := 2 ^ 1074

theorem units_zero : units 0 = 0 := by decide

/-! ## Rounding a quotient to a pattern -/

/-- The scale at which `count` units fill 53 binary digits, or zero if they never do. -/
def scaleOf (count : Nat) : Nat := count.log2 - 52

/-- The pattern nearest to `num / den`, a half going to the even pattern. The significand is
rounded at its scale; when it rounds up to `2 ^ 53` the sum below is already the pattern of the
next scale, and a value past the finite ones becomes infinity. -/
def nearest (num den : Nat) : Nat :=
  let count := num * unitsOfOne
  let exponent := scaleOf (count / den)
  min (exponent * 2 ^ 52 + roundHalfEven count (den * 2 ^ exponent)) infinityPattern

end Calculator.Binary64
