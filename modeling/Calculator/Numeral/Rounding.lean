import Calculator.Numeral.Radix

/-!
# Rounding a quotient of natural numbers

The one rounding rule of this library: to the nearest integer, a half going to the even
neighbour. Binary and decimal rounding both apply it to a suitably scaled quotient.
-/

set_option autoImplicit false

namespace Calculator.Numeral

/-- The integer nearest to `num / den`; a half goes to the even neighbour. -/
def roundHalfEven (num den : Nat) : Nat :=
  let quotient := num / den
  let twice := 2 * (num % den)
  if twice < den then quotient
  else if den < twice then quotient + 1
  else quotient + quotient % 2

/-- An integer is its own rounding. -/
theorem roundHalfEven_one (num : Nat) : roundHalfEven num 1 = num := by
  simp [roundHalfEven, Nat.mod_one]

/-- A whole quotient is its own rounding, however it is scaled. -/
theorem roundHalfEven_mul (q den : Nat) (positive : 0 < den) : roundHalfEven (q * den) den = q := by
  simp [roundHalfEven, Nat.mul_div_cancel _ positive, Nat.mul_mod_left, positive]

end Calculator.Numeral
