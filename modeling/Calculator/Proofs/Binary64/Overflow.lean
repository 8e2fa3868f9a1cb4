import Calculator.Numeral.Decimal
import Calculator.Proofs.Binary64.Spacing
import Calculator.Proofs.Numeral.Digits
import Mathlib

/-!
# Which decimal numerals are finite

The last finite number is `2 ^ 1024 - 2 ^ 971`, and `2 ^ 1024` would be the next
one at its spacing. A value below the middle of the two is rounded to a finite
number, and the middle itself is rounded up, because the last finite number has
an odd significand (`nearest_lt_infinity_iff`).

A decimal numeral is rounded as a quotient of naturals, unless it has so many or
so few digits before the point that its value is known to be past the limit or
next to zero. Those shortcuts agree with the limit, so a numeral is finite just if
its exact value is below it (`pattern_lt_infinity_iff`).
-/

set_option autoImplicit false

namespace Calculator

namespace Binary64

open Numeral

variable {den : Nat}

/-- A count fills at most 53 binary digits at the scale of its quotient. -/
theorem count_lt (count : Nat) (positive : 0 < den) :
    count < 2 ^ 53 * (den * 2 ^ scaleOf (count / den)) := by
  calc count < 2 ^ (53 + scaleOf (count / den)) * den :=
        (Nat.div_lt_iff_lt_mul positive).1 (lt_scaleOf _)
    _ = 2 ^ 53 * (den * 2 ^ scaleOf (count / den)) := by
        rw [Nat.pow_add, Nat.mul_assoc, Nat.mul_comm den]

/-- Above the smallest scale a count fills 53 digits. -/
theorem le_count {count : Nat} (positive : 0 < den) (scaled : 0 < scaleOf (count / den)) :
    2 ^ 52 * (den * 2 ^ scaleOf (count / den)) ≤ count := by
  have large : 2 ^ 52 ≤ count / den := by
    have nonzero : count / den ≠ 0 := fun zero => by
      rw [zero] at scaled
      exact absurd scaled (by decide)
    rw [scaleOf] at scaled
    exact (Nat.le_log2 nonzero).1 (by omega)
  calc 2 ^ 52 * (den * 2 ^ scaleOf (count / den)) = 2 ^ (52 + scaleOf (count / den)) * den := by
        rw [Nat.pow_add, Nat.mul_assoc, Nat.mul_comm den]
    _ ≤ count := (Nat.le_div_iff_mul_le positive).1 (scaleOf_le large)

/-- The middle above the last finite number, counted in half steps. -/
theorem lt_middle_iff {num top : Nat} (last : top = 970 + 1074) :
    num < (2 ^ 54 - 1) * 2 ^ 970 * den ↔ num * unitsOfOne < (2 ^ 54 - 1) * (den * 2 ^ top) := by
  have middle : (2 ^ 54 - 1) * (den * 2 ^ top) = (2 ^ 54 - 1) * 2 ^ 970 * den * unitsOfOne := by
    rw [last, two_pow_add_unit, Nat.mul_left_comm den, Nat.mul_assoc (2 ^ 54 - 1),
      Nat.mul_assoc (2 ^ 54 - 1), Nat.mul_assoc (2 ^ 970)]
  rw [middle, Nat.mul_lt_mul_right unitsOfOne_pos]

/-- A quotient is rounded to a finite number just if it is below the middle of the last one and the
power of two that would come next. -/
theorem nearest_lt_infinity_iff {num : Nat} (positive : 0 < den) :
    nearest num den < infinityPattern ↔ num < (2 ^ 54 - 1) * 2 ^ 970 * den := by
  obtain ⟨top, last⟩ : ∃ top, top = 970 + 1074 := ⟨_, rfl⟩
  rw [lt_middle_iff last, nearest]
  generalize num * unitsOfOne = count
  have below := count_lt count positive
  have above : 0 < scaleOf (count / den) → _ := le_count positive
  generalize scaleOf (count / den) = exponent at below above ⊢
  have steps : roundHalfEven count (den * 2 ^ exponent) ≤ 2 ^ 53 :=
    roundHalfEven_le (Nat.mul_pos positive (Nat.two_pow_pos _)) (Nat.le_of_lt below)
  rw [infinityPattern]
  rcases Nat.lt_trichotomy exponent (top + 1) with small | rfl | large
  · have step : den * 2 ^ exponent ≤ den * 2 ^ top :=
      Nat.mul_le_mul_left den (Nat.pow_le_pow_right (by decide) (by omega))
    omega
  · -- At the scale of the last finite numbers it depends on rounding up to `2 ^ 53`, which is even.
    have step : den * 2 ^ (top + 1) = 2 * (den * 2 ^ top) := by
      rw [Nat.pow_succ, ← Nat.mul_assoc, Nat.mul_comm]
    have rounds := roundHalfEven_lt_iff below
    rw [step] at below rounds steps ⊢
    omega
  · have step : 4 * (den * 2 ^ top) ≤ den * 2 ^ exponent := by
      calc 4 * (den * 2 ^ top) = den * 2 ^ (top + 2) := by
            rw [Nat.pow_add, Nat.mul_left_comm, Nat.mul_comm 4]
        _ ≤ den * 2 ^ exponent := Nat.mul_le_mul_left den (Nat.pow_le_pow_right (by decide) large)
    have enough := above (by omega)
    have full := le_roundHalfEven (Nat.mul_pos positive (Nat.two_pow_pos _)) enough
    omega

end Binary64

namespace Numeral.Decimal

open Binary64 (nearest infinityPattern nearest_lt_infinity_iff)

/-- The exact value of a decimal numeral. -/
def value (d : Decimal) : ℚ := d.coefficient * 10 ^ d.exponent

/-- The middle between the last finite number and the power of two that would come next. -/
def limit : ℚ := 2 ^ 1024 - 2 ^ 970

/-- A numeral with no shortcut is rounded as a quotient. -/
theorem pattern_eq_nearest {d : Decimal} (nonzero : d.coefficient ≠ 0)
    (low : -330 ≤ digitCount d.coefficient + d.exponent)
    (high : digitCount d.coefficient + d.exponent ≤ 310) :
    d.pattern = nearest (d.coefficient * 10 ^ d.exponent.toNat) (10 ^ (-d.exponent).toNat) := by
  rw [pattern, if_neg (by omega), if_neg (by omega)]
  split
  case isTrue whole => rw [show (-d.exponent).toNat = 0 by omega, Nat.pow_zero]
  case isFalse places => rw [show d.exponent.toNat = 0 by omega, Nat.pow_zero, Nat.mul_one]

theorem value_eq_quotient (d : Decimal) :
    d.value = (d.coefficient * 10 ^ d.exponent.toNat : Nat) / (10 ^ (-d.exponent).toNat : Nat) := by
  have power : (10 : ℚ) ^ d.exponent = 10 ^ d.exponent.toNat / 10 ^ (-d.exponent).toNat := by
    rw [← zpow_natCast, ← zpow_natCast, ← zpow_sub₀ (by norm_num)]
    congr 1
    omega
  rw [value, power, ← mul_div_assoc]
  push_cast
  rfl

theorem limit_eq : limit = ((2 ^ 54 - 1) * 2 ^ 970 : Nat) := by
  have split : (2 : ℚ) ^ 1024 = 2 ^ 54 * 2 ^ 970 := by rw [← pow_add]
  rw [limit, split, ← sub_one_mul, Nat.cast_mul, Nat.cast_pow 2 970]
  norm_num

/-- A numeral is below the power of ten that its digits before the point say. -/
theorem value_lt (d : Decimal) : d.value < 10 ^ (digitCount d.coefficient + d.exponent) := by
  have short : (d.coefficient : ℚ) < 10 ^ digitCount d.coefficient := by
    exact_mod_cast (digitCount_le_iff _ _).1 (Nat.le_refl _)
  rw [value, zpow_add₀ (by norm_num), zpow_natCast]
  exact mul_lt_mul_of_pos_right short (by positivity)

/-- A numeral other than zero is not below a smaller power of ten. -/
theorem le_value {d : Decimal} {k : Int} (nonzero : d.coefficient ≠ 0)
    (few : k < digitCount d.coefficient + d.exponent) : 10 ^ k ≤ d.value := by
  obtain ⟨m, digits⟩ : ∃ m, digitCount d.coefficient = m + 1 := by
    refine Nat.exists_eq_succ_of_ne_zero fun empty => nonzero ?_
    have small := (digitCount_le_iff d.coefficient 0).1 (Nat.le_of_eq empty)
    omega
  have long : 10 ^ m ≤ d.coefficient := by
    rw [← Nat.not_lt, ← digitCount_le_iff]
    omega
  calc (10 : ℚ) ^ k ≤ 10 ^ (m + d.exponent) := zpow_le_zpow_right₀ (by norm_num) (by omega)
    _ = 10 ^ m * 10 ^ d.exponent := by rw [zpow_add₀ (by norm_num), zpow_natCast]
    _ ≤ d.coefficient * 10 ^ d.exponent :=
        mul_le_mul_of_nonneg_right (by exact_mod_cast long) (by positivity)

/-- The limit has 309 digits. -/
theorem limit_bounds : 1 < limit ∧ limit < 10 ^ (310 : Int) := by
  have low : 1 < (2 ^ 54 - 1) * 2 ^ 970 := by decide +kernel
  have high : (2 ^ 54 - 1) * 2 ^ 970 < 10 ^ 310 := by decide +kernel
  have power : ((10 ^ 310 : Nat) : ℚ) = 10 ^ (310 : Int) := by
    rw [Nat.cast_pow, Nat.cast_ofNat, zpow_ofNat]
  rw [limit_eq, ← power]
  exact ⟨by exact_mod_cast low, Nat.cast_lt.2 high⟩

/-- A numeral is finite just if its exact value is below the limit. -/
theorem pattern_lt_infinity_iff (d : Decimal) : d.pattern < infinityPattern ↔ d.value < limit := by
  obtain ⟨low, high⟩ := limit_bounds
  by_cases zero : d.coefficient = 0
  · have small : d.value < limit := by
      rw [value, zero, Nat.cast_zero, zero_mul]
      exact lt_trans one_pos low
    rw [pattern, if_pos (.inl zero)]
    exact iff_of_true (by decide) small
  rcases Int.lt_or_le (digitCount d.coefficient + d.exponent) (-330) with short | enough
  · have small : d.value < limit := by
      calc d.value < 10 ^ (digitCount d.coefficient + d.exponent) := value_lt d
        _ ≤ 10 ^ (0 : Int) := zpow_le_zpow_right₀ (by norm_num) (by omega)
        _ = 1 := zpow_zero _
        _ < limit := low
    rw [pattern, if_pos (.inr short)]
    exact iff_of_true (by decide) small
  rcases Int.lt_or_le 310 (digitCount d.coefficient + d.exponent) with long | fits
  · have large : limit < d.value := by
      calc limit < 10 ^ (310 : Int) := high
        _ ≤ d.value := le_value zero long
    rw [pattern, if_neg (by omega), if_pos long]
    exact iff_of_false (Nat.lt_irrefl _) (not_lt_of_gt large)
  · rw [pattern_eq_nearest zero enough fits, nearest_lt_infinity_iff (Nat.pow_pos (by decide)),
      value_eq_quotient, limit_eq, div_lt_iff₀ (by positivity), ← Nat.cast_mul, Nat.cast_lt]

end Numeral.Decimal

end Calculator
