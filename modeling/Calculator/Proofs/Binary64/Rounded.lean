import Calculator.Proofs.Binary64.Integers

/-!
# What an integer is rounded to

The number nearest to an integer is an integer again, the one that keeps 53
binary digits (`toInteger?_ofInt_rounded`): `rounded` drops the digits behind
them, a half going to the even neighbour, and gives integers of at most 53
digits back as they are.

**The limit of the signed words.** Rounding does not pass a power of two
(`rounded_le_two_pow`), but it reaches one from below. Of the integers below
`2 ^ 63` exactly the last 512 are rounded up to it (`rounded_lt_limit`,
`rounded_eq_limit`): the numbers next to `2 ^ 63` stand 1024 apart below it, and
the half goes up because `2 ^ 53 - 1` is odd.
-/

set_option autoImplicit false

namespace Calculator

/-! ## Bounds of a rounded quotient -/

namespace Numeral

/-- A quotient less than half above an integer is not rounded past it. -/
theorem roundHalfEven_le_of_lt_half {num den k : Nat} (near : 2 * num < (2 * k + 1) * den) :
    roundHalfEven num den ≤ k := by
  have positive : 0 < den := Nat.pos_of_ne_zero fun zero => by
    rw [zero] at near
    omega
  have whole : den * (num / den) + num % den = num := Nat.div_add_mod num den
  have floor : num / den ≤ k := by
    refine Nat.lt_succ_iff.1 ((Nat.div_lt_iff_lt_mul positive).2 ?_)
    have double : (2 * k + 1) * den ≤ 2 * ((k + 1) * den) := by
      calc (2 * k + 1) * den ≤ (2 * (k + 1)) * den := Nat.mul_le_mul_right _ (by omega)
        _ = 2 * ((k + 1) * den) := Nat.mul_assoc ..
    exact Nat.lt_of_mul_lt_mul_left (Nat.lt_of_lt_of_le near double)
  rcases Nat.lt_or_eq_of_le floor with below | top
  · simp only [roundHalfEven]
    split
    · omega
    · split
      · omega
      · omega
  · -- At the integer itself the remainder is less than a half, so nothing is added.
    have small : 2 * (num % den) < den := by
      have split : (2 * k + 1) * den = 2 * (den * k) + den := by
        rw [Nat.add_mul, Nat.one_mul, Nat.mul_assoc, Nat.mul_comm den k]
      rw [top] at whole
      omega
    simp only [roundHalfEven, if_pos small, top, Nat.le_refl]

/-- A quotient up to an integer is not rounded past it. -/
theorem roundHalfEven_le {num den k : Nat} (positive : 0 < den) (bounded : num ≤ k * den) :
    roundHalfEven num den ≤ k := by
  refine roundHalfEven_le_of_lt_half ?_
  rw [Nat.add_mul, Nat.one_mul, Nat.mul_assoc]
  omega

/-- A quotient from an integer on is not rounded below it. -/
theorem le_roundHalfEven {num den k : Nat} (positive : 0 < den) (enough : k * den ≤ num) :
    k ≤ roundHalfEven num den := by
  have floor : k ≤ num / den := (Nat.le_div_iff_mul_le positive).2 enough
  simp only [roundHalfEven]
  split
  · exact floor
  · split
    · omega
    · omega

/-- A quotient from a half above an odd integer on is rounded past it. -/
theorem lt_roundHalfEven_of_half_le {num den k : Nat} (positive : 0 < den) (odd : k % 2 = 1)
    (far : (2 * k + 1) * den ≤ 2 * num) : k < roundHalfEven num den := by
  have whole : den * (num / den) + num % den = num := Nat.div_add_mod num den
  have floor : k ≤ num / den := by
    refine (Nat.le_div_iff_mul_le positive).2 ?_
    rw [Nat.add_mul, Nat.one_mul, Nat.mul_assoc] at far
    omega
  rcases Nat.lt_or_eq_of_le floor with above | same
  · simp only [roundHalfEven]
    split
    · omega
    · split
      · omega
      · omega
  · have half : den ≤ 2 * (num % den) := by
      have split : (2 * k + 1) * den = 2 * (den * k) + den := by
        rw [Nat.add_mul, Nat.one_mul, Nat.mul_assoc, Nat.mul_comm den k]
      rw [← same] at whole
      omega
    simp only [roundHalfEven, if_neg (Nat.not_lt.2 half), ← same]
    split
    · omega
    · omega

end Numeral

namespace Binary64

open Numeral

/-! ## The nearest number -/

/-- The integer with 53 binary digits that is nearest to a natural number; smaller ones stay. -/
def rounded (n : Nat) : Nat := roundHalfEven n (2 ^ scaleOf n) * 2 ^ scaleOf n

/-- A small integer is not rounded. -/
theorem rounded_of_small {n : Nat} (small : n < 2 ^ 53) : rounded n = n := by
  have exponent : scaleOf n = 0 := by
    rw [scaleOf]
    rcases Nat.eq_zero_or_pos n with rfl | positive
    · rfl
    · have short := (Nat.log2_lt (Nat.ne_of_gt positive)).2 small
      omega
  rw [rounded, exponent, Nat.pow_zero, roundHalfEven_one, Nat.mul_one]

/-- Significands up to `2 ^ 53` are worth as much at their scale, the last one at the next. -/
theorem units_of_steps {steps exponent : Nat} (full : 2 ^ 52 ≤ steps) (bounded : steps ≤ 2 ^ 53) :
    units (exponent * 2 ^ 52 + steps) = steps * 2 ^ exponent := by
  rcases Nat.lt_or_eq_of_le bounded with below | rfl
  · exact units_of_normal full below
  · have carried : exponent * 2 ^ 52 + 2 ^ 53 = (exponent + 1) * 2 ^ 52 + 2 ^ 52 := by omega
    rw [carried, units_of_normal (Nat.le_refl _) (by decide), Nat.pow_succ]
    omega

/-- At its scale a number has at most 53 binary digits. -/
theorem lt_scaleOf (n : Nat) : n < 2 ^ (53 + scaleOf n) :=
  Nat.lt_of_lt_of_le Nat.lt_log2_self (Nat.pow_le_pow_right (by decide) (by rw [scaleOf]; omega))

/-- At its scale a number that has as many has at least 53. -/
theorem scaleOf_le {n : Nat} (large : 2 ^ 52 ≤ n) : 2 ^ (52 + scaleOf n) ≤ n := by
  have nonzero : n ≠ 0 := by omega
  rw [scaleOf, Nat.add_sub_of_le ((Nat.le_log2 nonzero).2 large)]
  exact Nat.log2_self_le nonzero

/-- An integer with at least 53 binary digits keeps just 53, and rounding may add one. -/
theorem steps_bounds {n : Nat} (large : 2 ^ 52 ≤ n) :
    2 ^ 52 ≤ roundHalfEven n (2 ^ scaleOf n) ∧ roundHalfEven n (2 ^ scaleOf n) ≤ 2 ^ 53 := by
  have positive : 0 < 2 ^ scaleOf n := Nat.two_pow_pos _
  have low := scaleOf_le large
  have high := Nat.le_of_lt (lt_scaleOf n)
  rw [Nat.pow_add] at low high
  exact ⟨le_roundHalfEven positive low, roundHalfEven_le positive high⟩

theorem log2_mul_two_pow {n : Nat} (nonzero : n ≠ 0) (places : Nat) :
    (n * 2 ^ places).log2 = n.log2 + places := by
  have positive : 0 < 2 ^ places := Nat.two_pow_pos _
  refine (Nat.log2_eq_iff (Nat.mul_ne_zero nonzero (Nat.ne_of_gt positive))).2 ⟨?_, ?_⟩
  · rw [Nat.pow_add]
    exact Nat.mul_le_mul_right _ (Nat.log2_self_le nonzero)
  · rw [Nat.add_right_comm, Nat.pow_add]
    exact Nat.mul_lt_mul_of_pos_right Nat.lt_log2_self positive

theorem two_pow_add_unit (exponent : Nat) : 2 ^ (exponent + 1074) = 2 ^ exponent * unitsOfOne := by
  have split : ∀ places, 2 ^ (exponent + places) = 2 ^ exponent * 2 ^ places :=
    Nat.pow_add 2 exponent
  rw [split, unitsOfOne]

/-- What a pattern is worth has a whole part of at most 53 binary digits, or it is an integer, the
significand with zeros appended. -/
theorem whole_units (bits : Nat) : units bits / unitsOfOne < 2 ^ 53 ∨
    ∃ exponent, units bits = significand bits * 2 ^ exponent * unitsOfOne := by
  rcases Nat.le_total (scale bits) 1074 with fraction | whole
  · refine .inl (Nat.div_lt_of_lt_mul ?_)
    rw [unitsOfOne, Nat.mul_comm]
    exact units_lt fraction
  · obtain ⟨exponent, scaled⟩ := Nat.exists_eq_add_of_le' whole
    refine .inr ⟨exponent, ?_⟩
    rw [units, scaled, two_pow_add_unit, Nat.mul_assoc]

/-- The pattern nearest to an integer with at least 53 binary digits. -/
theorem nearest_of_large {n : Nat} (large : 2 ^ 52 ≤ n) (bounded : n < 2 ^ 64) :
    nearest n 1 = (scaleOf n + 1074) * 2 ^ 52 + roundHalfEven n (2 ^ scaleOf n) := by
  have nonzero : n ≠ 0 := by omega
  have digits : 52 ≤ n.log2 := (Nat.le_log2 nonzero).2 large
  have short : n.log2 < 64 := (Nat.log2_lt nonzero).2 bounded
  have exponent : scaleOf (n * unitsOfOne / 1) = scaleOf n + 1074 := by
    rw [Nat.div_one, unitsOfOne, scaleOf, scaleOf, log2_mul_two_pow nonzero]
    omega
  have steps : roundHalfEven (n * unitsOfOne) (1 * 2 ^ (scaleOf n + 1074)) =
      roundHalfEven n (2 ^ scaleOf n) := by
    rw [Nat.one_mul, two_pow_add_unit, Nat.mul_comm n, Nat.mul_comm (2 ^ scaleOf n)]
    exact roundHalfEven_mul_mul unitsOfOne_pos n (2 ^ scaleOf n)
  obtain ⟨-, high⟩ := steps_bounds large
  simp only [nearest, exponent, steps]
  refine Nat.min_eq_left ?_
  rw [infinityPattern]
  rw [scaleOf] at high ⊢
  omega

/-- The number nearest to an integer is finite and worth the rounded integer. -/
theorem units_nearest {n : Nat} (bounded : n < 2 ^ 64) :
    nearest n 1 < infinityPattern ∧ units (nearest n 1) = rounded n * unitsOfOne := by
  rcases Nat.lt_or_ge n (2 ^ 52) with small | large
  · obtain ⟨bits, finite, whole⟩ := exists_units_eq (n := n) (by omega)
    rw [nearest_of_units finite whole, rounded_of_small (by omega)]
    exact ⟨finite, whole⟩
  · have nonzero : n ≠ 0 := by omega
    have short : n.log2 < 64 := (Nat.log2_lt nonzero).2 bounded
    obtain ⟨low, high⟩ := steps_bounds large
    rw [nearest_of_large large bounded]
    constructor
    · rw [infinityPattern]
      rw [scaleOf] at high ⊢
      omega
    · rw [units_of_steps low high, two_pow_add_unit, ← Nat.mul_assoc, rounded]

/-- The number nearest to an integer is the rounded integer, with the same sign. -/
theorem toInteger?_ofInt_rounded {n : Int} (bounded : n.natAbs < 2 ^ 64) :
    toInteger? (ofInt n) =
      some (if n < 0 then -(rounded n.natAbs : Int) else rounded n.natAbs) := by
  obtain ⟨finite, whole⟩ := units_nearest bounded
  have bits := Nat.le_of_lt finite
  have distance : (if n < 0 then -(rounded n.natAbs : Int) else rounded n.natAbs).natAbs =
      rounded n.natAbs := by
    split
    · rw [Int.natAbs_neg, Int.natAbs_natCast]
    · rw [Int.natAbs_natCast]
  rw [toInteger?_eq_some_iff, distance, ofInt, pattern_ofPattern _ _ bits, withSignOf,
    isNegative_ofPattern _ _ bits]
  refine ⟨finite, whole, ?_⟩
  by_cases negative : n < 0
  · simp [negative]
  · simp [negative]

/-! ## The limit of the signed words -/

/-- Rounding does not pass a power of two. -/
theorem rounded_le_two_pow {n exponent : Nat} (bounded : n ≤ 2 ^ exponent) :
    rounded n ≤ 2 ^ exponent := by
  rcases Nat.eq_zero_or_pos n with rfl | positive
  · exact Nat.zero_le _
  · have low : 2 ^ n.log2 ≤ n := Nat.log2_self_le (Nat.ne_of_gt positive)
    have short : scaleOf n ≤ exponent := by
      have : n.log2 ≤ exponent :=
        (Nat.pow_le_pow_iff_right (by decide : 1 < 2)).1 (Nat.le_trans low bounded)
      rw [scaleOf]
      omega
    have split : 2 ^ exponent = 2 ^ (exponent - scaleOf n) * 2 ^ scaleOf n := by
      rw [← Nat.pow_add, Nat.sub_add_cancel short]
    rw [rounded, split]
    exact Nat.mul_le_mul_right _ (roundHalfEven_le (Nat.two_pow_pos _) (by rwa [← split]))

/-- An integer between `2 ^ 62` and `2 ^ 63` has ten binary digits more than a number keeps. -/
theorem scaleOf_of_limit {n : Nat} (low : 2 ^ 62 ≤ n) (high : n < 2 ^ 63) : scaleOf n = 10 := by
  have log : n.log2 = 62 := (Nat.log2_eq_iff (by omega)).2 ⟨low, high⟩
  rw [scaleOf, log]

/-- Integers that are more than 512 below `2 ^ 63` stay below it. -/
theorem rounded_lt_limit {n : Nat} (far : n < 2 ^ 63 - 512) : rounded n < 2 ^ 63 := by
  rcases Nat.lt_or_ge n (2 ^ 62) with small | large
  · have := rounded_le_two_pow (Nat.le_of_lt small)
    omega
  · have steps : roundHalfEven n (2 ^ 10) ≤ 2 ^ 53 - 1 :=
      roundHalfEven_le_of_lt_half (by omega)
    rw [rounded, scaleOf_of_limit large (by omega)]
    omega

/-- The last 512 integers below `2 ^ 63` are rounded up to it. -/
theorem rounded_eq_limit {n : Nat} (near : 2 ^ 63 - 512 ≤ n) (high : n < 2 ^ 63) :
    rounded n = 2 ^ 63 := by
  have steps : 2 ^ 53 - 1 < roundHalfEven n (2 ^ 10) :=
    lt_roundHalfEven_of_half_le (by decide) (by decide) (by omega)
  have bounded := rounded_le_two_pow (Nat.le_of_lt high)
  rw [rounded, scaleOf_of_limit (by omega) high] at bounded ⊢
  omega

end Binary64

end Calculator
