import Calculator.Proofs.Numeral.Shortest

/-!
# Integers among the numbers

A finite number is an integer when its units are a whole multiple of those of
one (`toInteger?_eq_some_iff`). Such an integer is not rounded: the number nearest
to it is an integer again, and the same one (`toInteger?_ofInt_of_units`).

So rounding keeps every integer that some number is, and every integer up to
`2 ^ 53` is one (`exists_units_eq`), because it fills at most 53 binary digits
once it is scaled.
-/

set_option autoImplicit false

namespace Calculator.Binary64

/-! ## Integers that a number is -/

theorem natAbs_withSignOf (x : Float) (count : Nat) : (withSignOf x count).natAbs = count := by
  rw [withSignOf]
  split <;> omega

theorem natAbs_truncate (x : Float) : (truncate x).natAbs = magnitude x / unitsOfOne :=
  natAbs_withSignOf x _

/-- A number is an integer when it has the sign and the units of that integer. -/
theorem toInteger?_eq_some_iff {x : Float} {n : Int} :
    toInteger? x = some n ↔ pattern x < infinityPattern ∧
      units (pattern x) = n.natAbs * unitsOfOne ∧ withSignOf x n.natAbs = n := by
  have one := unitsOfOne_pos
  constructor
  · intro integer
    rw [toInteger?] at integer
    split at integer
    case isTrue integral =>
      simp only [isIntegral, isFinite, Bool.and_eq_true, decide_eq_true_eq, beq_iff_eq] at integral
      obtain ⟨finite, whole⟩ := integral
      have exact : units (pattern x) / unitsOfOne * unitsOfOne = units (pattern x) :=
        Nat.div_mul_cancel (Nat.dvd_of_mod_eq_zero whole)
      obtain rfl : truncate x = n := Option.some_inj.1 integer
      rw [natAbs_truncate]
      exact ⟨finite, exact.symm, rfl⟩
    case isFalse => cases integer
  · rintro ⟨finite, whole, sign⟩
    have count : magnitude x = n.natAbs * unitsOfOne := whole
    have integral : isIntegral x = true := by
      simp [isIntegral, isFinite, finite, count]
    rw [toInteger?, if_pos integral, truncate, count, Nat.mul_div_cancel _ one, sign]

/-- An integer with the units of a finite pattern is rounded to that pattern. -/
theorem nearest_of_units {bits n : Nat} (finite : bits < infinityPattern)
    (whole : units bits = n * unitsOfOne) : nearest n 1 = bits := by
  calc nearest n 1
      = nearest (unitsOfOne * n) (unitsOfOne * 1) := (nearest_mul_mul unitsOfOne_pos n 1).symm
    _ = nearest (units bits) unitsOfOne := by rw [Nat.mul_one, Nat.mul_comm, whole]
    _ = bits := nearest_units finite

/-- An integer with the units of a finite pattern is not rounded. -/
theorem toInteger?_ofInt_of_units {bits : Nat} {n : Int} (finite : bits < infinityPattern)
    (whole : units bits = n.natAbs * unitsOfOne) : toInteger? (ofInt n) = some n := by
  have built : ofInt n = ofPattern (n < 0) bits := by rw [ofInt, nearest_of_units finite whole]
  rw [toInteger?_eq_some_iff, built, pattern_ofPattern _ _ (Nat.le_of_lt finite)]
  refine ⟨finite, whole, ?_⟩
  rw [withSignOf, isNegative_ofPattern _ _ (Nat.le_of_lt finite)]
  by_cases negative : n < 0
  · rw [if_pos (by simpa using negative)]
    omega
  · rw [if_neg (by simpa using negative)]
    omega

/-- An integer that a number is stays the same when it is rounded. -/
theorem toInteger?_ofInt {x : Float} {n : Int} (integer : toInteger? x = some n) :
    toInteger? (ofInt n) = some n := by
  obtain ⟨finite, whole, -⟩ := toInteger?_eq_some_iff.1 integer
  exact toInteger?_ofInt_of_units finite whole

/-! ## Small integers -/

/-- A pattern of a normal number is worth its significand at its scale. -/
theorem units_of_normal {steps exponent : Nat} (full : 2 ^ 52 ≤ steps) (small : steps < 2 ^ 53) :
    units (exponent * 2 ^ 52 + steps) = steps * 2 ^ exponent := by
  have scaled : scale (exponent * 2 ^ 52 + steps) = exponent := by
    rw [scale]
    omega
  have steps_eq : significand (exponent * 2 ^ 52 + steps) = steps := by
    rw [significand, scaled]
    omega
  rw [units, scaled, steps_eq]

/-- A positive integer up to `2 ^ 53`, scaled far enough, has just 53 binary digits at some
scale. -/
theorem exists_steps_eq {n places : Nat} (positive : 0 < n) (small : n ≤ 2 ^ 53)
    (far : 52 ≤ places) :
    ∃ steps exponent, 2 ^ 52 ≤ steps ∧ steps < 2 ^ 53 ∧ exponent ≤ places + 1 ∧
      steps * 2 ^ exponent = n * 2 ^ places := by
  rcases Nat.lt_or_eq_of_le small with below | rfl
  · have nonzero : n ≠ 0 := by omega
    have low : 2 ^ n.log2 ≤ n := Nat.log2_self_le nonzero
    have high : n < 2 ^ (n.log2 + 1) := (Nat.log2_lt nonzero).1 (Nat.lt_succ_self _)
    have short : n.log2 ≤ 52 := Nat.lt_succ_iff.1 ((Nat.log2_lt nonzero).2 below)
    refine ⟨n * 2 ^ (52 - n.log2), places - (52 - n.log2), ?_, ?_, by omega, ?_⟩
    · calc 2 ^ 52 = 2 ^ n.log2 * 2 ^ (52 - n.log2) := by
            rw [← Nat.pow_add, Nat.add_sub_of_le short]
        _ ≤ n * 2 ^ (52 - n.log2) := Nat.mul_le_mul_right _ low
    · calc n * 2 ^ (52 - n.log2)
          < 2 ^ (n.log2 + 1) * 2 ^ (52 - n.log2) :=
            Nat.mul_lt_mul_of_pos_right high (Nat.two_pow_pos _)
        _ = 2 ^ 53 := by rw [← Nat.pow_add]; congr 1; omega
    · rw [Nat.mul_assoc, ← Nat.pow_add, Nat.add_sub_of_le (by omega)]
  · -- The bound itself has one digit too many, and the last one is zero.
    refine ⟨2 ^ 52, places + 1, Nat.le_refl _, by decide, Nat.le_refl _, ?_⟩
    have double : 2 ^ (places + 1) = 2 ^ places * 2 := Nat.pow_succ 2 places
    rw [double]
    omega

/-- Every integer up to `2 ^ 53` is a number. -/
theorem exists_units_eq {n : Nat} (small : n ≤ 2 ^ 53) :
    ∃ bits < infinityPattern, units bits = n * unitsOfOne := by
  rcases Nat.eq_zero_or_pos n with rfl | positive
  · exact ⟨0, by decide, by rw [units_zero, Nat.zero_mul]⟩
  · obtain ⟨steps, exponent, full, below, bounded, same⟩ :=
      exists_steps_eq positive small (by omega : 52 ≤ 1074)
    refine ⟨exponent * 2 ^ 52 + steps, ?_, (units_of_normal full below).trans same⟩
    rw [infinityPattern]
    omega

/-- Integers up to `2 ^ 53` are not rounded. -/
theorem toInteger?_ofInt_of_small {n : Int} (small : n.natAbs ≤ 2 ^ 53) :
    toInteger? (ofInt n) = some n := by
  obtain ⟨bits, finite, whole⟩ := exists_units_eq small
  exact toInteger?_ofInt_of_units finite whole

end Calculator.Binary64
