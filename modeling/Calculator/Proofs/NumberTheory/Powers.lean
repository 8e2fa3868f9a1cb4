import Calculator.NumberTheory
import Mathlib

/-!
# Repeated squaring

A stage of repeated squaring stands for `result * base ^ exponent` modulo the
modulus. The next stage stands for the same (`Squaring.worth_next`): halving the
exponent squares the base, and the digit that is dropped is one more factor of
the result. So the result at the end is what the first stage stands for
(`Squaring.finish_eq`), and a modular power is the remainder of the power
(`toInt_modpow`). A remainder is below the modulus, so it fits a word like the
modulus does.
-/

set_option autoImplicit false

namespace Calculator.NumberTheory

namespace Squaring

/-- What a stage stands for, up to the modulus. -/
def worth (stage : Squaring) : Nat := stage.result * stage.base ^ stage.exponent

/-- The next stage stands for the same. -/
theorem worth_next (modulus : Nat) (stage : Squaring) :
    (stage.next modulus).worth ≡ stage.worth [MOD modulus] := by
  obtain ⟨result, base, exponent⟩ := stage
  have square : (base * base % modulus) ^ (exponent / 2) ≡ base ^ (2 * (exponent / 2))
      [MOD modulus] := by
    rw [Nat.pow_mul, Nat.pow_two]
    exact (Nat.mod_modEq _ _).pow _
  have digits : 2 * (exponent / 2) + exponent % 2 = exponent := Nat.div_add_mod _ _
  simp only [worth, next]
  by_cases odd : exponent % 2 = 1
  · rw [if_pos odd]
    calc result * base % modulus * (base * base % modulus) ^ (exponent / 2)
        ≡ result * base * base ^ (2 * (exponent / 2)) [MOD modulus] :=
          (Nat.mod_modEq _ _).mul square
      _ = result * base ^ exponent := by
          rw [← digits, odd, Nat.mul_assoc, ← Nat.pow_succ']
          congr 2
          omega
  · rw [if_neg odd]
    have even : 2 * (exponent / 2) = exponent := by omega
    rw [even] at square
    exact square.mul_left _

/-- Reduced results stay reduced. -/
theorem result_next_lt {modulus : Nat} {stage : Squaring} (reduced : stage.result < modulus) :
    (stage.next modulus).result < modulus := by
  simp only [next]
  split
  · exact Nat.mod_lt _ (Nat.zero_lt_of_lt reduced)
  · exact reduced

/-- The result at the end is the remainder of what the first stage stands for. -/
theorem finish_eq {modulus : Nat} {stage : Squaring} (reduced : stage.result < modulus) :
    stage.finish modulus = stage.worth % modulus := by
  induction stage using finish.induct modulus with
  | case1 stage done =>
      rw [finish, if_pos done, worth, done, Nat.pow_zero, Nat.mul_one, Nat.mod_eq_of_lt reduced]
  | case2 stage more ih =>
      rw [finish, if_neg more, ih (result_next_lt reduced)]
      exact worth_next modulus stage

end Squaring

/-! ## Remainders of words -/

/-- A remainder by a word fits a word. -/
theorem toInt_ofInt_of_lt {k : Nat} {m : Int64} (below : k < m.toInt.natAbs) :
    (Int64.ofInt k).toInt = k := by
  have low := m.le_toInt
  have high := m.toInt_lt
  exact Int64.toInt_ofInt_of_le (by omega) (by omega)

theorem toInt_ne_zero {m : Int64} (nonzero : m ≠ 0) : m.toInt ≠ 0 := fun zero =>
  nonzero (Int64.toInt_inj.1 zero)

/-- A remainder has a modulus that is not zero. -/
theorem toInt_modulo {a m value : Int64} (computed : modulo a m = .ok value) :
    m.toInt ≠ 0 ∧ value.toInt = a.toInt % m.toInt.natAbs := by
  rw [modulo] at computed
  split at computed
  case isTrue => cases computed
  case isFalse nonzero =>
    cases computed
    have modulus := toInt_ne_zero nonzero
    refine ⟨modulus, ?_⟩
    have low : 0 ≤ a.toInt % m.toInt.natAbs := Int.emod_nonneg _ (by omega)
    have high : a.toInt % m.toInt.natAbs < m.toInt.natAbs := Int.emod_lt_of_pos _ (by omega)
    obtain ⟨k, exact⟩ := Int.eq_ofNat_of_zero_le low
    rw [exact] at high ⊢
    have below : k < m.toInt.natAbs := Int.ofNat_lt.1 high
    exact toInt_ofInt_of_lt below

/-- A modular power has a modulus that is not zero, and is the remainder of the power. -/
theorem toInt_modpow {base exponent m value : Int64}
    (computed : modpow base exponent m = .ok value) :
    m.toInt ≠ 0 ∧ value.toInt = base.toInt ^ exponent.toInt.toNat % m.toInt.natAbs := by
  simp only [modpow] at computed
  split at computed
  case isTrue => cases computed
  case isFalse nonzero =>
    have modulus := toInt_ne_zero nonzero
    refine ⟨modulus, ?_⟩
    split at computed
    case isTrue one =>
      cases computed
      rw [one, Nat.cast_one, Int.emod_one]
      rfl
    case isFalse large =>
      split at computed
      case isTrue => cases computed
      case isFalse =>
        cases computed
        have reduced : 1 < m.toInt.natAbs := by omega
        have residue : ((base.toInt % m.toInt.natAbs).toNat : Int) = base.toInt % m.toInt.natAbs :=
          Int.toNat_of_nonneg (Int.emod_nonneg _ (by omega))
        rw [Squaring.finish_eq reduced, toInt_ofInt_of_lt (Nat.mod_lt _ (by omega)),
          Squaring.worth, Nat.one_mul, Int.natCast_mod, Nat.cast_pow, residue]
        exact (Int.mod_modEq base.toInt m.toInt.natAbs).pow exponent.toInt.toNat

end Calculator.NumberTheory
