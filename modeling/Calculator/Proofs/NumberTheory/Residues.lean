import Calculator.Builtin.Table
import Calculator.Proofs.Binary64.Spacing
import Calculator.Proofs.NumberTheory.Powers
import Calculator.Proofs.Operator.Words

/-!
# Residues as numbers

`mod` and `modpow` compute an exact residue, which lies below the modulus, and
return the number nearest to it. The modulus is a number itself, so the result is
never past it. But it can be the modulus: a residue that is no number is rounded
up to a modulus that stands less than half a spacing above it (`Residue.proper`).

Up to `2 ^ 53` every residue is a number and returned as it is. Beyond, -1 modulo
`2 ^ 53 + 4` is returned as `2 ^ 53 + 4` (`residue_reaches_modulus`).
-/

set_option autoImplicit false

namespace Calculator

open Binary64 (truncate toInteger? ofInt rounded spacing spacing_dvd rounded_lt_iff)
open Integer (Short toNumber)

/-- A result for an exact residue `k` modulo `m`: the integer nearest to `k`, which does not pass
the modulus, and which is below it just if the modulus is further from `k` than half the spacing
below it, or at half the spacing and an odd multiple of it. -/
structure Residue (m : Int) (k : Nat) (r : Float) : Prop where
  below : k < m.natAbs
  value : toInteger? r = some (rounded k : Int)
  bounded : rounded k ≤ m.natAbs
  proper : rounded k < m.natAbs ↔ spacing m.natAbs < 2 * (m.natAbs - k) ∨
    spacing m.natAbs = 2 * (m.natAbs - k) ∧ m.natAbs / spacing m.natAbs % 2 = 1
  kept : m.natAbs ≤ 2 ^ 53 → rounded k = k

/-- A word that is the residue of a number modulo a number is returned as one. -/
theorem exists_residue {m n : Int} {w : Int64} (short : Short m) (nonzero : m ≠ 0)
    (residue : w.toInt = n % m.natAbs) :
    ∃ k : Nat, (k : Int) = n % m.natAbs ∧ Residue m k (toNumber w) := by
  have low : 0 ≤ n % m.natAbs := Int.emod_nonneg _ (by omega)
  have high : n % m.natAbs < m.natAbs := Int.emod_lt_of_pos _ (by omega)
  obtain ⟨k, exact⟩ := Int.eq_ofNat_of_zero_le low
  rw [exact] at residue high
  have below : k < m.natAbs := Int.ofNat_lt.1 high
  obtain ⟨steps, exponent, small, value⟩ := short
  obtain ⟨bounded, proper⟩ := rounded_lt_iff (spacing_dvd small value) below
  refine ⟨k, exact.symm, below, ?_, bounded, proper, fun few => ?_⟩
  · rw [Integer.toInteger?_toNumber, residue, if_neg (by omega), Int.natAbs_natCast]
  · exact Binary64.rounded_of_small (by omega)

/-- What `mod` and `modpow` return for numbers is a residue modulo the integer part of the last one,
which is not zero. -/
theorem modular_results (x e y r : Float) :
    (Builtin.modulo.apply [.number x, .number y] = .ok (.number r) →
      truncate y ≠ 0 ∧ ∃ k : Nat, (k : Int) = truncate x % (truncate y).natAbs ∧
        Residue (truncate y) k r) ∧
    (Builtin.modpow.apply [.number x, .number e, .number y] = .ok (.number r) →
      truncate y ≠ 0 ∧
        ∃ k : Nat, (k : Int) = truncate x ^ (truncate e).toNat % (truncate y).natAbs ∧
          Residue (truncate y) k r) := by
  constructor
  · intro computed
    rw [Builtin.apply, Handler.modulo] at computed
    obtain ⟨a, readA, computed⟩ := bind_eq_ok_iff.1 computed
    obtain ⟨m, readM, computed⟩ := bind_eq_ok_iff.1 computed
    obtain ⟨w, word, returned⟩ := bind_eq_ok_iff.1 computed
    cases returned
    have integerA : a.toInt = truncate x := Integer.toInt_of_ofNumber readA
    have integerM : m.toInt = truncate y := Integer.toInt_of_ofNumber readM
    have residue := NumberTheory.toInt_modulo word
    rw [integerA, integerM] at residue
    exact ⟨residue.1, exists_residue (Integer.short_truncate y) residue.1 residue.2⟩
  · intro computed
    rw [Builtin.apply, Handler.modpow] at computed
    obtain ⟨a, readA, computed⟩ := bind_eq_ok_iff.1 computed
    obtain ⟨exponent, readE, computed⟩ := bind_eq_ok_iff.1 computed
    obtain ⟨m, readM, computed⟩ := bind_eq_ok_iff.1 computed
    obtain ⟨w, word, returned⟩ := bind_eq_ok_iff.1 computed
    cases returned
    have integerA : a.toInt = truncate x := Integer.toInt_of_ofNumber readA
    have integerE : exponent.toInt = truncate e := Integer.toInt_of_ofNumber readE
    have integerM : m.toInt = truncate y := Integer.toInt_of_ofNumber readM
    have residue := NumberTheory.toInt_modpow word
    rw [integerA, integerE, integerM] at residue
    exact ⟨residue.1, exists_residue (Integer.short_truncate y) residue.1 residue.2⟩

/-- The residue of -3 modulo `2 ^ 54 + 4`, which is `2 ^ 54 + 1`, is returned as `2 ^ 54`, and that
of `3 ^ 5` modulo -7 as 5. -/
theorem modular_results_power :
    (∃ r, Builtin.modulo.apply [.number (ofInt (-3)), .number (ofInt (2 ^ 54 + 4))] =
        .ok (.number r) ∧ toInteger? r = some (2 ^ 54) ∧ Residue (2 ^ 54 + 4) (2 ^ 54 + 1) r) ∧
      ∃ r, Builtin.modpow.apply [.number 3, .number 5, .number (ofInt (-7))] =
        .ok (.number r) ∧ toInteger? r = some 5 ∧ Residue (-7) 5 r := by
  constructor
  · have computed : Builtin.modulo.apply [.number (ofInt (-3)), .number (ofInt (2 ^ 54 + 4))] =
        .ok (.number (ofInt (2 ^ 54))) := by decide +kernel
    obtain ⟨-, k, exact, residue⟩ := (modular_results _ 0 _ _).1 computed
    have operands : truncate (ofInt (-3)) = -3 ∧ truncate (ofInt (2 ^ 54 + 4)) = 2 ^ 54 + 4 := by
      decide +kernel
    rw [operands.1, operands.2] at exact
    rw [operands.2] at residue
    obtain rfl : k = 2 ^ 54 + 1 := by
      have remainder : (-3 : Int) % (2 ^ 54 + 4 : Int).natAbs = 2 ^ 54 + 1 := by decide
      omega
    exact ⟨_, computed, by decide +kernel, residue⟩
  · have computed : Builtin.modpow.apply [.number 3, .number 5, .number (ofInt (-7))] =
        .ok (.number (ofInt 5)) := by decide +kernel
    obtain ⟨-, k, exact, residue⟩ := (modular_results _ _ _ _).2 computed
    have operands : truncate 3 = 3 ∧ truncate 5 = 5 ∧ truncate (ofInt (-7)) = -7 := by
      decide +kernel
    rw [operands.1, operands.2.1, operands.2.2] at exact
    rw [operands.2.2] at residue
    obtain rfl : k = 5 := by
      have power : (3 : Int) ^ (5 : Int).toNat % (-7 : Int).natAbs = 5 := by decide
      omega
    exact ⟨_, computed, by decide +kernel, residue⟩

/-- The residue of -1 modulo `2 ^ 53 + 4` is returned as the modulus itself, by `mod` and, as a
first power, by `modpow`. -/
theorem residue_reaches_modulus :
    Builtin.modulo.apply [.number (ofInt (-1)), .number (ofInt (2 ^ 53 + 4))] =
      .ok (.number (ofInt (2 ^ 53 + 4))) ∧
    Builtin.modpow.apply [.number (ofInt (-1)), .number 1, .number (ofInt (2 ^ 53 + 4))] =
      .ok (.number (ofInt (2 ^ 53 + 4))) ∧
    toInteger? (ofInt (2 ^ 53 + 4)) = some (2 ^ 53 + 4) := by
  decide +kernel

end Calculator
