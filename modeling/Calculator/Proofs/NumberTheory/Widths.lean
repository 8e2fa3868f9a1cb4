import Calculator.Integer
import Calculator.Proofs.NumberTheory.Powers
import Calculator.Proofs.Operator.Words
import Calculator.Proofs.Outcome

/-!
# Remainders and powers in words

The model computes remainders and powers with integers, which have no limit. Here
the same is computed in words: a product is tested against the range of 128 bits
before it is reduced, a result is tested against the range of 64 bits before it is
returned, the exponent is a word that is shifted, and the loop has as many rounds
as a positive word has digits. Whatever goes wrong is a `Lapse`, which is apart
from the errors that are reported.

**No lapse.** The modulus is at most `2 ^ 63`, also that of the least word, so a
product of two reduced factors is below `2 ^ 126` (`mulMod_eq`). Each round of the
loop does the step of repeated squaring and halves the exponent, so the rounds
suffice (`power_eq`).

**Exact.** What is returned is the one number from zero to below the modulus that
is congruent to the argument, or to the power (`IsResidue`). The cases without a
result and all of the above are in `modular_arithmetic_exact`.
-/

set_option autoImplicit false

namespace Calculator

namespace NumberTheory

/-- What a computation in words can run into that one with integers cannot: a value that does not
fit 128 bits, a result that does not fit 64 bits, and a loop that is not done after its rounds. -/
inductive Lapse where
  | wide (value : Int)
  | narrow (value : Int)
  | rounds
deriving DecidableEq, Repr

/-- A computation in words. -/
abbrev InWords (α : Type) := Except (Lapse ⊕ RuntimeError) α

namespace InWords

/-! ## Words of 64 bits -/

/-- The lowest digit of a word is one if the word is odd. -/
theorem and_one_eq_one_iff {e : Int64} : e &&& 1 = 1 ↔ e.toInt % 2 = 1 := by
  have digit : (e &&& 1).toBitVec.toNat = e.toBitVec.toNat % 2 := by
    rw [Int64.toBitVec_and, BitVec.toNat_and]
    exact Nat.and_one_is_mod _
  have sign : e.toInt = e.toBitVec.toNat ∨ e.toInt = e.toBitVec.toNat - 2 ^ 64 := by
    rw [← e.toInt_toBitVec, BitVec.toInt_eq_toNat_cond]
    split
    · exact .inl rfl
    · exact .inr rfl
  rw [← Int64.toBitVec_inj, ← BitVec.toNat_inj, digit]
  change e.toBitVec.toNat % 2 = 1 ↔ _
  omega

/-- Shifting a word to the right by one digit halves it. -/
theorem toInt_shiftRight_one (e : Int64) : (e >>> 1).toInt = e.toInt / 2 := by
  have one : (1 : Int64).toInt = 1 := rfl
  rw [Integer.toInt_shiftRight (by decide) (by decide), one]
  rfl

theorem pos_iff {e : Int64} : 0 < e ↔ 0 < e.toInt := Int64.lt_iff_toInt_lt

/-- The distance of a word from zero. -/
theorem natAbs_toInt_le (m : Int64) : m.toInt.natAbs ≤ 2 ^ 63 := by
  have low := m.le_toInt
  have high := m.toInt_lt
  omega

/-! ## Values that are tested -/

/-- A value that fits 128 bits. -/
def wide (n : Int) : InWords Int :=
  if -2 ^ 127 ≤ n ∧ n < 2 ^ 127 then .ok n else .error (.inl (.wide n))

/-- The word of a value that fits 64 bits. -/
def narrow (n : Int) : InWords Int64 :=
  if Integer.fits n then .ok (Int64.ofInt n) else .error (.inl (.narrow n))

/-- A product, reduced. -/
def mulMod (a b modulus : Int) : InWords Int := do return (← wide (a * b)).tmod modulus

theorem wide_eq {n : Int} (low : -2 ^ 127 ≤ n) (high : n < 2 ^ 127) : wide n = .ok n :=
  if_pos ⟨low, high⟩

theorem narrow_eq {n : Int} (low : -2 ^ 63 ≤ n) (high : n < 2 ^ 63) :
    narrow n = .ok (Int64.ofInt n) :=
  if_pos (Integer.fits_iff.2 ⟨low, high⟩)

/-- The modulus fits. -/
theorem wide_modulus (m : Int64) : wide |m.toInt| = .ok (m.toInt.natAbs : Int) := by
  have limit := natAbs_toInt_le m
  rw [Int.abs_eq_natAbs]
  exact wide_eq (by omega) (by omega)

/-- The product of two reduced factors fits. -/
theorem mulMod_eq {a b modulus : Nat} (small : modulus ≤ 2 ^ 63) (reducedA : a < modulus)
    (reducedB : b < modulus) : mulMod a b modulus = .ok ((a * b % modulus : Nat) : Int) := by
  have product : a * b ≤ 2 ^ 63 * 2 ^ 63 := Nat.mul_le_mul (by omega) (by omega)
  have fits : wide ((a : Int) * b) = .ok ((a * b : Nat) : Int) := by
    rw [← Nat.cast_mul]
    exact wide_eq (by omega) (by omega)
  rw [mulMod, fits]
  exact congrArg Except.ok (Int.ofNat_tmod (a * b) modulus).symm

/-! ## The functions -/

/-- The remainder of `a` in `[0, |m|)`. -/
def modulo (a m : Int64) : InWords Int64 :=
  if m = 0 then .error (.inr (.divisionByZero (.modulus "mod")))
  else do
    let modulus ← wide |m.toInt|
    narrow (a.toInt % modulus)

/-- The result after the lowest digit of the exponent has been used. -/
def useDigit (modulus result base : Int) (exponent : Int64) : InWords Int :=
  if exponent &&& 1 = 1 then mulMod result base modulus else .ok result

/-- Repeated squaring in a number of rounds: `result * base ^ exponent`, reduced. -/
def power (modulus : Int) : Nat → Int → Int → Int64 → InWords Int
  | 0, result, _, exponent => if 0 < exponent then .error (.inl .rounds) else .ok result
  | rounds + 1, result, base, exponent =>
    if 0 < exponent then do
      let result ← useDigit modulus result base exponent
      let base ← mulMod base base modulus
      power modulus rounds result base (exponent >>> 1)
    else .ok result

/-- The remainder of `base ^ exponent` in `[0, |m|)`. -/
def modpow (base exponent m : Int64) : InWords Int64 :=
  if m = 0 then .error (.inr (.divisionByZero (.modulus "modpow")))
  else do
    let modulus ← wide |m.toInt|
    if modulus = 1 then .ok 0
    else if exponent < 0 then .error (.inr (.invalidArgument .negativeExponent))
    else do
      narrow (← power modulus 63 1 (base.toInt % modulus) exponent)

/-- Using a digit of the exponent is the same in words. -/
theorem useDigit_eq {modulus : Nat} {stage : Squaring} {exponent : Int64}
    (small : modulus ≤ 2 ^ 63) (reducedResult : stage.result < modulus)
    (reducedBase : stage.base < modulus) (same : exponent.toInt = stage.exponent) :
    useDigit modulus stage.result stage.base exponent =
      .ok ((stage.next modulus).result : Int) := by
  have odd : exponent &&& 1 = 1 ↔ stage.exponent % 2 = 1 := by
    rw [and_one_eq_one_iff]
    omega
  simp only [useDigit, Squaring.next, odd]
  split
  · exact mulMod_eq small reducedResult reducedBase
  · rfl

/-- Repeated squaring in words goes through the stages of the model, in as many rounds as the
exponent has digits. -/
theorem power_eq {modulus rounds : Nat} (stage : Squaring) {exponent : Int64}
    (small : modulus ≤ 2 ^ 63) (reducedResult : stage.result < modulus)
    (reducedBase : stage.base < modulus) (same : exponent.toInt = stage.exponent)
    (enough : stage.exponent < 2 ^ rounds) :
    power modulus rounds stage.result stage.base exponent =
      .ok (stage.finish modulus : Int) := by
  induction rounds generalizing stage exponent with
  | zero =>
      have done : stage.exponent = 0 := by omega
      rw [power, if_neg (by rw [pos_iff]; omega), Squaring.finish, if_pos done]
  | succ rounds ih =>
      by_cases done : stage.exponent = 0
      · rw [power, if_neg (by rw [pos_iff]; omega), Squaring.finish, if_pos done]
      · have result := useDigit_eq small reducedResult reducedBase same
        have base : mulMod stage.base stage.base modulus = .ok ((stage.next modulus).base : Int) :=
          mulMod_eq small reducedBase reducedBase
        have halved : (exponent >>> 1).toInt = (stage.next modulus).exponent := by
          rw [toInt_shiftRight_one, same]
          rfl
        have fewer : (stage.next modulus).exponent < 2 ^ rounds := by
          simp only [Squaring.next]
          omega
        rw [power, if_pos (by rw [pos_iff]; omega), Squaring.finish, if_neg done]
        refine bind_eq_ok_iff.2 ⟨_, result, bind_eq_ok_iff.2 ⟨_, base, ?_⟩⟩
        exact ih _ (Squaring.result_next_lt reducedResult) (Nat.mod_lt _ (by omega)) halved fewer

theorem modulo_eq (a m : Int64) : modulo a m = (NumberTheory.modulo a m).mapError .inr := by
  rw [modulo, NumberTheory.modulo]
  split
  case isTrue => rfl
  case isFalse nonzero =>
    have modulus := toInt_ne_zero nonzero
    have limit := natAbs_toInt_le m
    have low : 0 ≤ a.toInt % m.toInt.natAbs := Int.emod_nonneg _ (by omega)
    have high : a.toInt % m.toInt.natAbs < m.toInt.natAbs := Int.emod_lt_of_pos _ (by omega)
    rw [wide_modulus]
    exact narrow_eq (by omega) (by omega)

theorem modpow_eq (base exponent m : Int64) :
    modpow base exponent m = (NumberTheory.modpow base exponent m).mapError .inr := by
  simp only [modpow, NumberTheory.modpow]
  split
  case isTrue => rfl
  case isFalse nonzero =>
    have modulus := toInt_ne_zero nonzero
    have limit := natAbs_toInt_le m
    rw [wide_modulus]
    change (if (m.toInt.natAbs : Int) = 1 then _ else _) = _
    by_cases one : m.toInt.natAbs = 1
    · rw [if_pos (by omega), if_pos one]
      rfl
    · rw [if_neg (by omega), if_neg one]
      by_cases negative : exponent < 0
      · rw [if_pos negative, if_pos negative]
        rfl
      · rw [if_neg negative, if_neg negative]
        have low : 0 ≤ base.toInt % m.toInt.natAbs := Int.emod_nonneg _ (by omega)
        have high : base.toInt % m.toInt.natAbs < m.toInt.natAbs := Int.emod_lt_of_pos _ (by omega)
        have nonnegative : 0 ≤ exponent.toInt := by
          rw [Int64.lt_iff_toInt_lt] at negative
          simpa using negative
        have bound := exponent.toInt_lt
        obtain ⟨residue, exact⟩ := Int.eq_ofNat_of_zero_le low
        rw [exact] at high ⊢
        rw [Int.toNat_natCast]
        let start : Squaring := ⟨1, residue, exponent.toInt.toNat⟩
        have reduced : (1 : Nat) < m.toInt.natAbs := by omega
        have looped : power m.toInt.natAbs 63 1 residue exponent =
            .ok (start.finish m.toInt.natAbs : Int) :=
          power_eq start limit reduced (by simp only [start]; omega)
            (by simp only [start]; omega) (by simp only [start]; omega)
        have below : start.finish m.toInt.natAbs < m.toInt.natAbs := by
          rw [Squaring.finish_eq reduced]
          exact Nat.mod_lt _ (by omega)
        have returned : narrow (start.finish m.toInt.natAbs) =
            .ok (Int64.ofInt (start.finish m.toInt.natAbs)) := narrow_eq (by omega) (by omega)
        exact bind_eq_ok_iff.2 ⟨_, looped, returned⟩

end InWords

/-! ## Exact results -/

/-- A number from zero to below `|m|` is congruent to `n` modulo `|m|`, and it is the only one. -/
structure IsResidue (n m r : Int) : Prop where
  nonneg : 0 ≤ r
  below : r < |m|
  congruent : r ≡ n [ZMOD |m|]
  unique : ∀ k, 0 ≤ k → k < |m| → k ≡ n [ZMOD |m|] → k = r

theorem isResidue_emod {m : Int} (nonzero : m ≠ 0) (n : Int) : IsResidue n m (n % m.natAbs) := by
  rw [← Int.abs_eq_natAbs]
  have positive : 0 < |m| := abs_pos.2 nonzero
  refine ⟨Int.emod_nonneg _ positive.ne', Int.emod_lt_of_pos _ positive, Int.mod_modEq _ _, ?_⟩
  intro k nonneg below congruent
  exact (Int.emod_eq_of_lt nonneg below).symm.trans congruent

/-- A remainder is computed for every modulus but zero. -/
theorem exists_modulo {m : Int64} (nonzero : m ≠ 0) (a : Int64) : ∃ r, modulo a m = .ok r := by
  rw [modulo, if_neg nonzero]
  exact ⟨_, rfl⟩

/-- A power is computed for every modulus but zero and every exponent that is not negative. -/
theorem exists_modpow {m exponent : Int64} (nonzero : m ≠ 0) (positive : 0 ≤ exponent)
    (base : Int64) : ∃ r, modpow base exponent m = .ok r := by
  have sign : ¬ exponent < 0 := Int64.not_lt.2 positive
  simp only [modpow, if_neg nonzero, if_neg sign]
  split
  · exact ⟨_, rfl⟩
  · exact ⟨_, rfl⟩

/-- For all words, a remainder and a power are errors just where they should be and the residue
everywhere else. Computed in words, they have the same outcome, so no product is too large, no
result is cut off and the loop ends. -/
theorem modular_arithmetic_exact (a base exponent m : Int64) :
    (m = 0 → modulo a m = .error (.divisionByZero (.modulus "mod")) ∧
      modpow base exponent m = .error (.divisionByZero (.modulus "modpow"))) ∧
    (m ≠ 0 → ∃ r, modulo a m = .ok r ∧ IsResidue a.toInt m.toInt r.toInt) ∧
    (|m.toInt| = 1 → modpow base exponent m = .ok 0) ∧
    (1 < |m.toInt| → exponent < 0 →
      modpow base exponent m = .error (.invalidArgument .negativeExponent)) ∧
    (1 < |m.toInt| → 0 ≤ exponent → ∃ r, modpow base exponent m = .ok r ∧
      IsResidue (base.toInt ^ exponent.toInt.toNat) m.toInt r.toInt) ∧
    InWords.modulo a m = (modulo a m).mapError .inr ∧
    InWords.modpow base exponent m = (modpow base exponent m).mapError .inr := by
  have modulus : 0 < |m.toInt| → m ≠ 0 := by
    rintro positive rfl
    exact absurd positive (by decide)
  refine ⟨?_, fun nonzero => ?_, fun one => ?_, fun large negative => ?_,
    fun large positive => ?_, InWords.modulo_eq a m, InWords.modpow_eq base exponent m⟩
  · rintro rfl
    exact ⟨rfl, rfl⟩
  · obtain ⟨r, computed⟩ := exists_modulo nonzero a
    obtain ⟨nonzero, value⟩ := toInt_modulo computed
    exact ⟨r, computed, value ▸ isResidue_emod nonzero _⟩
  · have nonzero := modulus (by omega)
    rw [Int.abs_eq_natAbs] at one
    simp only [modpow, if_neg nonzero, if_pos (Int.ofNat_inj.1 one)]
  · have nonzero := modulus (by omega)
    rw [Int.abs_eq_natAbs] at large
    have several : m.toInt.natAbs ≠ 1 := by omega
    simp only [modpow, if_neg nonzero, if_neg several, if_pos negative]
  · obtain ⟨r, computed⟩ := exists_modpow (modulus (by omega)) positive base
    obtain ⟨nonzero, value⟩ := toInt_modpow computed
    exact ⟨r, computed, value ▸ isResidue_emod nonzero _⟩

/-- Modulo the least word, -1 and the third power of the greatest word are the greatest word. -/
theorem modular_arithmetic_exact_least :
    (∃ r, modulo (-1) Int64.minValue = .ok r ∧ r = Int64.maxValue ∧
      IsResidue (-1) (-2 ^ 63) (2 ^ 63 - 1)) ∧
    (∃ r, modpow Int64.maxValue 3 Int64.minValue = .ok r ∧ r = Int64.maxValue ∧
      IsResidue ((2 ^ 63 - 1) ^ 3) (-2 ^ 63) (2 ^ 63 - 1)) ∧
    modpow 5 Int64.minValue (-1) = .ok 0 ∧
    modpow 5 (-2) 7 = .error (.invalidArgument .negativeExponent) ∧
    modulo Int64.minValue 0 = .error (.divisionByZero (.modulus "mod")) := by
  refine ⟨?_, ?_, ?_, ?_, ?_⟩
  · have shown : modulo (-1) Int64.minValue = .ok Int64.maxValue := by decide +kernel
    obtain ⟨r, computed, residue⟩ :=
      (modular_arithmetic_exact (-1) 0 0 Int64.minValue).2.1 (by decide)
    obtain rfl : Int64.maxValue = r := Except.ok.inj (shown.symm.trans computed)
    exact ⟨_, shown, rfl, residue⟩
  · have shown : modpow Int64.maxValue 3 Int64.minValue = .ok Int64.maxValue := by decide +kernel
    obtain ⟨r, computed, residue⟩ :=
      (modular_arithmetic_exact 0 Int64.maxValue 3 Int64.minValue).2.2.2.2.1 (by decide) (by decide)
    obtain rfl : Int64.maxValue = r := Except.ok.inj (shown.symm.trans computed)
    exact ⟨_, shown, rfl, residue⟩
  · exact (modular_arithmetic_exact 0 5 Int64.minValue (-1)).2.2.1 (by decide)
  · exact (modular_arithmetic_exact 0 5 (-2) 7).2.2.2.1 (by decide) (by decide)
  · exact ((modular_arithmetic_exact Int64.minValue 0 0 0).1 rfl).1

end NumberTheory

end Calculator
