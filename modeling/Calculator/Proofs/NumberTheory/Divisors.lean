import Calculator.NumberTheory
import Calculator.Proofs.Guarded.Matrix
import Calculator.Proofs.NumberTheory.Traps
import Mathlib

/-!
# Divisors and multiples

Euclid's algorithm keeps the greatest common divisor of its two numbers, and the
second one vanishes in the end (`euclid_eq`). So `gcd` is the greatest common
divisor for all words, and `lcm`, which divides by it before it multiplies, is the
least common multiple where that fits an unsigned word and reported as an overflow
where it does not (`lcm_eq`).

**In words.** `Trapping.gcd` and `Trapping.lcm` compute the same with unsigned
words, which hold the distance of every signed word from zero, also that of the
least one. The divisor of `lcm` is zero for two zeros only, which are treated
before. Two rounds of Euclid's algorithm halve the second number
(`two_mul_mod_mod_lt`), so 129 rounds are enough for words of 64 digits
(`Trapping.euclid_eq`).
-/

set_option autoImplicit false

namespace Calculator.NumberTheory

open BareMatrix (checkedMul checkedMul_eq)

/-! ## Euclid's algorithm -/

/-- A round keeps the greatest common divisor. -/
theorem gcd_mod (a b : Nat) : Nat.gcd b (a % b) = Nat.gcd a b := by
  rw [Nat.gcd_comm b, ← Nat.gcd_rec, Nat.gcd_comm]

/-- Euclid's algorithm ends with the greatest common divisor. -/
theorem euclid_eq (a b : Nat) : euclid a b = Nat.gcd a b := by
  induction a, b using euclid.induct with
  | case1 a => rw [euclid, if_pos rfl, Nat.gcd_zero_right]
  | case2 a b nonzero ih => rw [euclid, if_neg nonzero, ih, gcd_mod]

theorem gcd_eq (a b : Int64) : gcd a b = Int.gcd a.toInt b.toInt := euclid_eq _ _

/-- The word of an integer is zero if the integer is. -/
theorem natAbs_toInt_eq_zero_iff {a : Int64} : a.toInt.natAbs = 0 ↔ a = 0 := by
  rw [Int.natAbs_eq_zero, ← Int64.toInt_inj]
  rfl

theorem gcd_eq_zero_iff {a b : Int64} : gcd a b = 0 ↔ a = 0 ∧ b = 0 := by
  rw [gcd_eq, Int.gcd, Nat.gcd_eq_zero_iff, natAbs_toInt_eq_zero_iff, natAbs_toInt_eq_zero_iff]

/-! ## The least common multiple -/

/-- A number divided by the greatest common divisor and multiplied again is the least common
multiple. -/
theorem div_gcd_mul (a b : Nat) : a / Nat.gcd a b * b = Nat.lcm a b := by
  rw [Nat.lcm, Nat.div_mul_right_comm (Nat.gcd_dvd_left a b)]

/-- The least common multiple is returned if it fits an unsigned word. -/
theorem lcm_eq (a b : Int64) :
    lcm a b = if Int.lcm a.toInt b.toInt < 2 ^ 64 then .ok (Int.lcm a.toInt b.toInt)
      else .error (.overflow (.leastCommonMultiple a.toInt b.toInt)) := by
  have limit : ∀ n : Nat, n ≤ largestCount ↔ n < 2 ^ 64 := fun n => Nat.lt_succ_iff.symm
  rw [lcm]
  split
  case isTrue zero =>
    have multiple : Int.lcm a.toInt b.toInt = 0 := by
      rw [Int.lcm]
      rcases zero with rfl | rfl
      · exact Nat.lcm_zero_left _
      · exact Nat.lcm_zero_right _
    rw [multiple, if_pos (by decide)]
  case isFalse =>
    have multiple : a.toInt.natAbs / gcd a b * b.toInt.natAbs = Int.lcm a.toInt b.toInt := by
      rw [gcd_eq]
      exact div_gcd_mul _ _
    simp only [multiple, limit]

/-- The two numbers and their least common multiple determine the greatest common divisor. -/
theorem gcd_mul_of_lcm {a b : Int64} {multiple : Nat} (computed : lcm a b = .ok multiple) :
    gcd a b * multiple = a.toInt.natAbs * b.toInt.natAbs := by
  rw [lcm_eq] at computed
  split at computed
  case isTrue =>
    cases computed
    rw [gcd_eq]
    exact Nat.gcd_mul_lcm _ _
  case isFalse => cases computed

/-! ## In words -/

/-- Two rounds of Euclid's algorithm halve the second number. -/
theorem two_mul_mod_mod_lt {b r : Nat} (positive : 0 < r) (below : r < b) : 2 * (b % r) < b := by
  have small : b % r < r := Nat.mod_lt b positive
  have room : r + b % r ≤ b := by
    have whole : r * (b / r) + b % r = b := Nat.div_add_mod b r
    have once : r * 1 ≤ r * (b / r) := Nat.mul_le_mul_left r (Nat.div_pos below.le positive)
    omega
  omega

namespace Trapping

/-- Euclid's algorithm in a number of rounds. -/
def euclid : Nat → UInt64 → UInt64 → Trapping UInt64
  | 0, _, _ => .error .unfinished
  | rounds + 1, a, b => if b = 0 then .ok a else do euclid rounds b (← remainderUnsigned a b)

/-- The greatest common divisor of the distances of two words from zero. -/
def gcd (rounds : Nat) (a b : Int64) : Trapping UInt64 := euclid rounds (magnitude a) (magnitude b)

/-- The least common multiple of the distances of two words from zero. What stops the computation
is told apart from the overflow that is reported. -/
def lcm (rounds : Nat) (a b : Int64) : Except (Trap ⊕ RuntimeError) UInt64 :=
  if a = 0 ∨ b = 0 then .ok 0
  else do
    let divisor ← (gcd rounds a b).mapError .inl
    let reduced ← (quotientUnsigned (magnitude a) divisor).mapError .inl
    match checkedMul reduced (magnitude b) with
    | some multiple => .ok multiple
    | none => .error (.inr (.overflow (.leastCommonMultiple a.toInt b.toInt)))

theorem euclid_zero (rounds : Nat) (a : UInt64) : euclid (rounds + 1) a 0 = .ok a := by
  rw [euclid, if_pos rfl]

/-- A round of Euclid's algorithm. -/
theorem euclid_succ (rounds : Nat) (a : UInt64) {b : UInt64} (nonzero : b ≠ 0) :
    euclid (rounds + 1) a b = euclid rounds b (a % b) := by
  rw [euclid, if_neg nonzero, remainderUnsigned, if_neg nonzero]
  rfl

/-- Euclid's algorithm in words takes at most two rounds for each digit of the second number, and
one to find out that it is zero. -/
theorem exists_euclid {digits extra : Nat} {a b : UInt64} (small : b.toNat < 2 ^ digits) :
    ∃ c, euclid (2 * digits + extra + 1) a b = .ok c ∧ c.toNat = Nat.gcd a.toNat b.toNat := by
  induction digits generalizing a b with
  | zero =>
      obtain rfl : b = 0 := UInt64.toNat_inj.1 (Nat.lt_one_iff.1 small)
      exact ⟨a, euclid_zero _ a, (Nat.gcd_zero_right _).symm⟩
  | succ digits ih =>
      have rounds : 2 * (digits + 1) + extra + 1 = 2 * digits + extra + 1 + 1 + 1 := by omega
      rw [rounds]
      by_cases zero : b = 0
      · subst zero
        exact ⟨a, euclid_zero _ a, (Nat.gcd_zero_right _).symm⟩
      · rw [euclid_succ _ a zero]
        have remainder : (a % b).toNat = a.toNat % b.toNat := UInt64.toNat_mod a b
        rw [← gcd_mod a.toNat, ← remainder]
        by_cases last : a % b = 0
        · rw [last]
          exact ⟨b, euclid_zero _ b, (Nat.gcd_zero_right _).symm⟩
        · rw [euclid_succ _ b last]
          have positive : 0 < (a % b).toNat := Nat.pos_of_ne_zero fun vanishes =>
            last (UInt64.toNat_inj.1 vanishes)
          have below : (a % b).toNat < b.toNat := by
            rw [remainder]
            exact Nat.mod_lt _ (Nat.pos_of_ne_zero fun vanishes =>
              zero (UInt64.toNat_inj.1 vanishes))
          have halved := two_mul_mod_mod_lt positive below
          obtain ⟨c, computed, value⟩ := ih (a := a % b) (b := b % (a % b)) (by
            rw [UInt64.toNat_mod]
            omega)
          refine ⟨c, computed, ?_⟩
          rw [value, UInt64.toNat_mod b, gcd_mod]

/-- The greatest common divisor of two words is computed in words. -/
theorem exists_gcd (a b : Int64) :
    ∃ c, gcd 129 a b = .ok c ∧ c.toNat = NumberTheory.gcd a b := by
  obtain ⟨c, computed, value⟩ :=
    @exists_euclid 64 0 (magnitude a) (magnitude b) (magnitude b).toNat_lt
  rw [toNat_magnitude, toNat_magnitude] at value
  exact ⟨c, computed, value.trans (gcd_eq a b).symm⟩

theorem toNat_gcd (a b : Int64) :
    (gcd 129 a b).map UInt64.toNat = .ok (NumberTheory.gcd a b) := by
  obtain ⟨c, computed, value⟩ := exists_gcd a b
  rw [computed, Except.map, value]

/-- The least common multiple of two words is computed in words, or reported as an overflow. -/
theorem toNat_lcm (a b : Int64) :
    (lcm 129 a b).map UInt64.toNat = (NumberTheory.lcm a b).mapError .inr := by
  rw [lcm, NumberTheory.lcm]
  split
  case isTrue => rfl
  case isFalse nonzero =>
    obtain ⟨divisor, computed, value⟩ := exists_gcd a b
    have divisible : divisor ≠ 0 := by
      rintro rfl
      exact nonzero (.inl (gcd_eq_zero_iff.1 value.symm).1)
    have reduced : quotientUnsigned (magnitude a) divisor = .ok (magnitude a / divisor) :=
      if_neg divisible
    have factor : (magnitude a / divisor).toNat = a.toInt.natAbs / NumberTheory.gcd a b := by
      rw [UInt64.toNat_div, toNat_magnitude, value]
    have product := checkedMul_eq (magnitude a / divisor) (magnitude b)
    rw [factor, toNat_magnitude] at product
    simp only [computed, reduced, Except.mapError, bind, Except.bind]
    cases checked : checkedMul (magnitude a / divisor) (magnitude b) with
    | none =>
        rw [checked] at product
        split at product
        case isTrue => cases product
        case isFalse large => rw [if_neg large]; rfl
    | some multiple =>
        rw [checked] at product
        split at product
        case isTrue fits =>
          rw [if_pos fits, ← Option.some_inj.1 product]
          rfl
        case isFalse => cases product

end Trapping

/-- For all words, the greatest common divisor is computed, and the least common multiple if it is
below `2 ^ 64`; otherwise an overflow is reported. In words they have the same outcome, so the loop
ends, no divisor is zero, and no product wraps around. -/
theorem divisors_and_multiples (a b : Int64) :
    gcd a b = Int.gcd a.toInt b.toInt ∧ (gcd a b = 0 ↔ a = 0 ∧ b = 0) ∧
    lcm a b = (if Int.lcm a.toInt b.toInt < 2 ^ 64 then .ok (Int.lcm a.toInt b.toInt)
      else .error (.overflow (.leastCommonMultiple a.toInt b.toInt))) ∧
    (∀ multiple, lcm a b = .ok multiple →
      gcd a b * multiple = a.toInt.natAbs * b.toInt.natAbs) ∧
    (Trapping.gcd 129 a b).map UInt64.toNat = .ok (gcd a b) ∧
    (Trapping.lcm 129 a b).map UInt64.toNat = (lcm a b).mapError .inr :=
  ⟨gcd_eq a b, gcd_eq_zero_iff, lcm_eq a b, fun _ => gcd_mul_of_lcm, Trapping.toNat_gcd a b,
    Trapping.toNat_lcm a b⟩

/-- The distance of the least word from zero is `2 ^ 63`, a divisor and a multiple of itself; the
least common multiple of -4 and 6 is 12; and that of the two greatest words has 126 digits. -/
theorem divisors_and_multiples_least :
    gcd Int64.minValue 0 = 2 ^ 63 ∧ lcm Int64.minValue Int64.minValue = .ok (2 ^ 63) ∧
    (∃ multiple, lcm (-4) 6 = .ok multiple ∧ multiple = 12 ∧ gcd (-4) 6 * multiple = 4 * 6) ∧
    lcm Int64.maxValue (Int64.maxValue - 1) =
      .error (.overflow (.leastCommonMultiple (2 ^ 63 - 1) (2 ^ 63 - 2))) := by
  refine ⟨?_, ?_, ?_, ?_⟩
  · exact (divisors_and_multiples Int64.minValue 0).1
  · exact (divisors_and_multiples Int64.minValue Int64.minValue).2.2.1
  · have computed : lcm (-4) 6 = .ok 12 := (divisors_and_multiples (-4) 6).2.2.1
    exact ⟨12, computed, rfl, (divisors_and_multiples (-4) 6).2.2.2.1 12 computed⟩
  · exact (divisors_and_multiples Int64.maxValue (Int64.maxValue - 1)).2.2.1

end Calculator.NumberTheory
