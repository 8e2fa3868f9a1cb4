import Calculator.Numeral.General
import Calculator.Proofs.Numeral.Digits
import Mathlib

/-!
# Significant digits

A value is rounded to some number of significant digits at the power of ten of its
first digit (`RoundsTo`): the digits are the integer nearest to the value at that
scale, the even one of two (`NearestEven`). Rounding may carry into one more place.
The digits then are a power of ten, so they lose their last zero and the leading
exponent grows by one (`roundsTo_roundToDigits`).

The exponent after rounding says after which place the value is rounded in
positional form. With a carry that is one place fewer than the digits were found
with. Both roundings give one decimal nevertheless (`roundToPlaces_leading`): what
carries lies within half a step below a power of ten, so it is within a twentieth
of a step at the coarser scale, where that power is an integer.
-/

set_option autoImplicit false

namespace Calculator.Numeral

variable {num den precision : Nat}

/-! ## Nearest integers -/

/-- The integer nearest to a value; of two, the even one. -/
structure NearestEven (v : ℚ) (n : Nat) : Prop where
  near : |v - n| ≤ 1 / 2
  even : |v - n| = 1 / 2 → n % 2 = 0

theorem NearestEven.unique {v : ℚ} {n m : Nat} (first : NearestEven v n)
    (second : NearestEven v m) : n = m := by
  by_contra distinct
  wlog less : n < m generalizing n m
  · exact this second first (Ne.symm distinct) (by omega)
  obtain ⟨-, high⟩ := abs_le.1 first.near
  obtain ⟨low, -⟩ := abs_le.1 second.near
  have step : (n : ℚ) + 1 ≤ m := by exact_mod_cast less
  -- Both are a half away, so they are neighbours, and not both are even.
  have middle : v - n = 1 / 2 := by linarith
  have middle' : v - m = -(1 / 2) := by linarith
  have next : (m : ℚ) = (n + 1 : Nat) := by
    push_cast
    linarith
  have evenN := first.even (by rw [middle]; norm_num)
  have evenM := second.even (by rw [middle']; norm_num)
  have neighbours : m = n + 1 := by exact_mod_cast next
  omega

/-- A nearest integer is at least every integer that the value is at least. -/
theorem NearestEven.le {v : ℚ} {n k : Nat} (nearest : NearestEven v n) (low : (k : ℚ) ≤ v) :
    k ≤ n := by
  have high := (abs_le.1 nearest.near).2
  have below : (k : ℚ) < n + 1 := by linarith
  exact Nat.lt_succ_iff.1 (by exact_mod_cast below)

theorem NearestEven.ge {v : ℚ} {n k : Nat} (nearest : NearestEven v n) (high : v ≤ k) :
    n ≤ k := by
  have low := (abs_le.1 nearest.near).1
  have below : (n : ℚ) < k + 1 := by linarith
  exact Nat.lt_succ_iff.1 (by exact_mod_cast below)

theorem nearestEven_of_lt_half {part : ℚ} (whole : Nat) (nonneg : 0 ≤ part)
    (below : part < 1 / 2) : NearestEven (whole + part) whole := by
  have distance : |(whole : ℚ) + part - whole| = part := by
    rw [add_sub_cancel_left, abs_of_nonneg nonneg]
  refine ⟨?_, fun tie => ?_⟩
  · rw [distance]
    exact le_of_lt below
  · rw [distance] at tie
    exact absurd tie (ne_of_lt below)

theorem nearestEven_of_half_lt {part : ℚ} (whole : Nat) (above : 1 / 2 < part)
    (small : part < 1) : NearestEven (whole + part) (whole + 1) := by
  have distance : |(whole : ℚ) + part - (whole + 1 : Nat)| = 1 - part := by
    rw [Nat.cast_add, Nat.cast_one, abs_of_nonpos (by linarith)]
    ring
  refine ⟨?_, fun tie => ?_⟩
  · rw [distance]
    linarith
  · rw [distance] at tie
    linarith

theorem nearestEven_half (whole : Nat) : NearestEven (whole + 1 / 2) (whole + whole % 2) := by
  refine ⟨?_, fun _ => by omega⟩
  rcases Nat.mod_two_eq_zero_or_one whole with even | odd
  · rw [even, Nat.add_zero, add_sub_cancel_left]
    norm_num
  · rw [odd, Nat.cast_add, add_sub_add_left_eq_sub]
    norm_num

/-- Rounding a quotient gives its nearest integer. -/
theorem nearestEven_roundHalfEven (num : Nat) (positive : 0 < den) :
    NearestEven (num / den) (roundHalfEven num den) := by
  have divisor : (0 : ℚ) < den := by exact_mod_cast positive
  have split : (num : ℚ) / den = (num / den : Nat) + (num % den : Nat) / den := by
    have whole : (num : ℚ) = den * (num / den : Nat) + (num % den : Nat) := by
      exact_mod_cast (Nat.div_add_mod num den).symm
    rw [div_eq_iff (ne_of_gt divisor), add_mul, div_mul_cancel₀ _ (ne_of_gt divisor), mul_comm]
    exact whole
  have rest : num % den < den := Nat.mod_lt num positive
  rw [roundHalfEven, split]
  rcases Nat.lt_trichotomy (2 * (num % den)) den with less | half | more
  · have below : ((num % den : Nat) : ℚ) / den < 1 / 2 := by
      rw [div_lt_div_iff₀ divisor two_pos]
      exact_mod_cast (by omega : num % den * 2 < 1 * den)
    simp only [if_pos less]
    exact nearestEven_of_lt_half _ (by positivity) below
  · have middle : ((num % den : Nat) : ℚ) / den = 1 / 2 := by
      rw [div_eq_div_iff (ne_of_gt divisor) two_ne_zero]
      exact_mod_cast (by omega : num % den * 2 = 1 * den)
    have exact : ¬ 2 * (num % den) < den ∧ ¬ den < 2 * (num % den) := by omega
    simp only [if_neg exact.1, if_neg exact.2, middle]
    exact nearestEven_half _
  · have above : 1 / 2 < ((num % den : Nat) : ℚ) / den := by
      rw [div_lt_div_iff₀ two_pos divisor]
      exact_mod_cast (by omega : 1 * den < num % den * 2)
    have small : ((num % den : Nat) : ℚ) / den < 1 := by
      rw [div_lt_one divisor]
      exact_mod_cast rest
    simp only [if_neg (by omega : ¬ 2 * (num % den) < den), if_pos more]
    exact nearestEven_of_half_lt _ above small

/-- Rounding after a number of decimal places gives the nearest integer at that scale. -/
theorem nearestEven_roundToPlaces (num : Nat) (positive : 0 < den) (places : Int) :
    NearestEven (num / den * 10 ^ places) (roundToPlaces num den places) := by
  rw [roundToPlaces]
  split
  case isTrue behind =>
    have scaled : (num : ℚ) / den * 10 ^ places = (num * 10 ^ places.toNat : Nat) / den := by
      obtain ⟨count, rfl⟩ := Int.eq_ofNat_of_zero_le behind
      rw [zpow_natCast, Int.toNat_natCast, Nat.cast_mul, Nat.cast_pow, Nat.cast_ofNat,
        mul_div_right_comm]
    rw [scaled]
    exact nearestEven_roundHalfEven _ positive
  case isFalse before =>
    have scaled : (num : ℚ) / den * 10 ^ places = num / (den * 10 ^ (-places).toNat : Nat) := by
      obtain ⟨count, negative⟩ := Int.eq_ofNat_of_zero_le (by omega : 0 ≤ -places)
      obtain rfl : places = -count := by omega
      rw [zpow_neg, zpow_natCast, neg_neg, Int.toNat_natCast, Nat.cast_mul, Nat.cast_pow,
        Nat.cast_ofNat, div_mul_eq_div_div, div_eq_mul_inv (_ / _)]
    rw [scaled]
    exact nearestEven_roundHalfEven _ (Nat.mul_pos positive (Nat.pow_pos (by decide)))

/-! ## The first digit -/

/-- A positive number lies between the powers of ten that its length says. -/
theorem digitCount_bounds {n : Nat} (positive : 0 < n) :
    ∃ count, digitCount n = count + 1 ∧ 10 ^ count ≤ n ∧ n < 10 ^ (count + 1) := by
  refine ⟨digitCount (n / 10), digitCount_of_pos positive, ?_, ?_⟩
  · rw [← Nat.not_lt, ← digitCount_le_iff, digitCount_of_pos positive]
    omega
  · rw [← digitCount_le_iff, digitCount_of_pos positive]

/-- The power of ten of the first digit is the greatest that is not above the quotient. -/
theorem leadingExponent_bounds (nonzero : 0 < num) (positive : 0 < den) :
    (10 : ℚ) ^ leadingExponent num den ≤ num / den ∧
      (num : ℚ) / den < 10 ^ (leadingExponent num den + 1) := by
  have divisor : (0 : ℚ) < den := by exact_mod_cast positive
  rw [leadingExponent]
  split
  case isTrue large =>
    -- The quotient has as many digits before the point as its integer part.
    obtain ⟨count, digits, low, high⟩ := digitCount_bounds (Nat.div_pos large positive)
    have exponent : ((digitCount (num / den) : Nat) : Int) - 1 = count := by omega
    rw [exponent, ← Nat.cast_succ, zpow_natCast, zpow_natCast, le_div_iff₀ divisor,
      div_lt_iff₀ divisor]
    constructor
    · exact_mod_cast (Nat.le_div_iff_mul_le positive).1 low
    · exact_mod_cast (Nat.div_lt_iff_lt_mul positive).1 high
  case isFalse small =>
    obtain ⟨count, digits, low, high⟩ :=
      digitCount_bounds (Nat.div_pos (by omega : num ≤ den - 1) nonzero)
    have lower := (Nat.le_div_iff_mul_le nonzero).1 low
    have upper := (Nat.div_lt_iff_lt_mul nonzero).1 high
    have exponent : -((digitCount ((den - 1) / num) : Nat) : Int) = -((count + 1 : Nat) : Int) := by
      omega
    have next : -((count + 1 : Nat) : Int) + 1 = -(count : Int) := by omega
    rw [exponent, next, zpow_neg, zpow_neg, zpow_natCast, zpow_natCast, inv_eq_one_div,
      inv_eq_one_div, div_le_div_iff₀ (by positivity) divisor,
      div_lt_div_iff₀ divisor (by positivity)]
    constructor
    · exact_mod_cast (by rw [Nat.one_mul, Nat.mul_comm]; omega : 1 * den ≤ num * 10 ^ (count + 1))
    · exact_mod_cast (by rw [Nat.one_mul, Nat.mul_comm]; omega : num * 10 ^ count < 1 * den)

/-! ## Rounding to significant digits -/

/-- A value rounded to a number of digits from its first one on, a half going to the even
neighbour, and the power of ten of the first digit after rounding. -/
structure RoundsTo (v : ℚ) (precision : Nat) (rounded : ℚ) (leading : Int) : Prop where
  rounds : ∃ (first : Int) (digits : Nat), 10 ^ first ≤ v ∧ v < 10 ^ (first + 1) ∧
    NearestEven (v * 10 ^ ((precision : Int) - 1 - first)) digits ∧
    rounded = digits * 10 ^ (first + 1 - (precision : Int))
  low : 10 ^ leading ≤ rounded
  high : rounded < 10 ^ (leading + 1)

/-- What a quotient is worth at the scale where it is rounded to its significant digits. -/
theorem scaled_bounds (nonzero : 0 < num) (positive : 0 < den) (precise : 0 < precision) :
    ((10 ^ (precision - 1) : Nat) : ℚ) ≤
        num / den * 10 ^ ((precision : Int) - 1 - leadingExponent num den) ∧
      (num : ℚ) / den * 10 ^ ((precision : Int) - 1 - leadingExponent num den) <
        (10 ^ precision : Nat) := by
  obtain ⟨low, high⟩ := leadingExponent_bounds nonzero positive
  have scale : (0 : ℚ) < 10 ^ ((precision : Int) - 1 - leadingExponent num den) := by positivity
  have bottom : ((10 ^ (precision - 1) : Nat) : ℚ) = 10 ^ leadingExponent num den *
      10 ^ ((precision : Int) - 1 - leadingExponent num den) := by
    rw [← zpow_add₀ (by norm_num), Nat.cast_pow, Nat.cast_ofNat, ← zpow_natCast]
    congr 1
    omega
  have top : ((10 ^ precision : Nat) : ℚ) = 10 ^ (leadingExponent num den + 1) *
      10 ^ ((precision : Int) - 1 - leadingExponent num den) := by
    rw [← zpow_add₀ (by norm_num), Nat.cast_pow, Nat.cast_ofNat, ← zpow_natCast]
    congr 1
    omega
  rw [bottom, top]
  exact ⟨mul_le_mul_of_nonneg_right low (le_of_lt scale), mul_lt_mul_of_pos_right high scale⟩

/-- The digits have the length that was asked for. -/
theorem roundToDigits_digits (nonzero : 0 < num) (positive : 0 < den) (precise : 0 < precision) :
    10 ^ (precision - 1) ≤ (roundToDigits num den precision).digits ∧
      (roundToDigits num den precision).digits < 10 ^ precision := by
  obtain ⟨low, high⟩ := scaled_bounds nonzero positive precise
  have nearest := nearestEven_roundToPlaces num positive
    ((precision : Int) - 1 - leadingExponent num den)
  have least := nearest.le low
  have most := nearest.ge (le_of_lt high)
  rw [roundToDigits]
  split
  case isTrue => exact ⟨Nat.le_refl _, Nat.pow_lt_pow_right (by decide) (by omega)⟩
  case isFalse carry => exact ⟨least, Nat.lt_of_le_of_ne most carry⟩

/-- Rounding to digits is rounding to significant digits, also with a carry. -/
theorem roundsTo_roundToDigits (nonzero : 0 < num) (positive : 0 < den) (precise : 0 < precision) :
    RoundsTo (num / den) precision
      ((roundToDigits num den precision).digits *
        10 ^ ((roundToDigits num den precision).leading + 1 - (precision : Int)))
      (roundToDigits num den precision).leading := by
  obtain ⟨low, high⟩ := roundToDigits_digits nonzero positive precise
  obtain ⟨below, above⟩ := leadingExponent_bounds nonzero positive
  have nearest := nearestEven_roundToPlaces num positive
    ((precision : Int) - 1 - leadingExponent num den)
  refine ⟨⟨leadingExponent num den, _, below, above, nearest, ?_⟩, ?_, ?_⟩
  · rw [roundToDigits]
    split
    case isTrue carry =>
      dsimp only
      rw [carry, Nat.cast_pow, Nat.cast_pow, Nat.cast_ofNat, ← zpow_natCast, ← zpow_natCast,
        ← zpow_add₀ (by norm_num), ← zpow_add₀ (by norm_num)]
      congr 1
      omega
    case isFalse => rfl
  · have power : (10 : ℚ) ^ (roundToDigits num den precision).leading =
        (10 ^ (precision - 1) : Nat) *
          10 ^ ((roundToDigits num den precision).leading + 1 - (precision : Int)) := by
      rw [Nat.cast_pow, Nat.cast_ofNat, ← zpow_natCast, ← zpow_add₀ (by norm_num)]
      congr 1
      omega
    rw [power]
    exact mul_le_mul_of_nonneg_right (by exact_mod_cast low) (by positivity)
  · have power : (10 : ℚ) ^ ((roundToDigits num den precision).leading + 1) =
        (10 ^ precision : Nat) *
          10 ^ ((roundToDigits num den precision).leading + 1 - (precision : Int)) := by
      rw [Nat.cast_pow, Nat.cast_ofNat, ← zpow_natCast, ← zpow_add₀ (by norm_num)]
      congr 1
      omega
    rw [power]
    exact mul_lt_mul_of_pos_right (by exact_mod_cast high) (by positivity)

/-- Rounding after the places that the rounded exponent leaves finds the same digits. -/
theorem roundToPlaces_leading (nonzero : 0 < num) (positive : 0 < den) (precise : 0 < precision) :
    roundToPlaces num den ((precision : Int) - 1 - (roundToDigits num den precision).leading) =
      (roundToDigits num den precision).digits := by
  rw [roundToDigits]
  split
  case isFalse => rfl
  case isTrue carry =>
    obtain ⟨-, high⟩ := scaled_bounds nonzero positive precise
    have nearest := nearestEven_roundToPlaces num positive
      ((precision : Int) - 1 - leadingExponent num den)
    have low := (abs_le.1 nearest.near).1
    rw [carry] at low
    refine (nearestEven_roundToPlaces num positive _).unique ?_
    -- At the coarser scale the value is a tenth of what it was.
    have tenth : (num : ℚ) / den * 10 ^ ((precision : Int) - 1 - (leadingExponent num den + 1)) =
        num / den * 10 ^ ((precision : Int) - 1 - leadingExponent num den) / 10 := by
      rw [show (precision : Int) - 1 - (leadingExponent num den + 1) =
        (precision : Int) - 1 - leadingExponent num den - 1 by ring, zpow_sub_one₀ (by norm_num)]
      ring
    have power : ((10 ^ precision : Nat) : ℚ) = 10 * (10 ^ (precision - 1) : Nat) := by
      exact_mod_cast (by rw [Nat.mul_comm, ← Nat.pow_succ, Nat.succ_eq_add_one,
        Nat.sub_add_cancel precise] : 10 ^ precision = 10 * 10 ^ (precision - 1))
    dsimp only
    rw [tenth]
    rw [power] at low high
    generalize (num : ℚ) / den * 10 ^ ((precision : Int) - 1 - leadingExponent num den) = value at *
    have distance : |value / 10 - (10 ^ (precision - 1) : Nat)| ≤ 1 / 20 :=
      abs_le.2 ⟨by linarith, by linarith⟩
    exact ⟨by linarith, fun tie => by linarith⟩

end Calculator.Numeral
