import Calculator.Proofs.Binary64.Order
import Calculator.Proofs.Binary64.Residues

/-!
# Correctly rounded operations

Sums, products and quotients of finite numbers other than zero are the numbers
nearest to the exact results, with the signs that the results have (`add_eq`,
`mul_eq`, `div_eq`). Each operation brings its result into the form that
`pack_roundWithAccuracy` rounds: a sum moves both mantissas to the smaller exponent,
a quotient moves the dividend up until the integer part fills 53 digits, and a
product has digits enough as it is.

A square root is no quotient, but rounding does not ask for more than the integer
root and whether the rest is below or above a half. A quotient with the divisor four
has the same answers, so the root of a positive number is rounded like one, and
is not zero (`pattern_sqrt_pos`).
-/

set_option autoImplicit false

namespace Calculator.Binary64

open Float.Model (Format UnpackedFloat totalExponent)
open Float.Model.UnpackedFloat
open Numeral (roundHalfEven roundHalfEven_mul_mul le_roundHalfEven)

variable {x y : Float}

/-! ## The nearest pattern -/

/-- The nearest pattern depends on the quotient of units alone. -/
theorem nearestUnits_mul_mul {factor : Nat} (positive : 0 < factor) (count den : Nat) :
    nearestUnits (factor * count) (factor * den) = nearestUnits count den := by
  simp only [nearestUnits, Nat.mul_assoc, Nat.mul_div_mul_left _ _ positive,
    roundHalfEven_mul_mul positive]

/-- Powers of two may move between a count and its divisor. -/
theorem nearestUnits_moved {num den a b c d : Nat} (same : a + d = c + b) :
    nearestUnits (num * 2 ^ a) (den * 2 ^ b) = nearestUnits (num * 2 ^ c) (den * 2 ^ d) := by
  have left := nearestUnits_mul_mul (Nat.two_pow_pos d) (num * 2 ^ a) (den * 2 ^ b)
  have right := nearestUnits_mul_mul (Nat.two_pow_pos b) (num * 2 ^ c) (den * 2 ^ d)
  have counts : 2 ^ d * (num * 2 ^ a) = 2 ^ b * (num * 2 ^ c) := by
    rw [Nat.mul_left_comm, ← Nat.pow_add, Nat.mul_left_comm, ← Nat.pow_add, Nat.add_comm d, same,
      Nat.add_comm c]
  have divisors : 2 ^ d * (den * 2 ^ b) = 2 ^ b * (den * 2 ^ d) := by ring
  rw [← left, ← right, counts, divisors]

theorem nearestUnits_le (count den : Nat) : nearestUnits count den ≤ infinityPattern :=
  Nat.min_le_right _ _

/-- Rounding does not go below a small number of units. -/
theorem le_nearestUnits {count den k : Nat} (positive : 0 < den) (small : k ≤ 2 ^ 53)
    (enough : k * den ≤ count) : k ≤ nearestUnits count den := by
  have low : 0 < scaleOf (count / den) → _ := le_count positive
  rw [nearestUnits]
  generalize scaleOf (count / den) = exponent at *
  have step : 0 < den * 2 ^ exponent := Nat.mul_pos positive (Nat.two_pow_pos _)
  refine Nat.le_min.2 ⟨?_, by rw [infinityPattern]; omega⟩
  rcases Nat.eq_zero_or_pos exponent with rfl | above
  · have steps : k ≤ roundHalfEven count (den * 2 ^ 0) :=
      le_roundHalfEven step (by rwa [Nat.pow_zero, Nat.mul_one])
    omega
  · have steps := le_roundHalfEven step (low above)
    omega

/-- The units of a finite pattern are nearest to it. -/
theorem nearestUnits_units {bits : Nat} (finite : bits < infinityPattern) :
    nearestUnits (units bits) 1 = bits := by
  have nearest := nearest_units finite
  rw [nearest_eq_nearestUnits, Nat.mul_comm (units bits)] at nearest
  rwa [← nearestUnits_mul_mul unitsOfOne_pos (units bits) 1, Nat.mul_one]

/-! ## Products -/

theorem minus_mul (s t : Sign) : minus (s * t) = (minus s != minus t) := by
  cases s <;> cases t <;> rfl

theorem minus_div (s t : Sign) : minus (s / t) = (minus s != minus t) := by
  cases s <;> cases t <;> rfl

/-- A finite number other than zero. -/
def Regular (x : Float) : Prop := 0 < pattern x ∧ pattern x < infinityPattern

theorem Regular.parts_eq (regular : Regular x) :
    parts x = .finite (signOf x) (significand (pattern x)) ((scale (pattern x) : Int) - 1074)
      (significand_pos regular.1) :=
  parts_of_finite regular.2 regular.1

/-- A mantissa without residual bits is rounded as a count of units. -/
theorem pack_round_exact (s : Sign) {m a b : Nat} {exponent : Int}
    (place : exponent + 1074 = a - b) (fits : exponent ≤ -1074 ∨ 52 ≤ m.log2) :
    (⟨.pack (roundWithAccuracy Format.binary64 s m exponent .exact)⟩ : Float) =
      ofPattern (minus s) (nearestUnits (m * 2 ^ a) (2 ^ b)) := by
  have whole : m / 1 = m := Nat.div_one m
  have rounded := pack_roundWithAccuracy s Nat.one_pos place (whole.symm ▸ fits)
  have exact : accuracyOfFraction (m % 1) 1 = .exact := by rw [Nat.mod_one]; rfl
  rwa [whole, exact, Nat.one_mul] at rounded

/-- Products are rounded exact products. -/
theorem mul_eq (regularX : Regular x) (regularY : Regular y) :
    x * y = ofPattern (isNegative x != isNegative y)
      (nearestUnits (magnitude x * magnitude y) unitsOfOne) := by
  have digitsX := significand_pos regularX.1
  have digitsY := significand_pos regularY.1
  have counts : significand (pattern x) * significand (pattern y) *
      2 ^ (scale (pattern x) + scale (pattern y)) = magnitude x * magnitude y := by
    rw [magnitude, magnitude, units, units, Nat.pow_add]
    ring
  rw [mul_eq_pack, regularX.parts_eq, regularY.parts_eq, UnpackedFloat.mul, ← minus_signOf,
    ← minus_signOf, ← minus_mul, ← counts, unitsOfOne]
  refine pack_round_exact _ (by push_cast; omega) ?_
  -- If one of the numbers is normal, its mantissa has digits enough for the product.
  have fullX := normal_significand (pattern x)
  have fullY := normal_significand (pattern y)
  have large (left : 2 ^ 52 ≤ significand (pattern x) ∨ 2 ^ 52 ≤ significand (pattern y)) :
      52 ≤ (significand (pattern x) * significand (pattern y)).log2 := by
    rw [Nat.le_log2 (Nat.ne_of_gt (Nat.mul_pos digitsX digitsY))]
    rcases left with fullX | fullY
    · exact Nat.le_trans fullX (Nat.le_mul_of_pos_right _ digitsY)
    · exact Nat.le_trans fullY (Nat.le_mul_of_pos_left _ digitsX)
  rcases fullX with lowX | fullX
  · rcases fullY with lowY | fullY
    · exact .inl (by omega)
    · exact .inr (large (.inr fullY))
  · exact .inr (large (.inl fullX))

/-! ## Sums -/

/-- Rounding a count of units at any scale, after moving it to the exponent that it needs. -/
theorem pack_round (s : Sign) {m scale : Nat} (positive : 0 < m) :
    (⟨.pack (UnpackedFloat.round Format.binary64 s m ((scale : Int) - 1074))⟩ : Float) =
      ofPattern (minus s) (nearestUnits (m * 2 ^ scale) 1) := by
  rw [UnpackedFloat.round, targetExponent_eq, totalExponent]
  generalize target_eq :
    max (((m.log2 : Int) + 1 + ((scale : Int) - 1074)) - 53) (-1074) = target
  obtain ⟨places, moved⟩ : ∃ places : Nat, ((scale : Int) - 1074 - target).toNat = places :=
    ⟨_, rfl⟩
  have fewer : places ≤ scale := by omega
  have whole : m * 2 ^ places * 2 ^ (scale - places) = m * 2 ^ scale := by
    rw [Nat.mul_assoc, ← Nat.pow_add, Nat.add_sub_cancel' fewer]
  have log : (m * 2 ^ places).log2 = m.log2 + places := log2_mul_two_pow (Nat.ne_of_gt positive) _
  simp only [decreaseExponent, moved, Nat.shiftLeft_eq]
  have rounded : (⟨.pack (roundWithAccuracy Format.binary64 s (m * 2 ^ places)
      ((scale : Int) - 1074 - places) .exact)⟩ : Float) =
        ofPattern (minus s) (nearestUnits (m * 2 ^ places * 2 ^ (scale - places)) (2 ^ 0)) :=
    pack_round_exact s (by push_cast [fewer]; omega) (by rw [log]; omega)
  rw [whole, Nat.pow_zero] at rounded
  exact rounded

theorem nearestUnits_zero {den : Nat} (positive : 0 < den) : nearestUnits 0 den = 0 := by
  have log : Nat.log2 0 = 0 := by decide
  rw [nearestUnits, Nat.zero_div, scaleOf, log, Numeral.roundHalfEven]
  simp [positive]

/-- A whole number of steps is stored as the nearest number with its sign. -/
theorem pack_normalize (steps : Int) (scale : Nat) :
    (⟨.pack (UnpackedFloat.normalize Format.binary64 steps ((scale : Int) - 1074) .positive)⟩ :
      Float) = ofPattern (decide (steps < 0)) (nearestUnits (steps.natAbs * 2 ^ scale) 1) := by
  rcases Int.lt_trichotomy steps 0 with negative | rfl | positive
  · have size : (-steps).toNat = steps.natAbs := by omega
    have below : compare steps 0 = .lt := compare_lt_iff_lt.2 negative
    rw [UnpackedFloat.normalize, below, decide_eq_true negative]
    dsimp only
    rw [size]
    exact pack_round .negative (by omega)
  · rw [Int.natAbs_zero, Nat.zero_mul, nearestUnits_zero Nat.one_pos]
    exact pack_zero .positive
  · have size : steps.toNat = steps.natAbs := by omega
    have above : compare steps 0 = .gt := compare_gt_iff_gt.2 positive
    rw [UnpackedFloat.normalize, above, decide_eq_false (by omega)]
    dsimp only
    rw [size]
    exact pack_round .positive (by omega)

theorem apply_signOf (x : Float) (n : Nat) : (signOf x).apply n = withSignOf x n := by
  rw [signOf, withSignOf]
  split <;> rfl

theorem withSignOf_mul (x : Float) (n factor : Nat) :
    withSignOf x n * factor = withSignOf x (n * factor) := by
  rw [withSignOf, withSignOf]
  split
  · rw [Int.neg_mul, Nat.cast_mul]
  · rw [Nat.cast_mul]

/-- Sums are rounded exact sums; the sum of two opposite numbers is the positive zero. -/
theorem add_eq (regularX : Regular x) (regularY : Regular y) :
    x + y = ofPattern (decide (signedUnits x + signedUnits y < 0))
      (nearestUnits (signedUnits x + signedUnits y).natAbs 1) := by
  rw [add_eq_pack, regularX.parts_eq, regularY.parts_eq, UnpackedFloat.add]
  generalize least_eq : min (scale (pattern x)) (scale (pattern y)) = least
  have exponent : min ((scale (pattern x) : Int) - 1074) ((scale (pattern y) : Int) - 1074) =
      (least : Int) - 1074 := by omega
  have placesX : ((scale (pattern x) : Int) - 1074 - ((least : Int) - 1074)).toNat =
      scale (pattern x) - least := by omega
  have placesY : ((scale (pattern y) : Int) - 1074 - ((least : Int) - 1074)).toNat =
      scale (pattern y) - least := by omega
  have whole (bits : Nat) (bounded : least ≤ scale bits) :
      significand bits * 2 ^ (scale bits - least) * 2 ^ least = units bits := by
    rw [Nat.mul_assoc, ← Nat.pow_add, Nat.sub_add_cancel bounded, units]
  simp only [exponent, decreaseExponent, placesX, placesY, Nat.shiftLeft_eq, apply_signOf]
  rw [pack_normalize]
  generalize steps_eq : withSignOf x _ + withSignOf y _ = steps
  have exact : steps * (2 ^ least : Nat) = signedUnits x + signedUnits y := by
    rw [← steps_eq, Int.add_mul, withSignOf_mul, withSignOf_mul, whole _ (by omega),
      whole _ (by omega)]
    rfl
  have positive : 0 < 2 ^ least := Nat.two_pow_pos least
  have sign : steps < 0 ↔ signedUnits x + signedUnits y < 0 := by
    have step : (0 : Int) < (2 ^ least : Nat) := by exact_mod_cast positive
    rw [← exact]
    refine ⟨fun negative => Int.mul_neg_of_neg_of_pos negative step, fun negative => ?_⟩
    by_contra nonneg
    have product := Int.mul_nonneg (Int.not_lt.1 nonneg) (Int.le_of_lt step)
    omega
  have size : steps.natAbs * 2 ^ least = (signedUnits x + signedUnits y).natAbs := by
    rw [← exact, Int.natAbs_mul, Int.natAbs_natCast]
  rw [size, decide_eq_decide.2 sign]

/-! ## Quotients -/

/-- Quotients are rounded exact quotients. -/
theorem div_eq (regularX : Regular x) (regularY : Regular y) :
    x / y = ofPattern (isNegative x != isNegative y) (nearest (magnitude x) (magnitude y)) := by
  have digitsX := significand_pos regularX.1
  have digitsY := significand_pos regularY.1
  rw [div_eq_pack, regularX.parts_eq, regularY.parts_eq, UnpackedFloat.div, divCore]
  simp only [targetExponent_eq, totalExponent]
  generalize target_eq : min ((scale (pattern x) : Int) - 1074 -
    ((scale (pattern y) : Int) - 1074)) _ = target
  obtain ⟨places, moved⟩ : ∃ places : Nat, ((scale (pattern x) : Int) - 1074 -
    ((scale (pattern y) : Int) - 1074) - target).toNat = places := ⟨_, rfl⟩
  rw [moved, Nat.shiftLeft_eq, ← minus_signOf, ← minus_signOf, ← minus_div]
  have place : target + 1074 =
      ((target + 1074).toNat : Int) - ((-(target + 1074)).toNat : Int) := by omega
  have long : target ≤ -1074 ∨
      52 ≤ (significand (pattern x) * 2 ^ places / significand (pattern y)).log2 := by
    rw [or_iff_not_imp_left]
    intro high
    have low := Nat.log2_self_le (Nat.ne_of_gt digitsX)
    have above := Nat.lt_log2_self (n := significand (pattern y))
    have enough : (significand (pattern y)).log2 + 1 + 52 ≤
        (significand (pattern x)).log2 + places := by omega
    have quotient : 2 ^ 52 ≤ significand (pattern x) * 2 ^ places / significand (pattern y) := by
      rw [Nat.le_div_iff_mul_le digitsY]
      calc 2 ^ 52 * significand (pattern y)
          ≤ 2 ^ 52 * 2 ^ ((significand (pattern y)).log2 + 1) :=
            Nat.mul_le_mul_left _ (Nat.le_of_lt above)
        _ = 2 ^ ((significand (pattern y)).log2 + 1 + 52) :=
            (Nat.mul_comm _ _).trans (Nat.pow_add 2 _ 52).symm
        _ ≤ 2 ^ ((significand (pattern x)).log2 + places) := Nat.pow_le_pow_right (by decide) enough
        _ ≤ significand (pattern x) * 2 ^ places := by
            rw [Nat.pow_add]
            exact Nat.mul_le_mul_right _ low
    exact (Nat.le_log2 (by omega)).2 quotient
  rw [pack_roundWithAccuracy (signOf x / signOf y) digitsY place long, nearest_eq_nearestUnits,
    magnitude, magnitude, units, units, Nat.mul_assoc, Nat.mul_assoc, ← Nat.pow_add, unitsOfOne,
    ← Nat.pow_add]
  refine congrArg (ofPattern _) (nearestUnits_moved ?_)
  omega

/-! ## Square roots -/

/-- What rounding asks of a root: the integer root, and where the rest lies. -/
theorem accuracy_of_root (root rest : Nat) :
    ∃ quarters, (4 * root + quarters) / 4 = root ∧
      accuracyOfFraction ((4 * root + quarters) % 4) 4 =
        if rest = 0 then .exact else .inexact (if rest ≤ root then .lt else .gt) := by
  have quotient (quarters : Nat) (small : quarters < 4) :
      (4 * root + quarters) / 4 = root ∧ (4 * root + quarters) % 4 = quarters := by omega
  by_cases noRest : rest = 0
  · obtain ⟨whole, left⟩ := quotient 0 (by decide)
    refine ⟨0, whole, ?_⟩
    rw [left, if_pos noRest]
    rfl
  · by_cases less : rest ≤ root
    · obtain ⟨whole, left⟩ := quotient 1 (by decide)
      refine ⟨1, whole, ?_⟩
      rw [left, if_neg noRest, if_pos less]
      rfl
    · obtain ⟨whole, left⟩ := quotient 3 (by decide)
      refine ⟨3, whole, ?_⟩
      rw [left, if_neg noRest, if_neg less]
      rfl

/-- The root of a positive finite number is positive. -/
theorem pattern_sqrt_pos (regular : Regular x) (positive : isNegative x = false) :
    0 < pattern x.sqrt := by
  have sign : signOf x = .positive := by rw [signOf, positive]; rfl
  have mantissa := significand_pos regular.1
  rw [sqrt_eq_pack, regular.parts_eq, sign, UnpackedFloat.sqrt, sqrtCore, targetExponent_eq,
    totalExponent]
  dsimp only
  generalize target_eq : min (Int.ediv _ 2) _ = target
  have half (n : Int) : n.ediv 2 = n / 2 := rfl
  simp only [half] at target_eq
  obtain ⟨places, moved⟩ : ∃ places : Nat,
      ((scale (pattern x) : Int) - 1074 - 2 * target).toNat = places := ⟨_, rfl⟩
  rw [moved, Nat.shiftLeft_eq]
  have lowest : -1074 ≤ target := by omega
  have nonzero : 0 < significand (pattern x) * 2 ^ places :=
    Nat.mul_pos mantissa (Nat.two_pow_pos _)
  have long : target ≤ -1074 ∨ 52 ≤ (significand (pattern x) * 2 ^ places).sqrt.log2 := by
    rw [or_iff_not_imp_left]
    intro high
    have low := Nat.log2_self_le (Nat.ne_of_gt mantissa)
    have enough : 2 ^ 52 * 2 ^ 52 ≤ significand (pattern x) * 2 ^ places :=
      calc 2 ^ 52 * 2 ^ 52 = 2 ^ 104 := by decide
        _ ≤ 2 ^ ((significand (pattern x)).log2 + places) :=
            Nat.pow_le_pow_right (by decide) (by omega)
        _ ≤ significand (pattern x) * 2 ^ places := by
            rw [Nat.pow_add]
            exact Nat.mul_le_mul_right _ low
    have root := Nat.le_sqrt.2 enough
    exact (Nat.le_log2 (by omega)).2 root
  have one : 1 ≤ (significand (pattern x) * 2 ^ places).sqrt := Nat.le_sqrt.2 nonzero
  obtain ⟨quarters, whole, rest⟩ := accuracy_of_root (significand (pattern x) * 2 ^ places).sqrt
    (significand (pattern x) * 2 ^ places - (significand (pattern x) * 2 ^ places).sqrt *
      (significand (pattern x) * 2 ^ places).sqrt)
  generalize (significand (pattern x) * 2 ^ places).sqrt = root at *
  have place : target + 1074 = ((target + 1074).toNat : Int) - (0 : Nat) := by omega
  have rounded := @pack_roundWithAccuracy (4 * root + quarters) 4 .positive target _ _ (by decide)
    place (by rwa [whole])
  rw [whole, rest] at rounded
  have stored := congrArg pattern rounded
  rw [pattern_ofPattern _ _ (nearestUnits_le _ _)] at stored
  have count : 1 * (4 * 2 ^ 0) ≤ (4 * root + quarters) * 2 ^ (target + 1074).toNat := by
    have power := Nat.two_pow_pos (target + 1074).toNat
    calc 1 * (4 * 2 ^ 0) ≤ 4 * root + quarters := by omega
      _ ≤ (4 * root + quarters) * 2 ^ (target + 1074).toNat := Nat.le_mul_of_pos_right _ power
  exact stored ▸ le_nearestUnits (by decide) (by decide) count

end Calculator.Binary64
