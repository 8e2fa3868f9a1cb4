import Calculator.Proofs.Binary64.Vanishing
import Mathlib

/-!
# The values of numbers

A finite number has an exact value, its mantissa times a power of two with a sign
(`value`). Counted in units it is a whole number (`value_eq`), so the integer part
of a number is its value with the fraction dropped (`truncate_eq`), and a number is
an integer exactly if its value is one (`toInteger?_eq_some_iff_value`).

Finite numbers are compared by their values (`lt_iff_value`, `le_iff_value`). A
difference may be rounded, but not to zero: between numbers of different value
there is at least one unit, which is a number itself (`pattern_sub_eq_zero_iff`).
-/

set_option autoImplicit false

namespace Calculator.Binary64

open Float.Model (Format UnpackedFloat)
open Float.Model.UnpackedFloat (Sign)

variable {x y : Float}

/-- The exact value of a finite number; what is not finite has none and counts as zero. -/
def value (x : Float) : ℚ :=
  match parts x with
  | .finite sign mantissa exponent _ => sign.apply mantissa * 2 ^ exponent
  | _ => 0

/-- A rational number without its fraction. -/
def towardZero (q : ℚ) : Int := if 0 ≤ q then ⌊q⌋ else ⌈q⌉

theorem signedUnits_of_zero (zero : pattern x = 0) : signedUnits x = 0 := by
  rw [signedUnits, magnitude, zero, units_zero, withSignOf]
  split <;> rfl

/-- The value of a finite number is the number of its units. -/
theorem value_eq (finite : isFinite x = true) : value x = signedUnits x / unitsOfOne := by
  rcases parts_cases (number_of_finite finite) with
    ⟨zero, parts_eq⟩ | ⟨-, -, positive, parts_eq⟩ | ⟨infinite, -⟩
  · rw [value, parts_eq, signedUnits_of_zero zero, Int.cast_zero, zero_div]
  · have power : (2 : ℚ) ^ ((scale (pattern x) : Int) - 1074) =
        (2 ^ scale (pattern x) : Nat) / unitsOfOne := by
      rw [zpow_sub₀ (by norm_num), unitsOfOne, Nat.cast_pow, Nat.cast_pow]
      rfl
    have exact : signedUnits x = withSignOf x (significand (pattern x)) * (2 ^ scale (pattern x) : Nat) :=
      (withSignOf_mul x _ _).symm
    rw [value, parts_eq]
    simp only
    rw [apply_signOf, power, exact, Int.cast_mul, Int.cast_natCast, mul_div_assoc]
  · rw [isFinite, infinite] at finite
    exact absurd finite (by decide)

/-! ## Integer parts -/

theorem towardZero_neg (q : ℚ) : towardZero (-q) = -towardZero q := by
  rw [towardZero, towardZero]
  rcases lt_trichotomy q 0 with negative | rfl | positive
  · rw [if_pos (by linarith), if_neg (by linarith), Int.floor_neg]
  · simp
  · rw [if_neg (by linarith), if_pos (by linarith), Int.ceil_neg]

theorem towardZero_natCast_div (num den : Nat) :
    towardZero ((num : ℚ) / den) = (num / den : Nat) := by
  rw [towardZero, if_pos (by positivity), Rat.floor_natCast_div_natCast]
  rfl

/-- The integer part of a finite number is its value without the fraction. -/
theorem truncate_eq (finite : isFinite x = true) : truncate x = towardZero (value x) := by
  rw [value_eq finite, truncate, signedUnits, withSignOf, withSignOf]
  split
  case isTrue negative =>
    rw [Int.cast_neg, neg_div, towardZero_neg, Int.cast_natCast, towardZero_natCast_div]
  case isFalse => rw [Int.cast_natCast, towardZero_natCast_div]

/-- A number is an integer if its value is. -/
theorem toInteger?_eq_some_iff_value {n : Int} :
    toInteger? x = some n ↔ isFinite x = true ∧ value x = n := by
  have one : (unitsOfOne : ℚ) ≠ 0 := by exact_mod_cast unitsOfOne_pos.ne'
  have exact : isFinite x = true → (value x = n ↔ signedUnits x = n * unitsOfOne) := by
    intro finite
    rw [value_eq finite, div_eq_iff one]
    exact_mod_cast Iff.rfl
  rw [toInteger?_eq_some_iff]
  constructor
  · rintro ⟨below, whole, sign⟩
    have finite : isFinite x = true := decide_eq_true below
    refine ⟨finite, (exact finite).2 ?_⟩
    rw [signedUnits, magnitude, whole, ← withSignOf_mul, sign]
  · rintro ⟨finite, valued⟩
    have counted := (exact finite).1 valued
    have whole : units (pattern x) = n.natAbs * unitsOfOne := by
      calc units (pattern x) = (signedUnits x).natAbs := (natAbs_withSignOf x _).symm
        _ = n.natAbs * unitsOfOne := by rw [counted, Int.natAbs_mul, Int.natAbs_natCast]
    refine ⟨of_decide_eq_true finite, whole, ?_⟩
    rw [signedUnits, magnitude, whole, ← withSignOf_mul] at counted
    exact Int.eq_of_mul_eq_mul_right (by exact_mod_cast unitsOfOne_pos.ne') counted

theorem truncate_of_toInteger? {n : Int} (integer : toInteger? x = some n) : truncate x = n := by
  rw [toInteger?] at integer
  split at integer
  case isTrue => exact Option.some_inj.1 integer
  case isFalse => cases integer

/-! ## Order -/

/-- Patterns are ordered as the numbers of their units. -/
theorem units_strictMono : StrictMono units := by
  intro p q less
  rcases Nat.lt_or_eq_of_le (show scale p ≤ scale q by rw [scale, scale]; omega) with lower | same
  · have full : 2 ^ 52 ≤ significand q := (normal_significand q).resolve_left (by omega)
    calc units p < 2 ^ 53 * 2 ^ scale p := units_lt (Nat.le_refl _)
      _ = 2 ^ 52 * 2 ^ (scale p + 1) := by rw [Nat.pow_succ 2 (scale p)]; omega
      _ ≤ 2 ^ 52 * 2 ^ scale q := Nat.mul_le_mul_left _ (Nat.pow_le_pow_right (by decide) lower)
      _ ≤ units q := Nat.mul_le_mul_right _ full
  · rw [units, units, same]
    refine Nat.mul_lt_mul_of_pos_right ?_ (Nat.two_pow_pos _)
    simp only [significand, same]
    rw [scale] at same ⊢
    omega

/-- Numbers have the order of their units. -/
theorem signedUnits_lt_iff : signedUnits x < signedUnits y ↔ place x < place y := by
  have order := units_strictMono.lt_iff_lt (a := pattern x) (b := pattern y)
  have reversed := units_strictMono.lt_iff_lt (a := pattern y) (b := pattern x)
  have noneX := units_strictMono.lt_iff_lt (a := 0) (b := pattern x)
  have noneY := units_strictMono.lt_iff_lt (a := 0) (b := pattern y)
  rw [units_zero] at noneX noneY
  rw [signedUnits, signedUnits, place, place, magnitude, magnitude]
  simp only [withSignOf]
  split <;> split <;> omega

section Finite

variable (finiteX : isFinite x = true) (finiteY : isFinite y = true)
include finiteX finiteY

theorem value_lt_iff : value x < value y ↔ signedUnits x < signedUnits y := by
  have positive : (0 : ℚ) < unitsOfOne := by exact_mod_cast unitsOfOne_pos
  rw [value_eq finiteX, value_eq finiteY, div_lt_div_iff_of_pos_right positive, Int.cast_lt]

/-- Finite numbers are compared by their values. -/
theorem lt_iff_value : x < y ↔ value x < value y := by
  rw [lt_iff, value_lt_iff finiteX finiteY, signedUnits_lt_iff]
  exact and_iff_right ⟨number_of_finite finiteX, number_of_finite finiteY⟩

theorem le_iff_value : x ≤ y ↔ value x ≤ value y := by
  rw [le_iff, ← not_lt, ← not_lt, value_lt_iff finiteY finiteX, signedUnits_lt_iff]
  exact and_iff_right ⟨number_of_finite finiteX, number_of_finite finiteY⟩

end Finite

/-! ## Differences -/

/-- A finite number is turned around by its sign bit. -/
theorem neg_eq_ofPattern (finite : isFinite x = true) :
    -x = ofPattern (!isNegative x) (pattern x) := by
  have turned : minus (-signOf x) = !isNegative x := by
    rw [signOf]
    cases isNegative x <;> rfl
  have stored : -x = ⟨.pack (parts x).neg⟩ := rfl
  rw [stored, ← turned]
  rcases Nat.eq_zero_or_pos (pattern x) with zero | positive
  · rw [parts_of_zero zero, zero]
    exact pack_zero _
  · have below : pattern x < infinityPattern := of_decide_eq_true finite
    have whole : scale (pattern x) * 2 ^ 52 + significand (pattern x) = pattern x := by
      rw [significand, scale]
      omega
    rw [parts_of_finite below positive, UnpackedFloat.neg,
      pack_canonical _ _ (significand_lt _) (normal_significand _), whole,
      Nat.min_eq_left (Nat.le_of_lt below)]

theorem pattern_neg (finite : isFinite x = true) : pattern (-x) = pattern x := by
  rw [neg_eq_ofPattern finite, pattern_ofPattern _ _ (Nat.le_of_lt (of_decide_eq_true finite))]

theorem isNegative_neg (finite : isFinite x = true) : isNegative (-x) = !isNegative x := by
  rw [neg_eq_ofPattern finite, isNegative_ofPattern _ _ (Nat.le_of_lt (of_decide_eq_true finite))]

theorem isFinite_neg (finite : isFinite x = true) : isFinite (-x) = true := by
  rw [isFinite, pattern_neg finite]
  exact finite

theorem withSignOf_neg (finite : isFinite x = true) (count : Nat) :
    withSignOf (-x) count = -withSignOf x count := by
  rw [withSignOf, withSignOf, isNegative_neg finite]
  cases isNegative x with
  | false => rfl
  | true => exact (Int.neg_neg _).symm

theorem signedUnits_neg (finite : isFinite x = true) : signedUnits (-x) = -signedUnits x := by
  rw [signedUnits, magnitude, pattern_neg finite]
  exact withSignOf_neg finite _

theorem parts_neg (finite : isFinite x = true) : parts (-x) = (parts x).neg := by
  have sign : signOf (-x) = -signOf x := by
    rw [signOf, signOf, isNegative_neg finite]
    cases isNegative x <;> rfl
  have same := pattern_neg finite
  rcases Nat.eq_zero_or_pos (pattern x) with zero | positive
  · rw [parts_of_zero (same.trans zero), parts_of_zero zero, sign]
    rfl
  · have below : pattern x < infinityPattern := of_decide_eq_true finite
    rw [parts_of_finite below positive, parts_of_finite (by rwa [same]) (by rwa [same])]
    simp only [same, sign]
    rfl

theorem sub_eq_add_neg (finite : isFinite y = true) : x - y = x + -y := by
  rw [sub_eq_pack, add_eq_pack, parts_neg finite, unpacked_sub_eq_add_neg]

theorem signedUnits_eq_zero_iff : signedUnits x = 0 ↔ pattern x = 0 := by
  rw [← Int.natAbs_eq_zero, signedUnits, natAbs_withSignOf, magnitude]
  refine ⟨fun vanishes => ?_, fun zero => by rw [zero, units_zero]⟩
  by_contra nonzero
  exact Nat.ne_of_gt (units_pos (Nat.pos_of_ne_zero nonzero)) vanishes

theorem pack_parts (x : Float) : ⟨.pack (parts x)⟩ = x := ofBits_toBits x

theorem add_of_zero_left (zero : pattern x = 0) (regular : Regular y) : x + y = y := by
  have kept : UnpackedFloat.add Format.binary64 (.zero (signOf x)) (parts y) = parts y := by
    rw [regular.parts_eq]
    rfl
  rw [add_eq_pack, parts_of_zero zero, kept, pack_parts]

theorem add_of_zero_right (regular : Regular x) (zero : pattern y = 0) : x + y = x := by
  have kept : UnpackedFloat.add Format.binary64 (parts x) (.zero (signOf y)) = parts x := by
    rw [regular.parts_eq]
    rfl
  rw [add_eq_pack, parts_of_zero zero, kept, pack_parts]

/-- A sum of finite numbers is rounded to zero only if it is zero. -/
theorem pattern_add_eq_zero_iff (finiteX : isFinite x = true) (finiteY : isFinite y = true) :
    pattern (x + y) = 0 ↔ signedUnits x + signedUnits y = 0 := by
  have belowX : pattern x < infinityPattern := of_decide_eq_true finiteX
  have belowY : pattern y < infinityPattern := of_decide_eq_true finiteY
  rcases Nat.eq_zero_or_pos (pattern x) with zeroX | someX
  · rw [signedUnits_of_zero zeroX, Int.zero_add, signedUnits_eq_zero_iff]
    rcases Nat.eq_zero_or_pos (pattern y) with zeroY | someY
    · exact iff_of_true (pattern_add_of_zero zeroX zeroY) zeroY
    · rw [add_of_zero_left zeroX ⟨someY, belowY⟩]
  · rcases Nat.eq_zero_or_pos (pattern y) with zeroY | someY
    · rw [add_of_zero_right ⟨someX, belowX⟩ zeroY, signedUnits_of_zero zeroY, Int.add_zero,
        signedUnits_eq_zero_iff]
    · rw [add_eq ⟨someX, belowX⟩ ⟨someY, belowY⟩, pattern_ofPattern _ _ (nearestUnits_le _ _),
        nearestUnits_eq_zero_iff Nat.one_pos]
      omega

/-- A difference of finite numbers is rounded to zero only if the numbers have the same value. -/
theorem pattern_sub_eq_zero_iff (finiteX : isFinite x = true) (finiteY : isFinite y = true) :
    pattern (x - y) = 0 ↔ value x = value y := by
  have one : (unitsOfOne : ℚ) ≠ 0 := by exact_mod_cast unitsOfOne_pos.ne'
  rw [sub_eq_add_neg finiteY, pattern_add_eq_zero_iff finiteX (isFinite_neg finiteY),
    signedUnits_neg finiteY, value_eq finiteX, value_eq finiteY, div_left_inj' one, Int.cast_inj]
  omega

end Calculator.Binary64
