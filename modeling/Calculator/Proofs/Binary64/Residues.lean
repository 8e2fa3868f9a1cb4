import Calculator.Proofs.Binary64.Overflow
import Calculator.Proofs.Binary64.Parts

/-!
# Arithmetic rounds to the nearest number

An operation computes a mantissa and where the exact result lies between it and the
next one. Both together say as much about a quotient as rounding to even needs to
know (`StandsFor`): its integer part, whether its fraction is a half or more, and
whether anything is left beyond that. Dropping the last binary digit of the mantissa
doubles the divisor (`StandsFor.shiftRightOne`), so after any number of digits the
rounded mantissa is the quotient rounded to its nearest integer, a half going to the
even one (`StandsFor.roundedMantissa_eq`).

How many digits are dropped depends on the size of the mantissa alone, and it is
the number that leaves 53, as for the nearest pattern. So what is stored is the
nearest pattern with the sign of the result (`pack_roundWithAccuracy`). Rounding up
to `2 ^ 53` drops one more digit, which is the step to the next pattern.
-/

set_option autoImplicit false

namespace Calculator.Binary64

open Float.Model (Format UnpackedFloat totalExponent)
open Float.Model.UnpackedFloat
open Numeral (roundHalfEven roundHalfEven_mul_mul roundHalfEven_le le_roundHalfEven)

variable {num den : Nat}

/-! ## Residual bits -/

/-- A mantissa and its residual bits stand for a quotient: for its integer part, whether at least
a half is left, and whether something other than a half is. -/
structure StandsFor (em : ExtendedMantissa) (num den : Nat) : Prop where
  mantissa : em.mantissa = num / den
  round : em.roundBit = decide (den ≤ 2 * (num % den))
  sticky : em.stickyBit = decide (num % den ≠ 0 ∧ 2 * (num % den) ≠ den)

theorem standsFor_accuracyOfFraction (num : Nat) (positive : 0 < den) :
    StandsFor (.ofMantissaAndAccuracy (num / den) (accuracyOfFraction (num % den) den))
      num den := by
  rw [accuracyOfFraction]
  split
  case isTrue exact =>
    exact ⟨rfl, (decide_eq_false (by omega)).symm, (decide_eq_false (by omega)).symm⟩
  case isFalse apart =>
    rcases Nat.lt_trichotomy (2 * (num % den)) den with less | half | more
    · rw [compare_lt_iff_lt.2 less]
      exact ⟨rfl, (decide_eq_false (by omega)).symm, (decide_eq_true (by omega)).symm⟩
    · rw [compare_eq_iff_eq.2 half]
      exact ⟨rfl, (decide_eq_true (by omega)).symm, (decide_eq_false (by omega)).symm⟩
    · rw [compare_gt_iff_gt.2 more]
      exact ⟨rfl, (decide_eq_true (by omega)).symm, (decide_eq_true (by omega)).symm⟩

namespace StandsFor

variable {em : ExtendedMantissa}

/-- Dropping the last digit of the mantissa doubles the divisor. -/
theorem shiftRightOne (stands : StandsFor em num den) (positive : 0 < den) :
    StandsFor em.shiftRightOne num (den * 2) := by
  obtain ⟨mantissa, round, sticky⟩ := stands
  have small : num % den < den := Nat.mod_lt num positive
  have rest : num % (den * 2) = num % den + den * (num / den % 2) := Nat.mod_mul
  refine ⟨?_, ?_, ?_⟩
  · rw [ExtendedMantissa.shiftRightOne, mantissa, Nat.div_div_eq_div_mul]
  · rw [ExtendedMantissa.shiftRightOne, mantissa, rest]
    rcases Nat.mod_two_eq_zero_or_one (num / den) with even | odd
    · rw [even]
      exact (decide_eq_false (by omega)).symm
    · rw [odd]
      exact (decide_eq_true (by omega)).symm
  · rw [ExtendedMantissa.shiftRightOne, round, sticky, rest, ← Bool.decide_or, decide_eq_decide]
    rcases Nat.mod_two_eq_zero_or_one (num / den) with even | odd
    · rw [even]
      omega
    · rw [odd]
      omega

theorem shiftRight (stands : StandsFor em num den) (positive : 0 < den) (places : Nat) :
    StandsFor (em >>> places) num (den * 2 ^ places) := by
  induction places with
  | zero =>
      rw [Nat.pow_zero, Nat.mul_one]
      exact stands
  | succ places ih =>
      rw [Nat.pow_succ, ← Nat.mul_assoc]
      exact ih.shiftRightOne (Nat.mul_pos positive (Nat.two_pow_pos _))

/-- The rounded mantissa is the nearest integer. -/
theorem roundedMantissa_eq (stands : StandsFor em num den) :
    em.roundedMantissa = roundHalfEven num den := by
  obtain ⟨mantissa, roundBit, stickyBit⟩ := em
  obtain ⟨rfl, rfl, rfl⟩ := stands
  rw [ExtendedMantissa.roundedMantissa, roundHalfEven]
  dsimp only
  rcases Nat.lt_trichotomy (2 * (num % den)) den with less | half | more
  · have low : decide (den ≤ 2 * (num % den)) = false := decide_eq_false (by omega)
    rw [if_pos less, low]
    cases decide (num % den ≠ 0 ∧ 2 * (num % den) ≠ den) <;> rfl
  · have tie : decide (den ≤ 2 * (num % den)) = true := decide_eq_true (by omega)
    have exact : decide (num % den ≠ 0 ∧ 2 * (num % den) ≠ den) = false :=
      decide_eq_false fun other => other.2 half
    rw [if_neg (by omega), if_neg (by omega), tie, exact]
    rfl
  · have high : decide (den ≤ 2 * (num % den)) = true := decide_eq_true (by omega)
    have beyond : decide (num % den ≠ 0 ∧ 2 * (num % den) ≠ den) = true :=
      decide_eq_true (by omega)
    rw [if_neg (by omega), if_pos more, high, beyond]
    rfl

end StandsFor

/-! ## Stored numbers -/

/-- Whether a sign is the negative one. -/
def minus : Sign → Bool
  | .negative => true
  | .positive => false

theorem minus_signOf (x : Float) : minus (signOf x) = isNegative x := by
  rw [signOf]
  cases isNegative x <;> rfl

/-- A number is determined by its word. -/
theorem eq_of_word_eq {x y : Float} (same : word x = word y) : x = y := by
  rw [← ofBits_toBits x, ← ofBits_toBits y, UInt64.toNat_inj.1 same]

/-- What is stored as a sign, an exponent and a mantissa field has those as its word. -/
theorem ofPattern_of_packComponents {u : UnpackedFloat} {s : Sign} {e : BitVec 11} {m : BitVec 52}
    (packed : UnpackedFloat.pack Format.binary64 u = packComponents Format.binary64 s e m)
    (number : e.toNat * 2 ^ 52 + m.toNat ≤ infinityPattern) :
    (⟨.pack u⟩ : Float) = ofPattern (minus s) (e.toNat * 2 ^ 52 + m.toNat) := by
  have fields : (packComponents Format.binary64 s e m).toNat =
      (if minus s then 2 ^ 63 else 0) + (e.toNat * 2 ^ 52 + m.toNat) := by
    have sign : s = .ofBitVec (if minus s then 1#1 else 0#1) := by cases s <;> rfl
    conv_lhs => rw [sign]
    rw [toNat_packComponents]
    cases minus s with
    | false =>
        simp only [if_false, Bool.false_eq_true]
        change 0 * 2 ^ 63 + _ + _ = _
        omega
    | true =>
        simp only [if_true]
        change 1 * 2 ^ 63 + _ + _ = _
        omega
  refine eq_of_word_eq ?_
  rw [word_ofPattern _ _ number, ← fields, ← packed]
  rfl

/-- What fills at most 53 digits at its exponent, and fewer only at the lowest one, is stored as
the pattern with that scale and significand, or as infinity. -/
theorem pack_canonical (s : Sign) {m scale : Nat} (positive : 0 < m) (short : m < 2 ^ 53)
    (full : scale = 0 ∨ 2 ^ 52 ≤ m) :
    (⟨.pack (.finite s m ((scale : Int) - 1074) positive)⟩ : Float) =
      ofPattern (minus s) (min (scale * 2 ^ 52 + m) infinityPattern) := by
  have bound : infinityPattern = 2047 * 2 ^ 52 := rfl
  rcases Nat.lt_or_ge m (2 ^ 52) with small | large
  · obtain rfl : scale = 0 := by omega
    have mantissa : (BitVec.ofNat 52 m).toNat = m := by
      rw [BitVec.toNat_ofNat, Nat.mod_eq_of_lt small]
    have fields : (0#11).toNat * 2 ^ 52 + (BitVec.ofNat 52 m).toNat = m := by
      rw [mantissa, BitVec.toNat_ofNat]
      omega
    rw [show min (0 * 2 ^ 52 + m) infinityPattern = m by omega]
    conv_rhs => rw [← fields]
    exact ofPattern_of_packComponents (pack_subnormal s m positive small) (by omega)
  · obtain ⟨rest, rfl⟩ := Nat.exists_eq_add_of_le large
    rcases Nat.lt_or_ge scale 2046 with finite | infinite
    · have packed := pack_normal s rest (scale + 1) positive (by omega) (by omega)
      have exponent : ((scale + 1 : Nat) : Int) - 1075 = (scale : Int) - 1074 := by omega
      have fields : (BitVec.ofNat 11 (scale + 1)).toNat * 2 ^ 52 + (BitVec.ofNat 52 rest).toNat =
          scale * 2 ^ 52 + (2 ^ 52 + rest) := by
        rw [BitVec.toNat_ofNat, BitVec.toNat_ofNat, Nat.mod_eq_of_lt (by omega),
          Nat.mod_eq_of_lt (by omega)]
        omega
      rw [exponent] at packed
      rw [show min (scale * 2 ^ 52 + (2 ^ 52 + rest)) infinityPattern =
        scale * 2 ^ 52 + (2 ^ 52 + rest) by omega, ← fields]
      exact ofPattern_of_packComponents packed (by omega)
    · have biased : ((scale : Int) - 1074 + (Format.binary64.exponentBias : Int) +
          ((52 : Nat) : Int)).toNat = scale + 1 := by
        have bias : (Format.binary64.exponentBias : Int) = 1023 := rfl
        omega
      have packed : UnpackedFloat.pack Format.binary64
          (.finite s (2 ^ 52 + rest) ((scale : Int) - 1074) positive) =
            packComponents Format.binary64 s (-1#11) 0#52 := by
        simp only [UnpackedFloat.pack, biased]
        exact if_pos (by omega)
      have fields : (-1#11 : BitVec 11).toNat * 2 ^ 52 + (0#52).toNat = infinityPattern := rfl
      rw [show min (scale * 2 ^ 52 + (2 ^ 52 + rest)) infinityPattern = infinityPattern by omega,
        ← fields]
      exact ofPattern_of_packComponents packed (Nat.le_of_eq fields)

theorem pack_zero (s : Sign) : (⟨.pack (.zero s)⟩ : Float) = ofPattern (minus s) 0 := by
  cases s <;> decide +kernel

/-! ## Rounding -/

/-- The pattern nearest to a quotient of units. -/
def nearestUnits (count den : Nat) : Nat :=
  min (scaleOf (count / den) * 2 ^ 52 + roundHalfEven count (den * 2 ^ scaleOf (count / den)))
    infinityPattern

theorem nearest_eq_nearestUnits (num den : Nat) :
    nearest num den = nearestUnits (num * unitsOfOne) den := rfl

/-- The scale at which a quotient of units fills 53 digits, from the length of its integer part
before it is moved to its exponent. -/
theorem scaleOf_moved {a b : Nat} (positive : 0 < den) (enough : 0 < num / den ∨ a ≤ b) :
    (scaleOf (num * 2 ^ a / (den * 2 ^ b)) : Int) =
      max (((num / den).log2 : Int) + a - b - 52) 0 := by
  have divisor : 0 < den * 2 ^ b := Nat.mul_pos positive (Nat.two_pow_pos _)
  rcases Nat.eq_zero_or_pos (num / den) with vanishes | whole
  · have below : num < den := by
      rw [Nat.div_eq_zero_iff] at vanishes
      omega
    have order : a ≤ b := by omega
    have nothing : num * 2 ^ a / (den * 2 ^ b) = 0 := by
      refine Nat.div_eq_of_lt ?_
      calc num * 2 ^ a < den * 2 ^ a := Nat.mul_lt_mul_of_pos_right below (Nat.two_pow_pos _)
        _ ≤ den * 2 ^ b := Nat.mul_le_mul_left _ (Nat.pow_le_pow_right (by decide) order)
    have logZero : Nat.log2 0 = 0 := by decide
    rw [nothing, vanishes, scaleOf, logZero]
    omega
  · have low := (Nat.le_div_iff_mul_le positive).1 (Nat.log2_self_le (Nat.ne_of_gt whole))
    have high := (Nat.div_lt_iff_lt_mul positive).1 (Nat.lt_log2_self (n := num / den))
    generalize (num / den).log2 = length at *
    rcases Nat.lt_or_ge (length + a) b with short | long
    · have nothing : num * 2 ^ a / (den * 2 ^ b) = 0 := by
        refine Nat.div_eq_of_lt ?_
        calc num * 2 ^ a < 2 ^ (length + 1) * den * 2 ^ a :=
              Nat.mul_lt_mul_of_pos_right high (Nat.two_pow_pos _)
          _ = den * 2 ^ (length + 1 + a) := by
              rw [Nat.pow_add _ (length + 1), Nat.mul_comm (2 ^ (length + 1)), Nat.mul_assoc]
          _ ≤ den * 2 ^ b :=
              Nat.mul_le_mul_left _ (Nat.pow_le_pow_right (by decide) (by omega))
      have logZero : Nat.log2 0 = 0 := by decide
      rw [nothing, scaleOf, logZero]
      omega
    · have moved : 2 ^ (length + a) = 2 ^ (length + a - b) * 2 ^ b := by
        rw [← Nat.pow_add, Nat.sub_add_cancel long]
      have lower : 2 ^ (length + a - b) ≤ num * 2 ^ a / (den * 2 ^ b) := by
        rw [Nat.le_div_iff_mul_le divisor]
        calc 2 ^ (length + a - b) * (den * 2 ^ b) = den * 2 ^ (length + a) := by
              rw [moved]
              ring
          _ = 2 ^ length * den * 2 ^ a := by
              rw [Nat.pow_add]
              ring
          _ ≤ num * 2 ^ a := Nat.mul_le_mul_right _ low
      have upper : num * 2 ^ a / (den * 2 ^ b) < 2 ^ (length + a - b + 1) := by
        rw [Nat.div_lt_iff_lt_mul divisor]
        calc num * 2 ^ a < 2 ^ (length + 1) * den * 2 ^ a :=
              Nat.mul_lt_mul_of_pos_right high (Nat.two_pow_pos _)
          _ = 2 * den * 2 ^ (length + a) := by
              rw [Nat.pow_add, Nat.pow_succ]
              ring
          _ = 2 ^ (length + a - b + 1) * (den * 2 ^ b) := by
              rw [moved, Nat.pow_succ]
              ring
      have log : (num * 2 ^ a / (den * 2 ^ b)).log2 = length + a - b :=
        (Nat.log2_eq_iff (by have := Nat.two_pow_pos (length + a - b); omega)).2 ⟨lower, upper⟩
      rw [scaleOf, log]
      omega

/-- Digits that are too many at an exponent are dropped, and the bits left over say how. -/
theorem roundedMantissa_shifted {exponent : Int} {a b : Nat} (positive : 0 < den)
    (place : exponent + 1074 = a - b)
    (fits : exponent ≤ (scaleOf (num * 2 ^ a / (den * 2 ^ b)) : Int) - 1074) :
    (ExtendedMantissa.ofMantissaAndAccuracy (num / den) (accuracyOfFraction (num % den) den) >>>
        ((scaleOf (num * 2 ^ a / (den * 2 ^ b)) : Int) - 1074 - exponent).toNat).roundedMantissa =
      roundHalfEven (num * 2 ^ a) (den * 2 ^ b * 2 ^ scaleOf (num * 2 ^ a / (den * 2 ^ b))) := by
  have stands := (standsFor_accuracyOfFraction num positive).shiftRight positive
    ((scaleOf (num * 2 ^ a / (den * 2 ^ b)) : Int) - 1074 - exponent).toNat
  generalize scaleOf (num * 2 ^ a / (den * 2 ^ b)) = scale at *
  obtain ⟨places, distance⟩ :=
    Int.eq_ofNat_of_zero_le (by omega : 0 ≤ (scale : Int) - 1074 - exponent)
  rw [distance, Int.toNat_natCast] at stands ⊢
  have moved : den * 2 ^ b * 2 ^ scale = 2 ^ a * (den * 2 ^ places) := by
    have sum : b + scale = a + places := by omega
    rw [Nat.mul_assoc, ← Nat.pow_add, sum, Nat.pow_add]
    ring
  rw [stands.roundedMantissa_eq, moved, Nat.mul_comm num,
    roundHalfEven_mul_mul (Nat.two_pow_pos a)]

/-- The exponent of a mantissa that has 53 digits, or fewer at the lowest exponent, is kept. -/
theorem targetExponent_of_short {m scale : Nat} (short : m < 2 ^ 53)
    (full : scale = 0 ∨ 2 ^ 52 ≤ m) :
    Format.binary64.targetExponent (totalExponent m ((scale : Int) - 1074)) =
      (scale : Int) - 1074 := by
  rw [targetExponent_eq, totalExponent]
  rcases Nat.eq_zero_or_pos m with rfl | positive
  · have zero : Nat.log2 0 = 0 := by decide
    omega
  · have top := (Nat.log2_lt (Nat.ne_of_gt positive)).2 short
    rcases full with rfl | large
    · omega
    · have bottom := (Nat.le_log2 (Nat.ne_of_gt positive)).2 large
      omega

/-- What was rounded is stored as the pattern with that scale and significand. A significand of 54
digits is a power of two, and loses its last digit to the scale. -/
theorem pack_settled (s : Sign) {m scale : Nat} (bounded : m ≤ 2 ^ 53)
    (full : scale = 0 ∨ 2 ^ 52 ≤ m) {result : ExtendedMantissa × Int}
    (settled : shiftToTargetExponent Format.binary64 m ((scale : Int) - 1074) .exact = result) :
    (⟨.pack (if h : result.1.mantissa = 0 then .zero s
      else .finite s result.1.mantissa result.2 (Nat.pos_of_ne_zero h))⟩ : Float) =
        ofPattern (minus s) (min (scale * 2 ^ 52 + m) infinityPattern) := by
  rcases Nat.lt_or_eq_of_le bounded with short | rfl
  · have kept : result = (⟨m, false, false⟩, (scale : Int) - 1074) := by
      rw [← settled, shiftToTargetExponent, targetExponent_of_short short full]
      simp only [shiftToExponent, Int.sub_self]
      exact congrArg (Prod.mk _) (Int.add_zero _)
    subst kept
    by_cases zero : m = 0
    · subst zero
      obtain rfl : scale = 0 := by omega
      exact pack_zero s
    · simp only [dif_neg zero]
      exact pack_canonical s (Nat.pos_of_ne_zero zero) short full
  · have log : (2 ^ 53 : Nat).log2 = 53 := by decide +kernel
    have target : Format.binary64.targetExponent (totalExponent (2 ^ 53) ((scale : Int) - 1074)) =
        (scale : Int) - 1074 + 1 := by
      rw [targetExponent_eq, totalExponent, log]
      omega
    have shifted : result = (⟨2 ^ 52, false, false⟩, ((scale + 1 : Nat) : Int) - 1074) := by
      have once : ((scale : Int) - 1074 + 1 - ((scale : Int) - 1074)).toNat = 1 := by omega
      rw [← settled, shiftToTargetExponent, target]
      simp only [shiftToExponent, once]
      refine congrArg (Prod.mk _) ?_
      omega
    subst shifted
    have carried : scale * 2 ^ 52 + 2 ^ 53 = (scale + 1) * 2 ^ 52 + 2 ^ 52 := by omega
    simp only [dif_neg (by decide : ¬ 2 ^ 52 = 0), carried]
    exact pack_canonical s (by decide) (by decide) (.inr (Nat.le_refl _))

/-- A mantissa with its accuracy is rounded and stored as the pattern nearest to the quotient that
it stands for. The mantissa must have digits enough, unless it stands at the lowest exponent. -/
theorem pack_roundWithAccuracy (s : Sign) {exponent : Int} {a b : Nat} (positive : 0 < den)
    (place : exponent + 1074 = a - b) (fits : exponent ≤ -1074 ∨ 52 ≤ (num / den).log2) :
    (⟨.pack (roundWithAccuracy Format.binary64 s (num / den) exponent
      (accuracyOfFraction (num % den) den))⟩ : Float) =
        ofPattern (minus s) (nearestUnits (num * 2 ^ a) (den * 2 ^ b)) := by
  have whole : 0 < num / den ∨ a ≤ b := by
    rcases fits with low | long
    · exact .inr (by omega)
    · refine .inl (Nat.pos_of_ne_zero fun zero => ?_)
      rw [zero] at long
      exact absurd long (by decide)
  have scale_eq := scaleOf_moved positive whole
  have target : Format.binary64.targetExponent (totalExponent (num / den) exponent) =
      (scaleOf (num * 2 ^ a / (den * 2 ^ b)) : Int) - 1074 := by
    rw [targetExponent_eq, totalExponent]
    omega
  have enough : exponent ≤ (scaleOf (num * 2 ^ a / (den * 2 ^ b)) : Int) - 1074 := by omega
  have rounded := roundedMantissa_shifted positive place enough
  have divisor : 0 < den * 2 ^ b := Nat.mul_pos positive (Nat.two_pow_pos _)
  have high := count_lt (num * 2 ^ a) divisor
  have low : 0 < scaleOf (num * 2 ^ a / (den * 2 ^ b)) → _ := le_count divisor
  rw [roundWithAccuracy, nearestUnits]
  -- The first shift drops the digits that are too many, and the second settles a carry.
  generalize first_eq : shiftToTargetExponent Format.binary64 (num / den) exponent
    (accuracyOfFraction (num % den) den) = first
  rw [shiftToTargetExponent, target, shiftToExponent] at first_eq
  generalize scaleOf (num * 2 ^ a / (den * 2 ^ b)) = scale at *
  have step : 0 < den * 2 ^ b * 2 ^ scale := Nat.mul_pos divisor (Nat.two_pow_pos _)
  have exact : first.2 = (scale : Int) - 1074 := by
    rw [← first_eq]
    dsimp only
    omega
  have mantissa : first.1.roundedMantissa =
      roundHalfEven (num * 2 ^ a) (den * 2 ^ b * 2 ^ scale) := by
    rw [← first_eq]
    exact rounded
  obtain ⟨kept, place⟩ := first
  dsimp only at exact mantissa ⊢
  generalize kept.roundedMantissa = digits at mantissa ⊢
  subst exact mantissa
  refine pack_settled s (roundHalfEven_le step (Nat.le_of_lt high)) ?_ rfl
  rcases Nat.eq_zero_or_pos scale with zero | above
  · exact .inl zero
  · exact .inr (le_roundHalfEven step (low above))

end Calculator.Binary64
