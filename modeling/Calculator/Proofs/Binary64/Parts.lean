import Calculator.Binary64.Word
import Calculator.Proofs.Binary64.Comparison

/-!
# The parts of a number

Arithmetic works on unpacked numbers: a sign with a mantissa and an exponent, or
a zero, an infinity, or no number. Here the parts are read off the pattern. A
pattern past infinity is no number (`parts_of_isNaN`), the pattern of infinity an
infinity, the pattern zero a zero, and every other pattern is the finite number
whose mantissa is the significand of the pattern and whose exponent is its scale,
counted in units (`parts_of_finite`).
-/

set_option autoImplicit false

namespace Calculator.Binary64

open Float.Model (Format UnpackedFloat)
open Float.Model.UnpackedFloat (Sign)

/-- Sign, mantissa and exponent of a number, or what it is otherwise. -/
abbrev parts (x : Float) : UnpackedFloat := x.toModel.unpack

/-- The sign of a number, that of a zero included. -/
def signOf (x : Float) : Sign := if isNegative x then .negative else .positive

theorem ofBitVec_signField (x : Float) :
    Sign.ofBitVec (signField x.toBits.toBitVec) = signOf x := by
  have bit := toNat_signField x.toBits.toBitVec
  have bits : x.toBits.toBitVec.toNat = word x := rfl
  have bound := x.toBits.toBitVec.isLt
  rw [bits] at bit bound
  have clear : signField x.toBits.toBitVec = 0#1 ↔ word x < 2 ^ 63 := by
    rw [← BitVec.toNat_inj, bit]
    change word x / 2 ^ 63 = 0 ↔ _
    omega
  rw [Sign.ofBitVec, signOf, isNegative]
  by_cases negative : 2 ^ 63 ≤ word x
  · rw [if_neg (by rw [clear]; omega), if_pos (by simpa using negative)]
  · rw [if_pos (by rw [clear]; omega), if_neg (by simpa using negative)]

/-- The exponent field of a number is made of the eleven bits above the mantissa. -/
theorem toNat_exponentField_toBits (x : Float) :
    (exponentField x.toBits.toBitVec).toNat = pattern x / 2 ^ 52 := by
  rw [toNat_exponentField, pattern]
  change word x / 2 ^ 52 % 2 ^ 11 = word x % 2 ^ 63 / 2 ^ 52
  omega

theorem toNat_mantissaField_toBits (x : Float) :
    (mantissaField x.toBits.toBitVec).toNat = pattern x % 2 ^ 52 := by
  rw [toNat_mantissaField, pattern]
  change word x % 2 ^ 52 = word x % 2 ^ 63 % 2 ^ 52
  omega

theorem pattern_lt (x : Float) : pattern x < 2 ^ 63 := Nat.mod_lt _ (by decide)

theorem exponentField_eq_iff (x : Float) :
    exponentField x.toBits.toBitVec = -1#11 ↔ infinityPattern ≤ pattern x := by
  have bound := pattern_lt x
  rw [← BitVec.toNat_inj, toNat_exponentField_toBits, infinityPattern]
  change pattern x / 2 ^ 52 = 2047 ↔ _
  omega

/-- What is past infinity has no parts. -/
theorem parts_of_isNaN {x : Float} (missing : isNaN x = true) : parts x = .notANumber := by
  have past : infinityPattern < pattern x := of_decide_eq_true missing
  have full := (exponentField_eq_iff x).2 (Nat.le_of_lt past)
  have bound := pattern_lt x
  have payload : mantissaField x.toBits.toBitVec ≠ 0#52 := by
    rw [Ne, ← BitVec.toNat_inj, toNat_mantissaField_toBits]
    change ¬ pattern x % 2 ^ 52 = 0
    rw [infinityPattern] at past
    omega
  change UnpackedFloat.unpack Format.binary64 x.toBits.toBitVec = _
  rw [UnpackedFloat.unpack]
  simp only [if_pos full, if_neg payload]

theorem parts_of_infinite {x : Float} (infinite : pattern x = infinityPattern) :
    parts x = .infinity (signOf x) := by
  have full := (exponentField_eq_iff x).2 (Nat.le_of_eq infinite.symm)
  have payload : mantissaField x.toBits.toBitVec = 0#52 := by
    rw [← BitVec.toNat_inj, toNat_mantissaField_toBits, infinite]
    rfl
  change UnpackedFloat.unpack Format.binary64 x.toBits.toBitVec = _
  rw [UnpackedFloat.unpack]
  simp only [if_pos full, if_pos payload, ← ofBitVec_signField]

theorem parts_of_zero {x : Float} (zero : pattern x = 0) : parts x = .zero (signOf x) := by
  have finite : ¬ exponentField x.toBits.toBitVec = -1#11 := by
    rw [exponentField_eq_iff, zero]
    decide
  have small : exponentField x.toBits.toBitVec = 0#11 := by
    rw [← BitVec.toNat_inj, toNat_exponentField_toBits, zero]
    rfl
  have payload : mantissaField x.toBits.toBitVec = 0#52 := by
    rw [← BitVec.toNat_inj, toNat_mantissaField_toBits, zero]
    rfl
  change UnpackedFloat.unpack Format.binary64 x.toBits.toBitVec = _
  rw [UnpackedFloat.unpack]
  simp only [if_neg finite, if_pos small, dif_pos payload, ← ofBitVec_signField]

theorem significand_pos {bits : Nat} (positive : 0 < bits) : 0 < significand bits := by
  rw [significand, scale]
  omega

/-- A finite number other than zero has its significand as mantissa. -/
theorem parts_of_finite {x : Float} (finite : pattern x < infinityPattern)
    (positive : 0 < pattern x) :
    parts x = .finite (signOf x) (significand (pattern x)) ((scale (pattern x) : Int) - 1074)
      (significand_pos positive) := by
  have notFull : ¬ exponentField x.toBits.toBitVec = -1#11 := by
    rw [exponentField_eq_iff]
    omega
  have exponent := toNat_exponentField_toBits x
  have mantissa := toNat_mantissaField_toBits x
  have whole : (1#1 ++ mantissaField x.toBits.toBitVec).toNat =
      2 ^ 52 + (mantissaField x.toBits.toBitVec).toNat := by
    rw [BitVec.toNat_append, ← Nat.shiftLeft_add_eq_or_of_lt (BitVec.isLt _)]
    rfl
  have bias : (Format.binary64.exponentBias : Int) + (52 : Nat) = 1075 := rfl
  change UnpackedFloat.unpack Format.binary64 x.toBits.toBitVec = _
  rw [UnpackedFloat.unpack]
  by_cases small : exponentField x.toBits.toBitVec = 0#11
  · have zero : pattern x / 2 ^ 52 = 0 := by rw [← exponent, small]; rfl
    have payload : ¬ mantissaField x.toBits.toBitVec = 0#52 := by
      rw [← BitVec.toNat_inj, mantissa]
      change ¬ pattern x % 2 ^ 52 = 0
      omega
    simp only [if_neg notFull, if_pos small, dif_neg payload, ofBitVec_signField]
    simp only [UnpackedFloat.finite.injEq, true_and]
    constructor
    · rw [mantissa, significand, scale]
      omega
    · rw [exponent, scale, bias]
      omega
  · have nonzero : pattern x / 2 ^ 52 ≠ 0 := by
      rw [← exponent]
      exact fun zero => small (BitVec.eq_of_toNat_eq zero)
    simp only [if_neg notFull, if_neg small, ofBitVec_signField]
    simp only [UnpackedFloat.finite.injEq, true_and]
    constructor
    · rw [whole, mantissa, significand, scale]
      omega
    · rw [exponent, scale, bias]
      omega

/-- What is a number is a zero, an infinity or a finite number in between. -/
theorem parts_cases {x : Float} (number : isNaN x = false) :
    (pattern x = 0 ∧ parts x = .zero (signOf x)) ∨
      (0 < pattern x ∧ pattern x < infinityPattern ∧ ∃ positive,
        parts x = .finite (signOf x) (significand (pattern x)) ((scale (pattern x) : Int) - 1074)
          positive) ∨
      pattern x = infinityPattern ∧ parts x = .infinity (signOf x) := by
  rcases Nat.eq_zero_or_pos (pattern x) with zero | positive
  · exact .inl ⟨zero, parts_of_zero zero⟩
  rcases Nat.lt_or_eq_of_le (Nat.not_lt.1 (of_decide_eq_false number)) with finite | infinite
  · exact .inr (.inl ⟨positive, finite, _, parts_of_finite finite positive⟩)
  · exact .inr (.inr ⟨infinite, parts_of_infinite infinite⟩)

/-! ## Arithmetic on parts -/

theorem add_eq_pack (x y : Float) :
    x + y = ⟨.pack (UnpackedFloat.add Format.binary64 (parts x) (parts y))⟩ := rfl

theorem sub_eq_pack (x y : Float) :
    x - y = ⟨.pack (UnpackedFloat.sub Format.binary64 (parts x) (parts y))⟩ := rfl

theorem mul_eq_pack (x y : Float) :
    x * y = ⟨.pack (UnpackedFloat.mul Format.binary64 (parts x) (parts y))⟩ := rfl

theorem div_eq_pack (x y : Float) :
    x / y = ⟨.pack (UnpackedFloat.div Format.binary64 (parts x) (parts y))⟩ := rfl

theorem sqrt_eq_pack (x : Float) :
    x.sqrt = ⟨.pack (UnpackedFloat.sqrt Format.binary64 (parts x))⟩ := rfl

/-- Every result is rounded at the exponent that leaves it 53 digits, but not below the lowest. -/
theorem targetExponent_eq (exponent : Int) :
    Format.binary64.targetExponent exponent = max (exponent - 53) (-1074) := rfl

end Calculator.Binary64
