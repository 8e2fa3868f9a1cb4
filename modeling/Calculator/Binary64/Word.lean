import Calculator.Binary64.Conversion
import Mathlib

/-!
# Words and numbers

A number is determined by its sign bit and its pattern. `word_ofPattern` says that a number built
from a sign and a pattern has just these 64 bits, for every pattern up to infinity, and
`ofPattern_pattern` that a number is rebuilt from its own sign and pattern. Beyond infinity the
bits of a pattern need not survive, because what is no number carries no further information.

The proof follows the three fields of a word: a sign bit, eleven bits of exponent, and 52 bits of
mantissa.
-/

set_option autoImplicit false

namespace Calculator.Binary64

open Float.Model (Format)
open Float.Model.UnpackedFloat (Sign packComponents unpackSign unpackExponent unpackMantissa)

/-! ## The fields of a word -/

/-- The sign bit of a word. -/
abbrev signField (w : BitVec 64) : BitVec 1 := @unpackSign Format.binary64 w

/-- The exponent bits of a word. -/
abbrev exponentField (w : BitVec 64) : BitVec 11 := @unpackExponent Format.binary64 w

/-- The mantissa bits of a word. -/
abbrev mantissaField (w : BitVec 64) : BitVec 52 := @unpackMantissa Format.binary64 w

theorem toNat_signField (w : BitVec 64) : (signField w).toNat = w.toNat / 2 ^ 63 := by
  have := w.isLt
  simp [signField, unpackSign, Nat.shiftRight_eq_div_pow]
  omega

theorem toNat_exponentField (w : BitVec 64) :
    (exponentField w).toNat = w.toNat / 2 ^ 52 % 2 ^ 11 := by
  simp [exponentField, unpackExponent, Nat.shiftRight_eq_div_pow]

theorem toNat_mantissaField (w : BitVec 64) : (mantissaField w).toNat = w.toNat % 2 ^ 52 := by
  simp [mantissaField, unpackMantissa]

theorem toBitVec_ofBitVec (v : BitVec 1) : (Sign.ofBitVec v).toBitVec = v := by
  revert v; decide

/-- Three fields make up the word with the sign bit on top and the mantissa at the bottom. -/
theorem toNat_packComponents (s : BitVec 1) (e : BitVec 11) (m : BitVec 52) :
    (packComponents Format.binary64 (Sign.ofBitVec s) e m).toNat =
      s.toNat * 2 ^ 63 + e.toNat * 2 ^ 52 + m.toNat := by
  have fields : (packComponents Format.binary64 (Sign.ofBitVec s) e m).toNat =
      ((Sign.ofBitVec s).toBitVec ++ e ++ m).toNat := rfl
  rw [fields, toBitVec_ofBitVec, BitVec.toNat_append, BitVec.toNat_append,
    ← Nat.shiftLeft_add_eq_or_of_lt e.isLt, ← Nat.shiftLeft_add_eq_or_of_lt m.isLt,
    Nat.shiftLeft_eq, Nat.shiftLeft_eq]
  omega

/-! ## Packing what was unpacked -/

/-- Packing a subnormal number puts its mantissa next to an exponent field of zero. -/
theorem pack_subnormal (s : Sign) (m : Nat) (positive : 0 < m) (small : m < 2 ^ 52) :
    Float.Model.UnpackedFloat.pack Format.binary64 (.finite s m (-1074) positive) =
      packComponents Format.binary64 s 0#11 (BitVec.ofNat 52 m) := by
  have log : m.log2 < 52 := (Nat.log2_lt (by omega)).2 small
  have short : ¬ m.log2 + 1 = Format.binary64.mantissaBits := by
    have : Format.binary64.mantissaBits = 53 := rfl
    omega
  simp only [Float.Model.UnpackedFloat.pack]
  rw [if_neg (by decide), if_neg short]

/-- Packing a normal number drops the leading bit of its mantissa. -/
theorem pack_normal (s : Sign) (m e : Nat) (positive : 0 < 2 ^ 52 + m) (small : m < 2 ^ 52)
    (exponent : e < 2047) :
    Float.Model.UnpackedFloat.pack Format.binary64
        (.finite s (2 ^ 52 + m) ((e : Int) - 1075) positive) =
      packComponents Format.binary64 s (BitVec.ofNat 11 e) (BitVec.ofNat 52 m) := by
  have log : (2 ^ 52 + m).log2 = 52 := (Nat.log2_eq_iff (by omega)).2 (by omega)
  have bias :
      ((e : Int) - 1075 + (Format.binary64.exponentBias : Int) + ((52 : Nat) : Int)).toNat = e := by
    have : (Format.binary64.exponentBias : Int) = 1023 := rfl
    omega
  have mantissa : BitVec.ofNat 52 (2 ^ 52 + m) = BitVec.ofNat 52 m := by
    apply BitVec.eq_of_toNat_eq; simp
  simp only [Float.Model.UnpackedFloat.pack]
  rw [bias, if_neg (by simp; omega), if_pos (by rw [log]; rfl), mantissa]

/-- A word up to infinity is recovered from the number it stands for. -/
theorem pack_unpack (w : BitVec 64) (number : w.toNat % 2 ^ 63 ≤ infinityPattern) :
    Float.Model.UnpackedFloat.pack Format.binary64
      (Float.Model.UnpackedFloat.unpack Format.binary64 w) = w := by
  have sign := toNat_signField w
  have exponent := toNat_exponentField w
  have mantissa := toNat_mantissaField w
  have bound := w.isLt
  simp only [infinityPattern] at number
  have rebuild : packComponents Format.binary64 (Sign.ofBitVec (signField w)) (exponentField w)
      (mantissaField w) = w := by
    apply BitVec.eq_of_toNat_eq
    rw [toNat_packComponents, sign, exponent, mantissa]
    omega
  have whole : (1#1 ++ mantissaField w).toNat = 2 ^ 52 + (mantissaField w).toNat := by
    rw [BitVec.toNat_append, ← Nat.shiftLeft_add_eq_or_of_lt (BitVec.isLt _)]; rfl
  have unpacked : Float.Model.UnpackedFloat.unpack Format.binary64 w =
      if exponentField w = -1#11 then
        if mantissaField w = 0#52 then .infinity (Sign.ofBitVec (signField w)) else .notANumber
      else if exponentField w = 0#11 then
        if h : mantissaField w = 0#52 then .zero (Sign.ofBitVec (signField w))
        else .finite (Sign.ofBitVec (signField w)) (mantissaField w).toNat
          (((exponentField w).toNat : Int) - 1075 + 1)
          (by simpa [BitVec.toNat_pos, BitVec.pos_iff_ne_zero])
      else .finite (Sign.ofBitVec (signField w)) (1#1 ++ mantissaField w).toNat
          (((exponentField w).toNat : Int) - 1075) (by rw [whole]; omega) := rfl
  rw [unpacked]
  split
  case isTrue infinite =>
    have vanishes : mantissaField w = 0#52 := by
      apply BitVec.eq_of_toNat_eq
      rw [infinite] at exponent
      simp at exponent
      rw [mantissa]; simp; omega
    rw [if_pos vanishes]
    rw [infinite, vanishes] at rebuild
    exact rebuild
  case isFalse finite =>
    split
    case isTrue small =>
      split
      case isTrue zero =>
        rw [small, zero] at rebuild
        exact rebuild
      case isFalse nonzero =>
        have lowest : ((exponentField w).toNat : Int) - 1075 + 1 = -1074 := by rw [small]; rfl
        have kept : BitVec.ofNat 52 (mantissaField w).toNat = mantissaField w := by simp
        rw [small] at rebuild
        simp only [lowest]
        rw [pack_subnormal _ _ _ (BitVec.isLt _), kept]
        exact rebuild
    case isFalse normal =>
      have below : (exponentField w).toNat < 2047 := by
        have : (exponentField w).toNat ≠ 2047 := fun h => finite (BitVec.eq_of_toNat_eq h)
        omega
      have keptE : BitVec.ofNat 11 (exponentField w).toNat = exponentField w := by simp
      have keptM : BitVec.ofNat 52 (mantissaField w).toNat = mantissaField w := by simp
      simp only [whole]
      rw [pack_normal _ _ _ _ (BitVec.isLt _) below, keptE, keptM]
      exact rebuild

/-! ## Sign, pattern and number -/

/-- The 64 bits of a number built from a word up to infinity are that word. -/
theorem toBits_ofBits (w : UInt64) (number : w.toNat % 2 ^ 63 ≤ infinityPattern) :
    (Float.ofBits w).toBits = w := by
  have := pack_unpack w.toBitVec number
  simp only [Float.ofBits, Float.toBits, Float.Model.ofBits, Float.Model.pack]
  rw [this]

/-- The 64 bits of a number with a given sign and pattern. -/
theorem word_ofPattern (negative : Bool) (bits : Nat) (number : bits ≤ infinityPattern) :
    word (ofPattern negative bits) = (if negative then 2 ^ 63 else 0) + bits := by
  simp only [infinityPattern] at number
  have fits : (if negative then 2 ^ 63 + bits else bits) < 2 ^ 64 := by split <;> omega
  have bits_eq : (UInt64.ofNat (if negative then 2 ^ 63 + bits else bits)).toNat =
      if negative then 2 ^ 63 + bits else bits := by
    rw [UInt64.toNat_ofNat', Nat.mod_eq_of_lt fits]
  rw [word, ofPattern, toBits_ofBits, bits_eq]
  · split <;> omega
  · rw [bits_eq, infinityPattern]; split <;> omega

theorem isNegative_ofPattern (negative : Bool) (bits : Nat) (number : bits ≤ infinityPattern) :
    isNegative (ofPattern negative bits) = negative := by
  rw [isNegative, word_ofPattern negative bits number]
  simp only [infinityPattern] at number
  cases negative <;> simp; omega

theorem pattern_ofPattern (negative : Bool) (bits : Nat) (number : bits ≤ infinityPattern) :
    pattern (ofPattern negative bits) = bits := by
  rw [pattern, word_ofPattern negative bits number]
  simp only [infinityPattern] at number
  split <;> omega

/-- Every number, and also what is no number, is rebuilt from its 64 bits. -/
theorem ofBits_toBits (x : Float) : Float.ofBits x.toBits = x := by
  obtain ⟨⟨w, valid⟩⟩ := x
  have same : Float.Model.UnpackedFloat.pack Format.binary64
      (Float.Model.UnpackedFloat.unpack Format.binary64 w.toBitVec) = w.toBitVec := by
    by_cases number : w.toNat % 2 ^ 63 ≤ infinityPattern
    · exact pack_unpack w.toBitVec number
    · have exponent := toNat_exponentField w.toBitVec
      have mantissa := toNat_mantissaField w.toBitVec
      have bound := w.toBitVec.isLt
      have word_eq : w.toBitVec.toNat = w.toNat := rfl
      rw [infinityPattern] at number
      have full : exponentField w.toBitVec = -1#11 := by
        apply BitVec.eq_of_toNat_eq
        rw [exponent, word_eq]; simp; omega
      have payload : mantissaField w.toBitVec ≠ 0#52 := by
        intro h
        rw [h, word_eq] at mantissa
        simp at mantissa
        omega
      rw [Float.Model.UnpackedFloat.unpack]
      simp only [if_pos full, if_neg payload]
      exact (valid.eq_packedNaN full payload).symm
  simp only [Float.toBits, Float.ofBits, Float.Model.ofBits, Float.Model.pack, same]

/-- A number is rebuilt from its own sign and pattern. -/
theorem ofPattern_pattern (x : Float) : ofPattern (isNegative x) (pattern x) = x := by
  have bound : word x < 2 ^ 64 := x.toBits.toNat_lt
  have bits_eq : (if isNegative x then 2 ^ 63 + pattern x else pattern x) = word x := by
    simp only [isNegative, pattern, decide_eq_true_eq]
    split <;> omega
  rw [ofPattern, bits_eq, word, UInt64.ofNat_toNat, ofBits_toBits]

/-- Numbers with the same sign and the same pattern are the same. -/
theorem eq_of_pattern_eq {x y : Float} (sign : isNegative x = isNegative y)
    (patterns : pattern x = pattern y) : x = y := by
  rw [← ofPattern_pattern x, ← ofPattern_pattern y, sign, patterns]

end Calculator.Binary64
