import Calculator.Builtin.Truth
import Calculator.Operator.Apply
import Calculator.Proofs.Base.Literals
import Calculator.Proofs.Binary64.Rounded
import Calculator.Proofs.Outcome

/-!
# Integer results as integer operands

An integer operation computes a 64-bit word and returns the number nearest to
it. Whether the next operation takes that number is a question about rounding:
a word more than 512 below `2 ^ 63` is returned as an integer of the signed
range, which is read again and shown as a pattern, and the last 512 words are
all returned as `2 ^ 63` itself, which is neither (`Fate`).

**Which operations come near the limit.** The integer part of a number fills at
most 53 binary digits, up to zeros at its end (`short_truncate`). Such an
integer is either far from the limit or a multiple of 1024, and so is its
product with a power of two, also after it has wrapped around
(`Short.wrap_lt_limit`). A conjunction is not above both of its operands and a
shift to the right not above its left one, so `&`, `<<` and `>>` never come near
the limit. `|`, `^` and the complement do, and `integer_results` says what they
return then.
-/

set_option autoImplicit false

namespace Calculator

open Binary64 (truncate toInteger? ofInt rounded isFinite)
open Base (patternOf)

/-! ## Reading operands -/

namespace Integer

theorem fits_iff {n : Int} : fits n = true ↔ -2 ^ 63 ≤ n ∧ n < 2 ^ 63 := by
  rw [fits, Bool.and_eq_true, decide_eq_true_eq, decide_eq_true_eq]

/-- The word that a number is read as has its integer part. -/
theorem toInt_of_ofNumber {what : String} {x : Float} {a : Int64}
    (read : ofNumber what x = .ok a) : a.toInt = truncate x := by
  rw [ofNumber] at read
  split at read
  case isTrue => cases read
  case isFalse =>
    simp only at read
    split at read
    case isTrue inside =>
      cases read
      obtain ⟨low, high⟩ := fits_iff.1 inside
      exact Int64.toInt_ofInt_of_le low high
    case isFalse => cases read

/-- An integer is read as its word if it fits, and is too large otherwise. -/
theorem ofNumber_of_integer {x : Float} {n : Int} (integer : toInteger? x = some n)
    (what : String) :
    ofNumber what x =
      if fits n then .ok (Int64.ofInt n) else .error (.overflow (.integer x what)) := by
  rw [toInteger?] at integer
  split at integer
  case isTrue integral =>
    obtain rfl : truncate x = n := Option.some_inj.1 integer
    have finite : isFinite x = true := (Bool.and_eq_true_iff.1 integral).1
    rw [ofNumber, finite]
    rfl
  case isFalse => cases integer

/-! ## Integers of few digits -/

/-- An integer that fills at most 53 binary digits, up to zeros at its end. -/
def Short (n : Int) : Prop :=
  ∃ steps exponent, steps < 2 ^ 53 ∧ n.natAbs = steps * 2 ^ exponent

/-- The integer part of a number is short. -/
theorem short_truncate (x : Float) : Short (truncate x) := by
  rw [Short, Binary64.natAbs_truncate, Binary64.magnitude]
  rcases Binary64.whole_units (Binary64.pattern x) with small | ⟨exponent, whole⟩
  · exact ⟨_, 0, small, (Nat.mul_one _).symm⟩
  · refine ⟨_, exponent, Binary64.significand_lt (Binary64.pattern x), ?_⟩
    rw [whole, Nat.mul_div_cancel _ Binary64.unitsOfOne_pos]

/-- A short integer stays short when zeros are appended. -/
theorem Short.mul_two_pow {n : Int} (short : Short n) (places : Nat) : Short (n * 2 ^ places) := by
  obtain ⟨steps, exponent, small, value⟩ := short
  refine ⟨steps, exponent + places, small, ?_⟩
  have power : ((2 : Int) ^ places).natAbs = 2 ^ places := by rw [Int.natAbs_pow]; rfl
  rw [Int.natAbs_mul, power, value, Nat.pow_add, Nat.mul_assoc]

/-- A short integer with more than 62 digits ends in ten zeros. -/
theorem Short.dvd_of_large {n : Int} (short : Short n) (large : 2 ^ 62 ≤ n.natAbs) :
    (1024 : Int) ∣ n := by
  obtain ⟨steps, exponent, small, value⟩ := short
  have tail : 10 ≤ exponent := by
    by_contra few
    have power : 2 ^ exponent ≤ 2 ^ 9 := Nat.pow_le_pow_right (by decide) (by omega)
    have below : steps * 2 ^ exponent ≤ (2 ^ 53 - 1) * 2 ^ 9 := Nat.mul_le_mul (by omega) power
    omega
  rw [← Int.natAbs_dvd_natAbs, value]
  exact Nat.dvd_mul_left_of_dvd (Nat.pow_dvd_pow 2 tail) steps

/-- A short integer that wraps around to a word does not come near the limit. -/
theorem Short.wrap_lt_limit {n : Int} (short : Short n) : n.bmod (2 ^ 64) < 2 ^ 63 - 512 := by
  have turns : ((2 ^ 64 : Nat) : Int) ∣ n.bmod (2 ^ 64) - n := Int.dvd_bmod_sub_self
  have high : n.bmod (2 ^ 64) < (((2 ^ 64 : Nat) : Int) + 1) / 2 := Int.bmod_lt (by decide)
  rcases Nat.lt_or_ge n.natAbs (2 ^ 62) with small | large
  · have kept : n.bmod (2 ^ 64) = n := Int.bmod_eq_of_le (by omega) (by omega)
    omega
  · have zeros := short.dvd_of_large large
    omega

/-! ## Words that stay away from the limit -/

/-- A short word does not come near the limit. -/
theorem Short.lt_limit {a : Int64} (short : Short a.toInt) : a.toInt < 2 ^ 63 - 512 := by
  have wrapped := short.wrap_lt_limit
  have low := a.le_toInt
  have high := a.toInt_lt
  rwa [Int.bmod_eq_of_le (by omega) (by omega)] at wrapped

/-- A conjunction that is not negative is not above an operand. -/
theorem toInt_and_le {a b : Int64} (positive : 0 ≤ (a &&& b).toInt) :
    (a &&& b).toInt ≤ a.toInt ∨ (a &&& b).toInt ≤ b.toInt := by
  have word : ∀ c : Int64, 0 ≤ c.toInt → (c.toBitVec.toNat : Int) = c.toInt := by
    intro c nonnegative
    rw [← c.toInt_toBitVec] at nonnegative ⊢
    rw [BitVec.toInt_eq_toNat_of_lt (BitVec.toInt_pos_iff.1 nonnegative)]
  have bits : (a &&& b).toBitVec.toNat = a.toBitVec.toNat &&& b.toBitVec.toNat := by
    rw [Int64.toBitVec_and, BitVec.toNat_and]
  have whole := word (a &&& b) positive
  -- The sign bit of a conjunction is missing when that of an operand is.
  have sign : 0 ≤ a.toInt ∨ 0 ≤ b.toInt := by
    by_contra negative
    rw [not_or, Int.not_le, Int.not_le, ← a.toInt_toBitVec, ← b.toInt_toBitVec] at negative
    have top : (a &&& b).toBitVec.msb = true := by
      rw [Int64.toBitVec_and, BitVec.msb_and, BitVec.msb_eq_toInt, BitVec.msb_eq_toInt,
        decide_eq_true negative.1, decide_eq_true negative.2]
      rfl
    have below := BitVec.toInt_neg_of_msb_true top
    rw [Int64.toInt_toBitVec] at below
    omega
  rcases sign with left | right
  · have bounded : a.toBitVec.toNat &&& b.toBitVec.toNat ≤ a.toBitVec.toNat := Nat.and_le_left
    have operand := word a left
    omega
  · have bounded : a.toBitVec.toNat &&& b.toBitVec.toNat ≤ b.toBitVec.toNat := Nat.and_le_right
    have operand := word b right
    omega

/-- A shift amount within the width of a word is taken as it is. -/
theorem shift_amount {b : Int64} (low : 0 ≤ b.toInt) (high : b.toInt ≤ 63) :
    (b.toBitVec.smod 64).toNat = b.toInt.toNat := by
  have amount : (b.toBitVec.smod 64).toInt = b.toInt := by
    rw [BitVec.toInt_smod, Int64.toInt_toBitVec]
    exact Int.fmod_eq_of_lt low (by
      have : (64 : BitVec 64).toInt = 64 := by decide
      omega)
  have natural : (b.toBitVec.smod 64).toInt = (b.toBitVec.smod 64).toNat :=
    BitVec.toInt_eq_toNat_of_lt (BitVec.toInt_pos_iff.1 (by rw [amount]; exact low))
  omega

/-- A shift to the left is a product with a power of two that wraps around. -/
theorem toInt_shiftLeft {a b : Int64} (low : 0 ≤ b.toInt) (high : b.toInt ≤ 63) :
    (a <<< b).toInt = (a.toInt * 2 ^ b.toInt.toNat).bmod (2 ^ 64) := by
  rw [← Int64.toInt_toBitVec, Int64.toBitVec_shiftLeft, BitVec.shiftLeft_eq', shift_amount low high,
    BitVec.toInt_shiftLeft, Nat.shiftLeft_eq, ← a.toInt_toBitVec, BitVec.toInt_eq_toNat_bmod,
    Int.bmod_mul_bmod]
  norm_cast

/-- A shift to the right is a quotient by a power of two. -/
theorem toInt_shiftRight {a b : Int64} (low : 0 ≤ b.toInt) (high : b.toInt ≤ 63) :
    (a >>> b).toInt = a.toInt / 2 ^ b.toInt.toNat := by
  rw [← Int64.toInt_toBitVec, Int64.toBitVec_shiftRight, BitVec.sshiftRight_eq',
    shift_amount low high, BitVec.toInt_sshiftRight, Int64.toInt_toBitVec,
    Int.shiftRight_eq_div_pow]
  norm_cast

end Integer

namespace BinaryOperator

open Integer

/-- Whether an operator may compute a word near the limit from short operands. -/
def reachesLimit : BinaryOperator → Bool
  | bitOr | bitXor => true
  | _ => false

/-- A conjunction or a shift of short words does not come near the limit. -/
theorem onWords_lt_limit {op : BinaryOperator} {a b w : Int64} (shortA : Short a.toInt)
    (shortB : Short b.toInt) (away : op.reachesLimit = false) (computed : op.onWords a b = .ok w) :
    w.toInt < 2 ^ 63 - 512 := by
  have limitA := shortA.lt_limit
  have limitB := shortB.lt_limit
  cases op with
  | bitAnd =>
      cases computed
      rcases Int.lt_or_le (a &&& b).toInt 0 with negative | positive
      · omega
      · rcases toInt_and_le positive with left | right
        · omega
        · omega
  | shiftLeft =>
      simp only [onWords] at computed
      split at computed
      case isTrue inside =>
        cases computed
        rw [toInt_shiftLeft inside.1 inside.2]
        exact (shortA.mul_two_pow _).wrap_lt_limit
      case isFalse => cases computed
  | shiftRight =>
      simp only [onWords] at computed
      split at computed
      case isTrue inside =>
        cases computed
        rw [toInt_shiftRight inside.1 inside.2]
        have power : (0 : Int) < 2 ^ b.toInt.toNat := Int.pow_pos (by decide)
        refine Int.ediv_lt_of_lt_mul power ?_
        calc a.toInt < 2 ^ 63 - 512 := limitA
          _ ≤ (2 ^ 63 - 512) * 2 ^ b.toInt.toNat := by
            refine le_mul_of_one_le_right (by decide) ?_
            omega
      case isFalse => cases computed
  | bitOr | bitXor => cases away
  | add | sub | mul | div | rem | tilde => cases computed

end BinaryOperator

/-! ## Returning words -/

namespace Integer

/-- The number that a word is returned as, in two cases. A word away from the limit becomes an
integer of the signed range, which is read again and shown as a pattern. A word near the limit
becomes `2 ^ 63`, which is too large to be read and is shown as any other number. -/
structure Fate (w : Int64) (r : Float) : Prop where
  away : w.toInt < 2 ^ 63 - 512 → ∃ n, toInteger? r = some n ∧ -2 ^ 63 ≤ n ∧ n < 2 ^ 63 ∧
    (∀ what, ofNumber what r = .ok (Int64.ofInt n)) ∧
    ∀ base : Base, base ≠ .decimal →
      Value.display base (.number r) = String.ofList (base.patternText (patternOf n))
  near : 2 ^ 63 - 512 ≤ w.toInt → toInteger? r = some (2 ^ 63) ∧
    (∀ what, ofNumber what r = .error (.overflow (.integer r what))) ∧
    ∀ base : Base, Value.display base (.number r) = Numeral.showGeneral r numberPrecision

/-- A word is returned as the rounded integer of its sign. -/
theorem toInteger?_toNumber (w : Int64) :
    toInteger? (toNumber w) = some (if w.toInt < 0 then -(rounded w.toInt.natAbs : Int)
      else rounded w.toInt.natAbs) := by
  have low := w.le_toInt
  have high := w.toInt_lt
  exact Binary64.toInteger?_ofInt_rounded (by omega)

/-- Every word has its fate. -/
theorem fate_toNumber (w : Int64) : Fate w (toNumber w) := by
  have low := w.le_toInt
  have high := w.toInt_lt
  have returned := toInteger?_toNumber w
  constructor
  · intro away
    generalize value : (if w.toInt < 0 then -(rounded w.toInt.natAbs : Int)
      else rounded w.toInt.natAbs) = n at returned
    have bounds : -2 ^ 63 ≤ n ∧ n < 2 ^ 63 := by
      rw [← value]
      split
      · have bounded : rounded w.toInt.natAbs ≤ 2 ^ 63 :=
          @Binary64.rounded_le_two_pow _ 63 (by omega)
        omega
      · have below := Binary64.rounded_lt_limit (n := w.toInt.natAbs) (by omega)
        omega
    refine ⟨n, returned, bounds.1, bounds.2, fun what => ?_, fun base marked => ?_⟩
    · rw [ofNumber_of_integer returned, if_pos (fits_iff.2 bounds)]
    · exact Base.display_number marked returned bounds.1 bounds.2
  · intro near
    rw [if_neg (by omega), Binary64.rounded_eq_limit (by omega) (by omega)] at returned
    refine ⟨returned, fun what => ?_, fun base => ?_⟩
    · rw [ofNumber_of_integer returned, if_neg (by decide)]
    · have shown : patternInteger? (toNumber w) = none := by
        rw [patternInteger?, returned]
        rfl
      rw [Value.display, showNumber, shown]

/-- The result of an integer operation is the number nearest to a word. It can be used as an
operand again and shown as a pattern, unless that word is one of the last 512 of the signed range,
which only `|`, `^` and the complement compute. -/
theorem integer_results :
    (∀ (op : BinaryOperator) (x y r : Float), op.isBitwise = true → op.bitwise x y = .ok r →
      ∃ a b w, ofNumber op.symbol x = .ok a ∧ ofNumber op.symbol y = .ok b ∧
        op.onWords a b = .ok w ∧ Fate w r ∧
        (op.reachesLimit = false → w.toInt < 2 ^ 63 - 512)) ∧
    ∀ (args : List Value) (result : Value), Handler.complement args = .ok result →
      ∃ a r, Argument.integer "bnot" args 0 = .ok a ∧ result = .number r ∧ Fate (~~~a) r := by
  constructor
  · intro op x y r _ computed
    rw [BinaryOperator.bitwise] at computed
    obtain ⟨a, readA, computed⟩ := bind_eq_ok_iff.1 computed
    obtain ⟨b, readB, computed⟩ := bind_eq_ok_iff.1 computed
    obtain ⟨w, word, returned⟩ := bind_eq_ok_iff.1 computed
    cases returned
    refine ⟨a, b, w, readA, readB, word, fate_toNumber w, fun away => ?_⟩
    refine BinaryOperator.onWords_lt_limit ?_ ?_ away word
    · rw [toInt_of_ofNumber readA]
      exact short_truncate x
    · rw [toInt_of_ofNumber readB]
      exact short_truncate y
  · intro args result computed
    rw [Handler.complement] at computed
    obtain ⟨a, read, returned⟩ := bind_eq_ok_iff.1 computed
    cases returned
    exact ⟨a, _, read, rfl, fate_toNumber (~~~a)⟩

/-- The product of -3 and `2 ^ 62` wraps around to `2 ^ 62`, and the complement of 5.7 is -6. -/
theorem integer_results_shift :
    (∃ w r, BinaryOperator.bitwise .shiftLeft (ofInt (-3)) (ofInt 62) = .ok r ∧
      toInteger? r = some (2 ^ 62) ∧ Fate w r ∧ w.toInt < 2 ^ 63 - 512) ∧
    ∃ a r, Handler.complement [.number 5.7] = .ok (.number r) ∧ toInteger? r = some (-6) ∧
      Fate (~~~a) r := by
  constructor
  · have computed : BinaryOperator.bitwise .shiftLeft (ofInt (-3)) (ofInt 62) =
        .ok (ofInt (2 ^ 62)) := by decide +kernel
    obtain ⟨a, b, w, -, -, -, fate, away⟩ := integer_results.1 .shiftLeft _ _ _ rfl computed
    exact ⟨w, _, computed, by decide +kernel, fate, away rfl⟩
  · have computed : Handler.complement [.number 5.7] = .ok (.number (ofInt (-6))) := by
      decide +kernel
    obtain ⟨a, r, -, returned, fate⟩ := integer_results.2 _ _ computed
    rw [← Value.number.inj returned] at fate
    exact ⟨a, _, computed, by decide +kernel, fate⟩

/-- The complement of the least integer is returned as `2 ^ 63`, and so is what `|` and `^` make of
the largest number below it and 1023. Integer operations refuse it. -/
theorem results_past_limit :
    Handler.complement [.number (ofInt (-2 ^ 63))] = .ok (.number (ofInt (2 ^ 63))) ∧
    BinaryOperator.bitwise .bitOr (ofInt (2 ^ 63 - 1024)) 1023 = .ok (ofInt (2 ^ 63)) ∧
    BinaryOperator.bitwise .bitXor (ofInt (2 ^ 63 - 1024)) 1023 = .ok (ofInt (2 ^ 63)) ∧
    toInteger? (ofInt (2 ^ 63)) = some (2 ^ 63) ∧
    ofNumber "bnot" (ofInt (2 ^ 63)) = .error (.overflow (.integer (ofInt (2 ^ 63)) "bnot")) := by
  decide +kernel

end Integer

end Calculator
