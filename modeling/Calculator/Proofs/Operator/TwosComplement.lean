import Calculator.Operator.Apply
import Mathlib

/-!
# Two's complement

An integer in two's complement has a digit at every place, and from some place on
all digits are the same. The operators `&`, `|` and `^` and the complement act on
each place by itself, so they are defined on all integers (`BitOp.onIntegers`,
`Int.lnot`), and two integers are the same if their digits are (`eq_of_testBit`).

An integer lies from `-2 ^ k` to below `2 ^ k` just if its digits are the same from
the place `k` on (`settledFrom_iff`). That is kept by whatever acts on each place by
itself, so each of these ranges is closed under the operators and the complement
(`BitOp.settledFrom_onIntegers`, `settledFrom_lnot_iff`).

A word has the first 64 digits of its integer, and the others are its sign
(`testBit_toInt`). So the operators and the complement on words are those on
integers (`BitOp.toInt_onWords`, `toInt_complement`).
-/

set_option autoImplicit false

namespace Calculator

namespace TwosComplement

/-! ## Digits of integers -/

/-- Far enough to the left all digits of a natural number are zero. -/
theorem testBit_far {m i : Nat} (far : m ≤ i) : m.testBit i = false :=
  Nat.testBit_lt_two_pow (Nat.lt_of_lt_of_le Nat.lt_two_pow_self
    (Nat.pow_le_pow_right (by decide) far))

/-- Integers with the same digits are the same. -/
theorem eq_of_testBit {m n : Int} (same : ∀ i, m.testBit i = n.testBit i) : m = n := by
  cases m with
  | ofNat m =>
      cases n with
      | ofNat n => exact congrArg Int.ofNat (Nat.eq_of_testBit_eq same)
      | negSucc n =>
          -- Far enough to the left the digits are the signs, which differ.
          have signs := same (m + n)
          simp only [Int.testBit, testBit_far (Nat.le_add_right m n),
            testBit_far (Nat.le_add_left n m)] at signs
          cases signs
  | negSucc m =>
      cases n with
      | ofNat n =>
          have signs := same (m + n)
          simp only [Int.testBit, testBit_far (Nat.le_add_right m n),
            testBit_far (Nat.le_add_left n m)] at signs
          cases signs
      | negSucc n =>
          refine congrArg Int.negSucc (Nat.eq_of_testBit_eq fun i => ?_)
          exact Bool.not_inj (same i)

/-- From the place `k` on, all digits of an integer are the same. -/
def SettledFrom (k : Nat) (n : Int) : Prop := ∃ sign, ∀ i, k ≤ i → n.testBit i = sign

theorem settledFrom_natCast_iff {k m : Nat} : SettledFrom k m ↔ m < 2 ^ k := by
  constructor
  · rintro ⟨sign, settled⟩
    have zero : sign = false := by
      rw [← settled (k + m) (Nat.le_add_right k m)]
      exact testBit_far (Nat.le_add_left m k)
    subst zero
    exact Nat.lt_pow_two_of_testBit m settled
  · intro small
    refine ⟨false, fun i far => ?_⟩
    exact Nat.testBit_lt_two_pow
      (Nat.lt_of_lt_of_le small (Nat.pow_le_pow_right (by decide) far))

/-- The complement has the other digits. -/
theorem settledFrom_lnot_iff {k : Nat} {n : Int} : SettledFrom k n.lnot ↔ SettledFrom k n := by
  constructor
  · rintro ⟨sign, settled⟩
    refine ⟨!sign, fun i far => ?_⟩
    rw [← settled i far, Int.testBit_lnot, Bool.not_not]
  · rintro ⟨sign, settled⟩
    refine ⟨!sign, fun i far => ?_⟩
    rw [Int.testBit_lnot, settled i far]

/-- An integer is settled from the place `k` on just if it lies between the powers of two. -/
theorem settledFrom_iff {k : Nat} {n : Int} : SettledFrom k n ↔ -2 ^ k ≤ n ∧ n < 2 ^ k := by
  have power : ((2 ^ k : Nat) : Int) = 2 ^ k := Nat.cast_pow 2 k
  cases n with
  | ofNat m =>
      rw [Int.ofNat_eq_natCast, settledFrom_natCast_iff]
      omega
  | negSucc m =>
      have other : (Int.negSucc m).lnot = (m : Int) := rfl
      rw [← settledFrom_lnot_iff, other, settledFrom_natCast_iff]
      omega

/-! ## Digits of words -/

/-- The digits of a word, and its sign at all further places, are those of its integer. -/
theorem testBit_toInt {w : Nat} (x : BitVec w) (i : Nat) :
    x.toInt.testBit i = if i < w then x.getLsbD i else x.msb := by
  rw [BitVec.toInt_eq_msb_cond]
  cases sign : x.msb with
  | false =>
      have digits : (x.toNat : Int).testBit i = x.getLsbD i := BitVec.testBit_toNat x
      rw [if_neg (by decide), digits]
      split
      · rfl
      · exact BitVec.getLsbD_of_ge x i (by omega)
  | true =>
      -- A negative integer has the digits that the complement of its word has not.
      have bound := x.isLt
      have negative : (x.toNat : Int) - (2 ^ w : Nat) = Int.negSucc (~~~x).toNat := by
        rw [BitVec.toNat_not]
        omega
      have digits : (Int.negSucc (~~~x).toNat).testBit i = !(~~~x).getLsbD i :=
        congrArg Bool.not (BitVec.testBit_toNat (~~~x))
      rw [if_pos rfl, negative, digits, BitVec.getLsbD_not]
      split
      case isTrue inside => simp [inside]
      case isFalse outside => simp [outside]

theorem testBit_toInt_word (a : Int64) (i : Nat) :
    a.toInt.testBit i = if i < 64 then a.toBitVec.getLsbD i else a.toBitVec.msb := by
  rw [← a.toInt_toBitVec]
  exact testBit_toInt a.toBitVec i

/-- The complement of a word is that of its integer. -/
theorem toInt_complement (a : Int64) : (~~~a).toInt = a.toInt.lnot := by
  refine eq_of_testBit fun i => ?_
  rw [Int.testBit_lnot, testBit_toInt_word, testBit_toInt_word, Int64.toBitVec_not]
  split
  case isTrue inside => simp [inside]
  case isFalse => simp

end TwosComplement

open TwosComplement

/-! ## The operators -/

/-- The operators that act on each place by itself. -/
inductive BitOp where
  | and
  | or
  | xor
deriving DecidableEq, Repr

namespace BitOp

/-- How an operator acts on the digits at one place. -/
def onBits : BitOp → Bool → Bool → Bool
  | and => Bool.and
  | or => Bool.or
  | xor => Bool.xor

/-- The operator on integers in two's complement. -/
def onIntegers : BitOp → Int → Int → Int
  | and => Int.land
  | or => Int.lor
  | xor => Int.xor

/-- The operator in an expression. -/
def operator : BitOp → BinaryOperator
  | and => .bitAnd
  | or => .bitOr
  | xor => .bitXor

/-- The operator on words. -/
def onWords : BitOp → Int64 → Int64 → Int64
  | and => (· &&& ·)
  | or => (· ||| ·)
  | xor => (· ^^^ ·)

theorem testBit_onIntegers (op : BitOp) (m n : Int) (i : Nat) :
    (op.onIntegers m n).testBit i = op.onBits (m.testBit i) (n.testBit i) := by
  cases op with
  | and => exact Int.testBit_land m n i
  | or => exact Int.testBit_lor m n i
  | xor => exact Int.testBit_lxor m n i

theorem settledFrom_onIntegers (op : BitOp) {k : Nat} {m n : Int} (left : SettledFrom k m)
    (right : SettledFrom k n) : SettledFrom k (op.onIntegers m n) := by
  obtain ⟨signM, settledM⟩ := left
  obtain ⟨signN, settledN⟩ := right
  refine ⟨op.onBits signM signN, fun i far => ?_⟩
  rw [testBit_onIntegers, settledM i far, settledN i far]

/-- An operator on words is the operator on their integers. -/
theorem toInt_onWords (op : BitOp) (a b : Int64) :
    (op.onWords a b).toInt = op.onIntegers a.toInt b.toInt := by
  refine eq_of_testBit fun i => ?_
  rw [testBit_onIntegers, testBit_toInt_word, testBit_toInt_word a, testBit_toInt_word b]
  by_cases inside : i < 64
  · rw [if_pos inside, if_pos inside, if_pos inside]
    cases op with
    | and => exact BitVec.getLsbD_and
    | or => exact BitVec.getLsbD_or
    | xor => exact BitVec.getLsbD_xor
  · rw [if_neg inside, if_neg inside, if_neg inside]
    cases op with
    | and => exact BitVec.msb_and
    | or => exact BitVec.msb_or
    | xor => exact BitVec.msb_xor

/-- The operator of an expression computes on words. -/
theorem operator_onWords (op : BitOp) (a b : Int64) :
    op.operator.onWords a b = .ok (op.onWords a b) := by cases op <;> rfl

end BitOp

end Calculator
