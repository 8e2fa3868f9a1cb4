import Calculator.Integer

/-!
# Operations on words that stop

The model computes with integers, where every operation has a result. On machine
words an operation can stop the program instead: a quotient or a remainder whose
divisor is zero, and a sum or a quotient that does not fit. `Trapping` is a
computation with these operations; a loop in it has a number of rounds, and is cut
off if it is not over after them.

A computation that returns has met none of this. The divisors here are positive,
and for these the operations return (`quotient_eq`, `remainder_eq`).
-/

set_option autoImplicit false

namespace Calculator.NumberTheory

/-- What stops a computation on words without an error being reported: a divisor that is zero, a
result that does not fit, and a loop that is not over after its rounds. -/
inductive Trap where
  | zeroDivisor
  | overflow
  | unfinished
deriving DecidableEq, Repr

/-- A computation on words. -/
abbrev Trapping (α : Type) := Except Trap α

namespace Trapping

/-! ## Signed words -/

/-- The sum of two signed words. -/
def add (a b : Int64) : Trapping Int64 :=
  if Integer.fits (a.toInt + b.toInt) then .ok (a + b) else .error .overflow

/-- Whether a signed word can be divided by another. The only quotient that does not fit is that of
the least word by -1, and the remainder stops with it. -/
def checkDivision (a b : Int64) : Trapping Unit :=
  if b = 0 then .error .zeroDivisor
  else if a = Int64.minValue ∧ b = -1 then .error .overflow
  else .ok ()

/-- The quotient of two signed words, rounded toward zero. -/
def quotient (a b : Int64) : Trapping Int64 := do
  checkDivision a b
  return a / b

/-- The remainder of two signed words, with the sign of the first. -/
def remainder (a b : Int64) : Trapping Int64 := do
  checkDivision a b
  return a % b

theorem checkDivision_of_pos {b : Int64} (positive : 0 < b.toInt) (a : Int64) :
    checkDivision a b = .ok () := by
  have nonzero : b ≠ 0 := by
    rintro rfl
    exact absurd positive (by decide)
  have notMinusOne : b ≠ -1 := by
    rintro rfl
    exact absurd positive (by decide)
  rw [checkDivision, if_neg nonzero, if_neg fun both => notMinusOne both.2]

/-- A sum that fits is the sum of the integers. -/
theorem add_eq {a b : Int64} {s : Int} (sum : a.toInt + b.toInt = s) (low : -2 ^ 63 ≤ s)
    (high : s < 2 ^ 63) : ∃ c, add a b = .ok c ∧ c.toInt = s := by
  have fits : Integer.fits (a.toInt + b.toInt) = true := by
    rw [Integer.fits, Bool.and_eq_true, decide_eq_true_eq, decide_eq_true_eq, sum]
    exact ⟨low, high⟩
  refine ⟨a + b, if_pos fits, ?_⟩
  rw [Int64.toInt_add, sum]
  exact Int.bmod_eq_of_le (by omega) (by omega)

/-- The quotient of natural numbers, in words. -/
theorem quotient_eq {a b : Int64} {n d : Nat} (dividend : a.toInt = n) (divisor : b.toInt = d)
    (positive : 0 < d) : ∃ q, quotient a b = .ok q ∧ q.toInt = ((n / d : Nat) : Int) := by
  have checked := checkDivision_of_pos (b := b) (by omega) a
  refine ⟨a / b, by rw [quotient, checked]; rfl, ?_⟩
  have below : n / d ≤ n := Nat.div_le_self n d
  have limit := a.toInt_lt
  have exact : a.toInt.tdiv b.toInt = ((n / d : Nat) : Int) := by
    rw [dividend, divisor]
    exact (Int.ofNat_tdiv n d).symm
  rw [Int64.toInt_div, exact]
  generalize n / d = q at below
  exact Int.bmod_eq_of_le (by omega) (by omega)

/-- The remainder of natural numbers, in words. -/
theorem remainder_eq {a b : Int64} {n d : Nat} (dividend : a.toInt = n) (divisor : b.toInt = d)
    (positive : 0 < d) : ∃ r, remainder a b = .ok r ∧ r.toInt = ((n % d : Nat) : Int) := by
  have checked := checkDivision_of_pos (b := b) (by omega) a
  refine ⟨a % b, by rw [remainder, checked]; rfl, ?_⟩
  rw [Int64.toInt_mod, dividend, divisor]
  exact (Int.ofNat_tmod n d).symm

/-! ## Unsigned words -/

/-- The quotient of two unsigned words. -/
def quotientUnsigned (a b : UInt64) : Trapping UInt64 :=
  if b = 0 then .error .zeroDivisor else .ok (a / b)

/-- The remainder of two unsigned words. -/
def remainderUnsigned (a b : UInt64) : Trapping UInt64 :=
  if b = 0 then .error .zeroDivisor else .ok (a % b)

/-- The distance of a signed word from zero. That of the least word is no signed word, but it is an
unsigned one. -/
def magnitude (a : Int64) : UInt64 := if a < 0 then -a.toUInt64 else a.toUInt64

theorem toNat_magnitude (a : Int64) : (magnitude a).toNat = a.toInt.natAbs := by
  have word : a.toUInt64.toNat = a.toBitVec.toNat := rfl
  have bound := a.toBitVec.isLt
  have sign : a < 0 ↔ a.toInt < 0 := Int64.lt_iff_toInt_lt
  have value : a.toInt = if 2 * a.toBitVec.toNat < 2 ^ 64 then (a.toBitVec.toNat : Int)
      else a.toBitVec.toNat - (2 ^ 64 : Nat) := by
    rw [← a.toInt_toBitVec]
    exact BitVec.toInt_eq_toNat_cond a.toBitVec
  simp only [magnitude, sign]
  split at value
  case isTrue =>
    rw [if_neg (by omega), word]
    omega
  case isFalse =>
    rw [if_pos (by omega), UInt64.toNat_neg, word, UInt64.size]
    omega

end Trapping

end Calculator.NumberTheory
