import Calculator.Counting
import Calculator.Proofs.ExactArithmetic
import Calculator.Proofs.NumberTheory.Widths

/-!
# Factorials and selections

**Exact products.** A running product goes through stages, and each factor takes one
stage to the next (`runningProduct_of_steps`). The stages of a combination of `n`
things are the binomial coefficients of `n`, those of a permutation its falling
factorials. A combination stops at the smaller of `r` and `n - r`, where the
coefficient is the same.

**Errors.** That numbers select nothing is found before anything is multiplied, so
it does not depend on the arithmetic (`invalid_selection_iff`). Rounded products can
become infinite, but only the smaller of `r` and `n - r` enters a combination, so the
two have the same product or the same error, in any arithmetic
(`combinations_symm`).

**Words.** The model counts with integers. Here the differences, the factors and the
counter of the loops are words, and a value that does not fit is a `Lapse`. The loops
in words have the outcome of the model (`combinationsInWords_eq`,
`permutationsInWords_eq`), so there is none.
-/

set_option autoImplicit false

namespace Calculator.Counting

open CountingScalar (ofInt isInfinite)

section Outcomes

variable {α : Type} [CountingScalar α]

/-! ## Outcomes of selections -/

/-- The product of a selection, or the error that there is none. -/
def productOf (function : String) (n r : Int) : Option α → Except RuntimeError α
  | some product => .ok product
  | none => .error (.overflow (.selection function n r))

/-- The count of the factors of a combination. -/
def factorCount (n r : Int) : Int := min r (n - r)

/-- A factor of a combination. -/
def combinationFactor (n i : Int) : α := ofInt (n - i) / ofInt (i + 1)

/-- A factor of a permutation. -/
def permutationFactor (n i : Int) : α := ofInt (n - i)

theorem combinations_eq (n r : Int64) : (combinations n r : Except RuntimeError α) =
    (checkSelection "nCr" n.toInt r.toInt >>= fun _ =>
      productOf "nCr" n.toInt (factorCount n.toInt r.toInt)
        (runningProduct (combinationFactor n.toInt) (factorCount n.toInt r.toInt).toNat 0
          (ofInt 1))) := rfl

theorem permutations_eq (n r : Int64) : (permutations n r : Except RuntimeError α) =
    (checkSelection "nPr" n.toInt r.toInt >>= fun _ =>
      productOf "nPr" n.toInt r.toInt
        (runningProduct (permutationFactor n.toInt) r.toInt.toNat 0 (ofInt 1))) := rfl

theorem checkSelection_of_within (function : String) {n r : Int} (nonneg : 0 ≤ r)
    (within : r ≤ n) : checkSelection function n r = .ok () := by
  rw [checkSelection, if_neg (by omega), if_neg (by omega)]

/-- The outcome of the check by its numbers. -/
theorem checkSelection_cases (function : String) (n r : Int) :
    (0 ≤ r ∧ r ≤ n ∧ checkSelection function n r = .ok ()) ∨
    ((n < 0 ∨ r < 0 ∨ n < r) ∧
      ∃ cause, checkSelection function n r = .error (.invalidArgument cause)) := by
  by_cases negative : n < 0 ∨ r < 0
  · exact .inr ⟨by omega, _, if_pos negative⟩
  · by_cases large : n < r
    · exact .inr ⟨.inr (.inr large), _, (if_neg negative).trans (if_pos large)⟩
    · have nonneg := Int.not_lt.1 (not_or.1 negative).2
      have within := Int.not_lt.1 large
      exact .inl ⟨nonneg, within, checkSelection_of_within function nonneg within⟩

/-- A selection is invalid exactly if there are not so many things to select, whatever the product
is. -/
theorem invalid_selection_iff {α : Type} {function : String} {n r count : Int}
    {product? : Option α} :
    (∃ cause, (checkSelection function n r >>= fun _ => productOf function n count product?) =
      .error (.invalidArgument cause)) ↔ n < 0 ∨ r < 0 ∨ n < r := by
  rcases checkSelection_cases function n r with ⟨nonneg, within, passed⟩ | ⟨without, cause, failed⟩
  · rw [passed]
    constructor
    · rintro ⟨cause, failed⟩
      cases product? with
      | none => cases failed
      | some product => cases failed
    · omega
  · rw [failed]
    exact iff_of_true ⟨cause, rfl⟩ without

theorem factorCount_sub (n r : Int) : factorCount n (n - r) = factorCount n r := by
  rw [factorCount, factorCount]
  omega

/-- To choose some things is to choose the others. -/
theorem combinations_symm {n r s : Int64} (nonneg : 0 ≤ r.toInt) (within : r.toInt ≤ n.toInt)
    (others : s.toInt = n.toInt - r.toInt) :
    (combinations n r : Except RuntimeError α) = combinations n s := by
  rw [combinations_eq, combinations_eq, checkSelection_of_within "nCr" nonneg within, others,
    checkSelection_of_within "nCr" (by omega) (by omega), factorCount_sub]

theorem factorial_of_neg {n : Int64} (negative : n.toInt < 0) :
    (factorial n : Except RuntimeError α) =
      .error (.invalidArgument (.negativeFactorial n.toInt)) := by
  rw [factorial]
  exact if_pos negative

theorem factorial_of_large {n : Int64} (large : largestFactorial < n.toInt) :
    (factorial n : Except RuntimeError α) = .error (.overflow (.factorial n.toInt)) := by
  have nonneg : ¬ n.toInt < 0 := by
    rw [largestFactorial] at large
    omega
  rw [factorial]
  exact (if_neg nonneg).trans (if_pos large)

theorem factorial_of_within {n : Int64} (nonneg : 0 ≤ n.toInt)
    (small : n.toInt ≤ largestFactorial) :
    (factorial n : Except RuntimeError α) =
      .ok ((List.range' 2 (n.toInt.toNat - 1)).foldl
        (fun product i => product * ofInt (Int.ofNat i)) (ofInt 1)) := by
  rw [factorial]
  exact (if_neg (Int.not_lt.2 nonneg)).trans (if_neg (Int.not_lt.2 small))

/-- The outcome of a factorial by the integer. -/
theorem factorial_cases (n : Int64) :
    (n.toInt < 0 ∧ (factorial n : Except RuntimeError α) =
      .error (.invalidArgument (.negativeFactorial n.toInt))) ∨
    (largestFactorial < n.toInt ∧ (factorial n : Except RuntimeError α) =
      .error (.overflow (.factorial n.toInt))) ∨
    (0 ≤ n.toInt ∧ n.toInt ≤ largestFactorial ∧
      ∃ product, (factorial n : Except RuntimeError α) = .ok product) := by
  by_cases negative : n.toInt < 0
  · exact .inl ⟨negative, factorial_of_neg negative⟩
  · by_cases large : largestFactorial < n.toInt
    · exact .inr (.inl ⟨large, factorial_of_large large⟩)
    · have nonneg := Int.not_lt.1 negative
      have small := Int.not_lt.1 large
      exact .inr (.inr ⟨nonneg, small, _, factorial_of_within nonneg small⟩)

/-- A factorial is invalid exactly of a negative integer. -/
theorem invalid_factorial_iff {n : Int64} :
    (∃ cause, (factorial n : Except RuntimeError α) = .error (.invalidArgument cause)) ↔
      n.toInt < 0 := by
  have positive : 0 < largestFactorial := by decide
  rcases factorial_cases (α := α) n with ⟨negative, outcome⟩ | ⟨large, outcome⟩ |
    ⟨nonneg, -, product, outcome⟩
  · simp [outcome, negative]
  · simp [outcome, (positive.trans large).le]
  · simp [outcome, nonneg]

/-- A factorial is too large exactly above the largest one. -/
theorem overflow_factorial_iff {n : Int64} :
    (∃ cause, (factorial n : Except RuntimeError α) = .error (.overflow cause)) ↔
      largestFactorial < n.toInt := by
  have positive : 0 < largestFactorial := by decide
  rcases factorial_cases (α := α) n with ⟨negative, outcome⟩ | ⟨large, outcome⟩ |
    ⟨-, small, product, outcome⟩
  · simp [outcome, (negative.trans positive).le]
  · simp [outcome, large]
  · simp [outcome, small]

end Outcomes

/-! ## Exact products -/

section Exact

open scoped Exact

-- The operations written below are those of the field, not those of its scalars.
attribute [-instance] Scalar.toAdd Scalar.toSub Scalar.toMul CountingScalar.toDiv

variable {K : Type} [Field K]

/-- If each factor takes a stage to the next one, the running product goes through the stages. -/
theorem runningProduct_of_steps (stage : Nat → K) {factor : Int → K} {bound : Nat}
    (step : ∀ i < bound, stage i * factor i = stage (i + 1)) (count first : Nat)
    (within : first + count ≤ bound) :
    runningProduct factor count first (stage first) = some (stage (first + count)) := by
  induction count generalizing first with
  | zero => rfl
  | succ count ih =>
      have next := ih (first + 1) (by omega)
      rw [← step first (by omega), Nat.cast_succ, Nat.add_right_comm] at next
      exact next

theorem choose_mul_factor [CharZero K] {n i : Nat} (below : i < n) :
    (n.choose i : K) * combinationFactor n i = n.choose (i + 1) := by
  have whole : (n.choose (i + 1) : K) * ((i : K) + 1) = n.choose i * ((n : K) - i) := by
    have counted := congrArg (Nat.cast : Nat → K) (Nat.choose_succ_right_eq n i)
    rwa [Nat.cast_mul, Nat.cast_mul, Nat.cast_sub below.le, Nat.cast_succ] at counted
  have nonzero : (i : K) + 1 ≠ 0 := Nat.cast_add_one_ne_zero i
  have factor : (combinationFactor n i : K) = ((n : K) - i) / ((i : K) + 1) := by
    change (((n : Int) - i : Int) : K) / (((i : Int) + 1 : Int) : K) = _
    push_cast
    rfl
  rw [factor, ← mul_div_assoc, ← whole, mul_div_cancel_right₀ _ nonzero]

theorem descFactorial_mul_factor {n i : Nat} (below : i < n) :
    (n.descFactorial i : K) * permutationFactor n i = n.descFactorial (i + 1) := by
  have factor : (permutationFactor n i : K) = ((n - i : Nat) : K) := by
    change (((n : Int) - i : Int) : K) = _
    rw [← Nat.cast_sub below.le, Int.cast_natCast]
  rw [factor, ← Nat.cast_mul, Nat.descFactorial_succ, Nat.mul_comm]

/-- The number of ways to choose is the binomial coefficient. -/
theorem combinations_exact [CharZero K] {n r : Int64} {things chosen : Nat}
    (total : n.toInt = things) (part : r.toInt = chosen) (within : chosen ≤ things) :
    (combinations n r : Except RuntimeError K) = .ok (things.choose chosen : K) := by
  have fewer : factorCount things chosen = (min chosen (things - chosen) : Nat) := by
    rw [factorCount]
    omega
  have product : runningProduct (combinationFactor things) (min chosen (things - chosen)) 0
      (ofInt 1) = some (things.choose (min chosen (things - chosen)) : K) := by
    have run := runningProduct_of_steps (fun i => (things.choose i : K))
      (fun i below => choose_mul_factor below) (min chosen (things - chosen)) 0 (by omega)
    simpa using run
  have same : things.choose (min chosen (things - chosen)) = things.choose chosen := by
    rcases Nat.le_total chosen (things - chosen) with least | least
    · rw [Nat.min_eq_left least]
    · rw [Nat.min_eq_right least, Nat.choose_symm within]
  rw [combinations_eq, total, part, checkSelection_of_within "nCr" (by omega) (by omega), fewer,
    Int.toNat_natCast, product, same]
  rfl

/-- The number of ways to line up is the falling factorial. -/
theorem permutations_exact {n r : Int64} {things chosen : Nat} (total : n.toInt = things)
    (part : r.toInt = chosen) (within : chosen ≤ things) :
    (permutations n r : Except RuntimeError K) = .ok (things.descFactorial chosen : K) := by
  have product : runningProduct (permutationFactor things) chosen 0 (ofInt 1) =
      some (things.descFactorial chosen : K) := by
    have run := runningProduct_of_steps (fun i => (things.descFactorial i : K))
      (fun i below => descFactorial_mul_factor below) chosen 0 (by omega)
    simpa using run
  rw [permutations_eq, total, part, checkSelection_of_within "nPr" (by omega) (by omega),
    Int.toNat_natCast, product]
  rfl

/-- A falling factorial is a quotient of factorials. -/
theorem descFactorial_eq_div [CharZero K] {things chosen : Nat} (within : chosen ≤ things) :
    (things.descFactorial chosen : K) = things.factorial / (things - chosen).factorial := by
  have nonzero : ((things - chosen).factorial : K) ≠ 0 :=
    Nat.cast_ne_zero.2 (Nat.factorial_ne_zero _)
  rw [eq_div_iff nonzero, ← Nat.cast_mul, Nat.mul_comm, Nat.factorial_mul_descFactorial within]

/-- The product of the integers from two on. -/
theorem foldl_factorial (count : Nat) :
    (List.range' 2 count).foldl (fun product i => product * ofInt (Int.ofNat i)) (ofInt 1 : K) =
      ((count + 1).factorial : K) := by
  induction count with
  | zero => simp
  | succ count ih =>
      rw [List.range'_concat, List.foldl_append, ih, Nat.factorial_succ (count + 1)]
      simp only [List.foldl_cons, List.foldl_nil, Exact.ofInt_eq, Int.ofNat_eq_natCast]
      push_cast
      ring

theorem factorial_exact {n : Int64} {things : Nat} (total : n.toInt = things)
    (small : things ≤ 170) :
    (factorial n : Except RuntimeError K) = .ok (things.factorial : K) := by
  have bounded : n.toInt ≤ largestFactorial := by
    rw [largestFactorial]
    omega
  have same : (things - 1 + 1).factorial = things.factorial := by
    cases things with
    | zero => rfl
    | succ things => rfl
  rw [factorial_of_within (by omega) bounded, total, Int.toNat_natCast, foldl_factorial, same]

end Exact

/-! ## Loops in words -/

section InWords

open NumberTheory (InWords)
open NumberTheory.InWords (narrow narrow_eq)

variable {α : Type} [CountingScalar α]

/-- The running product with a counter that is a word and with factors computed in words. -/
def runningProductInWords (factor : Int64 → InWords α) :
    (count : Nat) → (next : Int64) → (product : α) → InWords (Option α)
  | 0, _, product => .ok (some product)
  | count + 1, next, product => do
    let product := product * (← factor next)
    if isInfinite product then return none
    else runningProductInWords factor count (← narrow (next.toInt + 1)) product

/-- A factor of a combination from its difference and its divisor in words. -/
def combinationFactorInWords (n i : Int64) : InWords α := do
  let dividend ← narrow (n.toInt - i.toInt)
  let divisor ← narrow (i.toInt + 1)
  return ofInt dividend.toInt / ofInt divisor.toInt

/-- A factor of a permutation from its difference in words. -/
def permutationFactorInWords (n i : Int64) : InWords α := do
  return ofInt (← narrow (n.toInt - i.toInt)).toInt

/-- The number of ways to choose, with all its integers in words. -/
def combinationsInWords (n r : Int64) : InWords α := do
  (checkSelection "nCr" n.toInt r.toInt).mapError .inr
  let others ← narrow (n.toInt - r.toInt)
  let fewer := if r ≤ others then r else others
  let product? ← runningProductInWords (combinationFactorInWords n) fewer.toInt.toNat 0 (ofInt 1)
  (productOf "nCr" n.toInt fewer.toInt product?).mapError .inr

/-- The number of ways to line up, with all its integers in words. -/
def permutationsInWords (n r : Int64) : InWords α := do
  (checkSelection "nPr" n.toInt r.toInt).mapError .inr
  let product? ← runningProductInWords (permutationFactorInWords n) r.toInt.toNat 0 (ofInt 1)
  (productOf "nPr" n.toInt r.toInt product?).mapError .inr

/-- A value that fits is the value of its word. -/
theorem exists_narrow_eq {k : Int} (low : -2 ^ 63 ≤ k) (high : k < 2 ^ 63) :
    ∃ w, narrow k = .ok w ∧ w.toInt = k :=
  ⟨Int64.ofInt k, narrow_eq low high, Int64.toInt_ofInt_of_le low high⟩

/-- The running product in words is the running product, if its factors are, and the counter does
not pass the greatest word. -/
theorem runningProductInWords_eq {factor : Int64 → InWords α} {plain : Int → α} {bound : Int}
    (factors : ∀ i : Int64, 0 ≤ i.toInt → i.toInt < bound → factor i = .ok (plain i.toInt))
    (fits : bound < 2 ^ 63) (count : Nat) (next : Int64) (product : α) (nonneg : 0 ≤ next.toInt)
    (within : next.toInt + count ≤ bound) :
    runningProductInWords factor count next product =
      .ok (runningProduct plain count next.toInt product) := by
  induction count generalizing next product with
  | zero => rfl
  | succ count ih =>
      rw [runningProductInWords, runningProduct, factors next nonneg (by omega)]
      obtain ⟨after, stepped, value⟩ := exists_narrow_eq (k := next.toInt + 1) (by omega) (by omega)
      change (if isInfinite (product * plain next.toInt) then _ else _) = _
      split
      case isTrue => rfl
      case isFalse =>
        rw [stepped, ← value]
        exact ih after _ (by omega) (by omega)

theorem combinationFactorInWords_eq {n i : Int64} (nonneg : 0 ≤ i.toInt)
    (below : i.toInt < n.toInt) :
    (combinationFactorInWords n i : InWords α) = .ok (combinationFactor n.toInt i.toInt) := by
  have limit := n.toInt_lt
  obtain ⟨dividend, first, difference⟩ :=
    exists_narrow_eq (k := n.toInt - i.toInt) (by omega) (by omega)
  obtain ⟨divisor, second, successor⟩ := exists_narrow_eq (k := i.toInt + 1) (by omega) (by omega)
  rw [combinationFactorInWords, first, second, combinationFactor, ← difference, ← successor]
  rfl

theorem permutationFactorInWords_eq {n i : Int64} (nonneg : 0 ≤ i.toInt)
    (below : i.toInt < n.toInt) :
    (permutationFactorInWords n i : InWords α) = .ok (permutationFactor n.toInt i.toInt) := by
  have limit := n.toInt_lt
  obtain ⟨value, computed, difference⟩ :=
    exists_narrow_eq (k := n.toInt - i.toInt) (by omega) (by omega)
  rw [permutationFactorInWords, computed, permutationFactor, ← difference]
  rfl

/-- No integer in the computation of a combination is cut off. -/
theorem combinationsInWords_eq (n r : Int64) :
    (combinationsInWords n r : InWords α) = (combinations n r).mapError .inr := by
  rw [combinationsInWords, combinations_eq]
  rcases checkSelection_cases "nCr" n.toInt r.toInt with ⟨nonneg, within, passed⟩ |
    ⟨-, cause, failed⟩
  · rw [passed]
    have limit := n.toInt_lt
    obtain ⟨others, computed, difference⟩ :=
      exists_narrow_eq (k := n.toInt - r.toInt) (by omega) (by omega)
    have fewer : (if r ≤ others then r else others).toInt = factorCount n.toInt r.toInt := by
      rw [factorCount]
      split
      case isTrue least => rw [Int64.le_iff_toInt_le] at least; omega
      case isFalse more => rw [Int64.le_iff_toInt_le] at more; omega
    have product : runningProductInWords (combinationFactorInWords n)
        (factorCount n.toInt r.toInt).toNat 0 (ofInt 1 : α) =
          .ok (runningProduct (combinationFactor n.toInt) (factorCount n.toInt r.toInt).toNat 0
            (ofInt 1)) := by
      refine runningProductInWords_eq (fun i => combinationFactorInWords_eq) limit _ 0 _ le_rfl ?_
      rw [factorCount, Int64.toInt_zero]
      omega
    rw [computed]
    change (runningProductInWords _ (Int64.toInt (if r ≤ others then r else others)).toNat 0 _
      >>= _) = _
    rw [fewer, product]
    rfl
  · rw [failed]
    rfl

/-- No integer in the computation of a permutation is cut off. -/
theorem permutationsInWords_eq (n r : Int64) :
    (permutationsInWords n r : InWords α) = (permutations n r).mapError .inr := by
  rw [permutationsInWords, permutations_eq]
  rcases checkSelection_cases "nPr" n.toInt r.toInt with ⟨nonneg, within, passed⟩ |
    ⟨-, cause, failed⟩
  · rw [passed]
    have product : runningProductInWords (permutationFactorInWords n) r.toInt.toNat 0
        (ofInt 1 : α) =
          .ok (runningProduct (permutationFactor n.toInt) r.toInt.toNat 0 (ofInt 1)) := by
      refine runningProductInWords_eq (fun i => permutationFactorInWords_eq) n.toInt_lt _ 0 _
        le_rfl ?_
      rw [Int64.toInt_zero]
      omega
    rw [product]
    rfl
  · rw [failed]
    rfl

end InWords

/-! ## Counting -/

section Main

open NumberTheory (InWords)
open scoped Exact

/-- Over the rationals the loops compute binomial coefficients, quotients of factorials and
factorials. In any arithmetic a selection is invalid exactly if `n` or `r` is negative or `r` is
above `n`, and a factorial is invalid exactly below zero and too large exactly above 170; to choose
`r` things has the outcome of choosing the other `n - r`, or both are invalid; and no integer of the
loops leaves the words. -/
theorem counting_functions :
    (∀ n r : Int64, 0 ≤ r → r ≤ n →
      (combinations n r : Except RuntimeError ℚ) =
        .ok (n.toInt.toNat.choose r.toInt.toNat : ℚ) ∧
      (permutations n r : Except RuntimeError ℚ) =
        .ok (n.toInt.toNat.factorial / (n.toInt.toNat - r.toInt.toNat).factorial : ℚ)) ∧
    (∀ n : Int64, 0 ≤ n → n ≤ 170 →
      (factorial n : Except RuntimeError ℚ) = .ok (n.toInt.toNat.factorial : ℚ)) ∧
    ∀ (α : Type) [CountingScalar α] (n r : Int64),
      ((∃ cause, (combinations n r : Except RuntimeError α) = .error (.invalidArgument cause)) ↔
        n < 0 ∨ r < 0 ∨ n < r) ∧
      ((∃ cause, (permutations n r : Except RuntimeError α) = .error (.invalidArgument cause)) ↔
        n < 0 ∨ r < 0 ∨ n < r) ∧
      ((∃ cause, (factorial n : Except RuntimeError α) = .error (.invalidArgument cause)) ↔
        n < 0) ∧
      ((∃ cause, (factorial n : Except RuntimeError α) = .error (.overflow cause)) ↔ 170 < n) ∧
      (0 ≤ r → r ≤ n → (n - r).toInt = n.toInt - r.toInt ∧
        (combinations n r : Except RuntimeError α) = combinations n (n - r)) ∧
      (∀ s : Int64, s.toInt = n.toInt - r.toInt →
        ((∃ cause, (combinations n r : Except RuntimeError α) = .error (.invalidArgument cause)) ↔
          ∃ cause, (combinations n s : Except RuntimeError α) =
            .error (.invalidArgument cause))) ∧
      (combinationsInWords n r : InWords α) = (combinations n r).mapError .inr ∧
      (permutationsInWords n r : InWords α) = (permutations n r).mapError .inr := by
  have largest : (170 : Int64).toInt = largestFactorial := rfl
  simp only [Int64.le_iff_toInt_le, Int64.lt_iff_toInt_lt, Int64.toInt_zero, largest]
  refine ⟨fun n r nonneg within => ⟨?_, ?_⟩, ?_, ?_⟩
  · exact combinations_exact (by omega) (by omega) (by omega)
  · rw [← descFactorial_eq_div (by omega)]
    exact permutations_exact (by omega) (by omega) (by omega)
  · intro n nonneg small
    rw [largestFactorial] at small
    exact factorial_exact (by omega) (by omega)
  · intro α _ n r
    refine ⟨invalid_selection_iff, invalid_selection_iff, invalid_factorial_iff,
      overflow_factorial_iff, ?_, ?_, combinationsInWords_eq n r, permutationsInWords_eq n r⟩
    · intro nonneg within
      have difference : (n - r).toInt = n.toInt - r.toInt := by
        have limit := n.toInt_lt
        rw [Int64.toInt_sub]
        exact Int.bmod_eq_of_le (by omega) (by omega)
      exact ⟨difference, combinations_symm nonneg within difference⟩
    · intro s difference
      rw [combinations_eq, combinations_eq, invalid_selection_iff, invalid_selection_iff]
      omega

/-- Of the most things that a word can count, two can be chosen in as many ways as all but two; and
170 is the largest number that has a factorial. -/
theorem counting_functions_largest :
    (combinations Int64.maxValue 2 : Except RuntimeError ℚ) =
      .ok ((2 ^ 63 - 1).choose 2 : ℚ) ∧
    (permutations 5 3 : Except RuntimeError ℚ) = .ok (Nat.factorial 5 / Nat.factorial 2 : ℚ) ∧
    (factorial 170 : Except RuntimeError ℚ) = .ok (Nat.factorial 170 : ℚ) ∧
    (combinations Int64.maxValue 2 : Except RuntimeError Float) =
      combinations Int64.maxValue (Int64.maxValue - 2) ∧
    ∃ cause, (factorial 171 : Except RuntimeError Float) = .error (.overflow cause) := by
  obtain ⟨selections, factorials, outcomes⟩ := counting_functions
  refine ⟨?_, ?_, ?_, ?_, ?_⟩
  · exact (selections Int64.maxValue 2 (by decide) (by decide)).1
  · exact (selections 5 3 (by decide) (by decide)).2
  · exact factorials 170 (by decide) (by decide)
  · exact ((outcomes Float Int64.maxValue 2).2.2.2.2.1 (by decide) (by decide)).2
  · exact (outcomes Float 171 0).2.2.2.1.2 (by decide)

end Main

end Calculator.Counting
