import Calculator.Proofs.Binary64.Vanishing
import Calculator.Statistics

/-!
# Samples that do not vary

A z-score and a correlation are refused when the spread of a sample is zero. The
spread is computed from deviations from the mean, and the mean of equal samples is a
rounded quotient of a sum that was rounded at every step. So a constant sample has a
spread of zero only if the mean comes out near enough at the constant: the square of
the difference, the drift, must be rounded to zero.

That is the exact condition for a z-score up to `2 ^ 53` samples, since as many
positive squares cannot be lost again in their mean. For a correlation the other
sample has a say as well. The two spreads are multiplied, so a constant sample is not
noticed if the spread of the other one overflows, because zero times infinity is no
number; and spreads that are not zero can have a product that is.

Where all multiples of the constant up to the sum are numbers, as for the integers
with a sum of at most `2 ^ 53`, no step is rounded, the mean is the constant, and
there is no drift (`pattern_drift_of_multiples`).
-/

set_option autoImplicit false

namespace Calculator.Statistics

open Binary64

variable {data x y : List Float} {c q : Float} {n : Nat}

/-! ## Spreads -/

/-- The mean of a sample that is not empty. -/
def center (data : List Float) : Float := sum data / size data

/-- The sum of the squares of the deviations from the mean. -/
def squares (data : List Float) : Float :=
  sum (data.map fun x => (x - center data) * (x - center data))

/-- A computation has a number as its result unless a condition holds, under which it fails. -/
structure FailsExactlyIf (condition : Prop) (failure : RuntimeError)
    (result : Except RuntimeError Float) : Prop where
  fails : condition → result = .error failure
  succeeds : ¬ condition → ∃ number, result = .ok number

theorem FailsExactlyIf.of_ite {condition test : Prop} [Decidable test] {failure : RuntimeError}
    {result : Except RuntimeError Float} {number : Float} (same : test ↔ condition)
    (outcome : result = if test then .error failure else .ok number) :
    FailsExactlyIf condition failure result where
  fails held := by rw [outcome, if_pos (same.2 held)]
  succeeds failed := ⟨number, by rw [outcome, if_neg (mt same.1 failed)]⟩

theorem FailsExactlyIf.congr {condition other : Prop} {failure : RuntimeError}
    {result : Except RuntimeError Float} (outcome : FailsExactlyIf condition failure result)
    (same : condition ↔ other) : FailsExactlyIf other failure result :=
  ⟨fun held => outcome.fails (same.2 held), fun failed => outcome.succeeds (mt same.1 failed)⟩

theorem checkData_eq (nonempty : data ≠ []) (function : String) :
    checkData function data = .ok () := by
  rw [checkData, if_neg (by simpa using nonempty)]

theorem mean_eq (nonempty : data ≠ []) : mean data = .ok (center data) := by
  rw [mean, checkData_eq nonempty]
  rfl

theorem deviation_eq (nonempty : data ≠ []) :
    deviation data = .ok (squares data / size data).sqrt := by
  rw [deviation, variance, checkData_eq nonempty, checkData_eq nonempty, mean_eq nonempty]
  rfl

/-- A z-score is refused exactly if the variance is zero. -/
theorem zscore_outcome (nonempty : data ≠ []) (value : Float) :
    FailsExactlyIf (pattern (squares data / size data) = 0) (.divisionByZero .standardDeviation)
      (zscore value data) := by
  have outcome : zscore value data =
      if ((squares data / size data).sqrt == 0.0) = true then
        .error (.divisionByZero .standardDeviation)
      else .ok ((value - center data) / (squares data / size data).sqrt) := by
    rw [zscore, checkData_eq nonempty, mean_eq nonempty, deviation_eq nonempty]
    rfl
  exact .of_ite (beq_zero_iff.trans pattern_sqrt_eq_zero_iff) outcome

/-! ## Moments -/

/-- The squares in the moments are those of either list of deviations. -/
theorem foldl_moments (f g : Float → Float) (x : List Float) :
    ∀ (y : List Float) (moments : Moments), x.length = y.length →
      (((List.zipWith (fun a b => (f a, g b)) x y).foldl Moments.step moments).left =
        (x.map fun a => f a * f a).foldl (· + ·) moments.left) ∧
      ((List.zipWith (fun a b => (f a, g b)) x y).foldl Moments.step moments).right =
        (y.map fun b => g b * g b).foldl (· + ·) moments.right := by
  induction x with
  | nil =>
      intro y moments same
      obtain rfl := List.eq_nil_of_length_eq_zero same.symm
      exact ⟨rfl, rfl⟩
  | cons a x ih =>
      intro y moments same
      cases y with
      | nil => cases same
      | cons b y => exact ih y (moments.step (f a, g b)) (Nat.succ_inj.1 same)

theorem alike_foldl (xs : List Float) :
    ∀ {a b : Float}, Alike a b → Alike (xs.foldl (· + ·) a) (xs.foldl (· + ·) b) := by
  induction xs with
  | nil => exact id
  | cons x xs ih => exact fun alike => ih (alike.add (.refl x))

/-- A sum may begin at either zero. -/
theorem alike_sum (xs : List Float) : Alike (xs.foldl (· + ·) 0.0) (sum xs) :=
  alike_foldl xs (.inr (by decide +kernel))

/-- A correlation is refused exactly if the product of the two spreads is zero. -/
theorem correlation_outcome (nonempty : x ≠ []) (same : x.length = y.length) :
    FailsExactlyIf (Vanishes (squares x) (squares y)) (.divisionByZero .variance)
      (correlation x y) := by
  have other : y ≠ [] := by
    rintro rfl
    exact nonempty (List.eq_nil_of_length_eq_zero same)
  obtain ⟨left, right⟩ := foldl_moments (· - center x) (· - center y) x y ⟨0.0, 0.0, 0.0⟩ same
  generalize moments_eq : (List.zipWith (fun a b => (a - center x, b - center y)) x y).foldl
    Moments.step ⟨0.0, 0.0, 0.0⟩ = moments at left right
  have outcome : correlation x y =
      if ((moments.left * moments.right).sqrt == 0.0) = true then
        .error (.divisionByZero .variance)
      else .ok (moments.product / (moments.left * moments.right).sqrt) := by
    rw [correlation, checkData_eq nonempty, checkData_eq other, if_neg (not_not_intro same),
      mean_eq nonempty, mean_eq other, ← moments_eq]
    rfl
  have spreads : Vanishes moments.left moments.right ↔ Vanishes (squares x) (squares y) := by
    rw [left, right]
    exact (alike_sum _).vanishes_iff (alike_sum _)
  exact .of_ite (beq_zero_iff.trans <| pattern_sqrt_eq_zero_iff.trans <|
    pattern_mul_eq_zero_iff.trans spreads) outcome

/-! ## Sums of equal numbers -/

theorem sum_replicate_succ (n : Nat) (q : Float) :
    sum (List.replicate (n + 1) q) = sum (List.replicate n q) + q := by
  rw [List.replicate_succ', sum, List.foldl_append]
  rfl

theorem sum_replicate_one (q : Float) : sum (List.replicate 1 q) = q :=
  negative_zero_add q

theorem sum_replicate_of_zero (zero : pattern q = 0) (n : Nat) :
    pattern (sum (List.replicate n q)) = 0 := by
  induction n with
  | zero =>
      change pattern (-0.0) = 0
      decide +kernel
  | succ n ih =>
      rw [sum_replicate_succ]
      exact pattern_add_of_zero ih zero

theorem sum_replicate_of_isNaN (missing : isNaN q = true) (nonempty : 0 < n) :
    isNaN (sum (List.replicate n q)) = true := by
  obtain ⟨n, rfl⟩ := Nat.exists_eq_add_one.2 nonempty
  rw [sum_replicate_succ]
  exact isNaN_add (.inr missing)

/-- As many positive numbers have a sum at least as many patterns above zero. -/
theorem sum_replicate_atLeast (above : AtLeast 1 q) (nonempty : 1 ≤ n) :
    n ≤ 2 ^ 53 → AtLeast n (sum (List.replicate n q)) := by
  induction n, nonempty using Nat.le_induction with
  | base =>
      intro _
      rwa [sum_replicate_one]
  | succ n nonempty ih =>
      intro small
      rw [sum_replicate_succ]
      exact (ih (Nat.le_of_succ_le small)).add above nonempty Nat.one_pos small

/-- The mean of zeros is zero. -/
theorem mean_replicate_of_zero (zero : pattern q = 0) (nonempty : 0 < n) :
    pattern (sum (List.replicate n q) / Binary64.ofNat n) = 0 :=
  pattern_div_of_zero (atLeast_ofNat nonempty) (sum_replicate_of_zero zero n)

/-- The mean of up to `2 ^ 53` equal numbers that are not zero and not negative is not zero. -/
theorem mean_replicate_pos (unsigned : isNaN q = false → isNegative q = false)
    (positive : 0 < pattern q) (nonempty : 0 < n) (small : n ≤ 2 ^ 53) :
    0 < pattern (sum (List.replicate n q) / Binary64.ofNat n) := by
  cases missing : isNaN q with
  | true => exact pattern_pos_of_isNaN (isNaN_div (sum_replicate_of_isNaN missing nonempty) _)
  | false =>
      -- The sum stays `n` patterns above zero, so it is still positive when divided by `n`.
      have above : AtLeast 1 q := ⟨missing, unsigned missing, positive⟩
      exact ((sum_replicate_atLeast above nonempty small).div_ofNat nonempty small).bound

/-! ## Drift -/

/-- How far a number is from the mean of as many copies of it. -/
def drift (c : Float) (n : Nat) : Float := c - center (List.replicate n c)

theorem squares_replicate (c : Float) (n : Nat) :
    squares (List.replicate n c) = sum (List.replicate n (drift c n * drift c n)) := by
  rw [squares, List.map_replicate]
  rfl

theorem decide_withSignOf_neg {count : Nat} (positive : 0 < count) :
    decide (withSignOf c count < 0) = isNegative c := by
  rw [withSignOf]
  cases isNegative c with
  | false => exact decide_eq_false (by simp)
  | true => exact decide_eq_true (by simpa using positive)

/-- A multiple of a number, exactly: of its sign, finite, and of as many times its size. -/
structure IsMultiple (k : Nat) (c x : Float) : Prop where
  sign : isNegative x = isNegative c
  finite : pattern x < infinityPattern
  size : magnitude x = k * magnitude c

/-- A multiple of a number other than zero is one itself. -/
theorem IsMultiple.regular {k : Nat} {x : Float} (multiple : IsMultiple k c x) (positive : 0 < k)
    (regular : Regular c) : Regular x := by
  refine ⟨Nat.pos_of_ne_zero fun zero => ?_, multiple.finite⟩
  have size := multiple.size
  rw [magnitude, zero, units_zero] at size
  exact absurd size (Nat.ne_of_lt (Nat.mul_pos positive (units_pos regular.1)))

/-- All multiples of a number up to a factor are numbers. -/
def HasMultiples (c : Float) (n : Nat) : Prop :=
  ∀ k ≤ n, ∃ bits < infinityPattern, units bits = k * magnitude c

/-- While the multiples of a number are numbers, adding it up is exact. -/
theorem sum_replicate_isMultiple (regular : Regular c) (nonempty : 1 ≤ n) :
    HasMultiples c n → IsMultiple n c (sum (List.replicate n c)) := by
  induction n, nonempty using Nat.le_induction with
  | base =>
      intro _
      rw [sum_replicate_one]
      exact ⟨rfl, regular.2, (Nat.one_mul _).symm⟩
  | succ n nonempty ih =>
      intro multiples
      have before := ih fun k bound => multiples k (Nat.le_succ_of_le bound)
      obtain ⟨bits, number, exact⟩ := multiples (n + 1) (Nat.le_refl _)
      rw [sum_replicate_succ]
      generalize sum (List.replicate n c) = partialSum at *
      have count : 0 < (n + 1) * magnitude c := Nat.mul_pos (Nat.succ_pos n) (units_pos regular.1)
      have total : signedUnits partialSum + signedUnits c =
          withSignOf c ((n + 1) * magnitude c) := by
        rw [signedUnits, signedUnits, before.size, withSignOf, withSignOf, withSignOf, before.sign,
          Nat.succ_mul]
        generalize n * magnitude c = added
        generalize magnitude c = last
        split
        · omega
        · omega
      rw [add_eq (before.regular nonempty regular) regular, total, natAbs_withSignOf,
        decide_withSignOf_neg count, ← exact, nearestUnits_units number]
      refine ⟨isNegative_ofPattern _ _ (Nat.le_of_lt number), ?_, ?_⟩
      · rwa [pattern_ofPattern _ _ (Nat.le_of_lt number)]
      · rw [magnitude, pattern_ofPattern _ _ (Nat.le_of_lt number), exact]

/-- While the multiples of a number are numbers, the mean of its copies is the number. -/
theorem center_of_multiples (finite : isFinite c = true) (nonempty : 0 < n) (small : n ≤ 2 ^ 53)
    (multiples : HasMultiples c n) : Alike c (center (List.replicate n c)) := by
  have divisor : Statistics.size (List.replicate n c) = Binary64.ofNat n := by
    rw [Statistics.size, List.length_replicate]
  rw [center, divisor]
  rcases Nat.eq_zero_or_pos (pattern c) with zero | positive
  · exact alike_iff.2 (.inr ⟨zero, mean_replicate_of_zero zero nonempty⟩)
  · -- The sum is the multiple itself, and dividing it by the count is exact once more.
    have regular : Regular c := ⟨positive, of_decide_eq_true finite⟩
    have multiple := sum_replicate_isMultiple regular nonempty multiples
    generalize sum (List.replicate n c) = total at *
    have quotient : nearest (magnitude total) (magnitude (Binary64.ofNat n)) = pattern c := by
      have factor : 0 < n * unitsOfOne := Nat.mul_pos nonempty unitsOfOne_pos
      rw [nearest_eq_nearestUnits, multiple.size, magnitude_ofNat small]
      calc nearestUnits (n * magnitude c * unitsOfOne) (n * unitsOfOne)
          = nearestUnits (n * unitsOfOne * magnitude c) (n * unitsOfOne * 1) := by
            rw [Nat.mul_right_comm, Nat.mul_one]
        _ = nearestUnits (units (pattern c)) 1 := nearestUnits_mul_mul factor _ _
        _ = pattern c := nearestUnits_units regular.2
    rw [div_eq (multiple.regular nonempty regular) (regular_ofNat nonempty small), quotient,
      multiple.sign, (atLeast_ofNat nonempty).unsigned, Bool.bne_false, ofPattern_pattern]
    exact .refl c

theorem pattern_drift_of_multiples (finite : isFinite c = true) (nonempty : 0 < n)
    (small : n ≤ 2 ^ 53) (multiples : HasMultiples c n) : pattern (drift c n) = 0 := by
  have alike := (Alike.refl c).sub (center_of_multiples finite nonempty small multiples)
  exact alike.pattern_eq.symm.trans (pattern_sub_self finite)

/-! ## Constant samples -/

theorem replicate_ne_nil (nonempty : 0 < n) (c : Float) : List.replicate n c ≠ [] := by
  rw [Ne, List.replicate_eq_nil_iff]
  exact Nat.ne_of_gt nonempty

/-- The z-score of a constant sample is refused if the square of the drift is rounded to zero. -/
theorem zscore_of_vanishes (nonempty : 0 < n) (vanishes : Vanishes (drift c n) (drift c n))
    (value : Float) :
    zscore value (List.replicate n c) = .error (.divisionByZero .standardDeviation) := by
  refine (zscore_outcome (replicate_ne_nil nonempty c) value).fails ?_
  rw [squares_replicate, Statistics.size, List.length_replicate]
  exact mean_replicate_of_zero (pattern_mul_eq_zero_iff.2 vanishes) nonempty

/-- Up to `2 ^ 53` samples it is refused only then. -/
theorem zscore_replicate (nonempty : 0 < n) (small : n ≤ 2 ^ 53) (value : Float) :
    FailsExactlyIf (Vanishes (drift c n) (drift c n)) (.divisionByZero .standardDeviation)
      (zscore value (List.replicate n c)) where
  fails vanishes := zscore_of_vanishes nonempty vanishes value
  succeeds varies := by
    refine (zscore_outcome (replicate_ne_nil nonempty c) value).succeeds ?_
    have positive := Nat.pos_of_ne_zero (mt pattern_mul_eq_zero_iff.1 varies)
    rw [squares_replicate, Statistics.size, List.length_replicate]
    exact Nat.ne_of_gt (mean_replicate_pos isNegative_square positive nonempty small)

/-- Two copies of a tenth have a tenth as their mean, and three copies have not. -/
example : Vanishes (drift 0.1 2) (drift 0.1 2) ∧ ¬ Vanishes (drift 0.1 3) (drift 0.1 3) := by
  decide +kernel

/-- A constant sample whose drift vanishes has a spread of zero. -/
theorem squares_of_vanishes (vanishes : Vanishes (drift c n) (drift c n)) :
    pattern (squares (List.replicate n c)) = 0 := by
  rw [squares_replicate]
  exact sum_replicate_of_zero (pattern_mul_eq_zero_iff.2 vanishes) n

/-- A constant sample has no z-score exactly if the square of its drift is rounded to zero, and
then no correlation with a sample of finite spread, in either order. Where all multiples of the
constant are numbers there is no drift. -/
theorem constant_samples (finite : isFinite c = true) (nonempty : 0 < n) :
    (∀ value, (Vanishes (drift c n) (drift c n) →
        zscore value (List.replicate n c) = .error (.divisionByZero .standardDeviation)) ∧
      (n ≤ 2 ^ 53 → FailsExactlyIf (Vanishes (drift c n) (drift c n))
        (.divisionByZero .standardDeviation) (zscore value (List.replicate n c)))) ∧
    (∀ other, other.length = n →
      FailsExactlyIf (Vanishes (squares (List.replicate n c)) (squares other))
        (.divisionByZero .variance) (correlation (List.replicate n c) other) ∧
      FailsExactlyIf (Vanishes (squares (List.replicate n c)) (squares other))
        (.divisionByZero .variance) (correlation other (List.replicate n c)) ∧
      (Vanishes (drift c n) (drift c n) →
        (Vanishes (squares (List.replicate n c)) (squares other) ↔
          isFinite (squares other) = true))) ∧
    (n ≤ 2 ^ 53 → HasMultiples c n → Vanishes (drift c n) (drift c n)) := by
  refine ⟨fun value => ⟨fun vanishes => zscore_of_vanishes nonempty vanishes value,
    fun small => zscore_replicate nonempty small value⟩, fun other length => ?_,
    fun small multiples => ?_⟩
  · have constant := replicate_ne_nil nonempty c
    have same : (List.replicate n c).length = other.length := by
      rw [List.length_replicate, length]
    have otherNonempty : other ≠ [] := by
      rintro rfl
      exact constant (List.eq_nil_of_length_eq_zero same)
    have swapped : Vanishes (squares other) (squares (List.replicate n c)) ↔
        Vanishes (squares (List.replicate n c)) (squares other) := Vanishes.comm
    exact ⟨correlation_outcome constant same,
      (correlation_outcome otherNonempty same.symm).congr swapped,
      fun vanishes => vanishes_iff_of_zero (squares_of_vanishes vanishes)⟩
  · have driftless := pattern_drift_of_multiples finite nonempty small multiples
    rw [vanishes_iff_of_zero driftless, isFinite, driftless]
    rfl

/-- Five copies of three have no z-score, and no correlation with the first five integers. -/
theorem constant_samples_integers :
    zscore 1.0 (List.replicate 5 3.0) = .error (.divisionByZero .standardDeviation) ∧
    correlation (List.replicate 5 3.0) [1.0, 2.0, 3.0, 4.0, 5.0] =
      .error (.divisionByZero .variance) ∧
    correlation [1.0, 2.0, 3.0, 4.0, 5.0] (List.replicate 5 3.0) =
      .error (.divisionByZero .variance) := by
  have finite : isFinite 3.0 = true := by decide +kernel
  obtain ⟨scores, correlations, exact⟩ := constant_samples finite (by decide : 0 < 5)
  have vanishes : Vanishes (drift 3.0 5) (drift 3.0 5) := by
    refine exact (by decide) fun k bound => ?_
    obtain ⟨bits, number, whole⟩ := exists_units_eq (by omega : k * 3 ≤ 2 ^ 53)
    have size : magnitude 3.0 = 3 * unitsOfOne := by decide +kernel
    exact ⟨bits, number, by rw [whole, size, Nat.mul_assoc]⟩
  obtain ⟨first, second, noticed⟩ := correlations [1.0, 2.0, 3.0, 4.0, 5.0] rfl
  have spread : isFinite (squares [1.0, 2.0, 3.0, 4.0, 5.0]) = true := by decide +kernel
  exact ⟨(scores 1.0).1 vanishes, first.fails ((noticed vanishes).2 spread),
    second.fails ((noticed vanishes).2 spread)⟩

/-- Three copies of a tenth have a z-score and correlations, because their rounded mean is not a
tenth; and two ones have a correlation that is no number with a sample of endless spread. -/
theorem constant_sample_drifts :
    isFinite 0.1 = true ∧ isFinite 1e200 = true ∧ isFinite (-1e200) = true ∧
    zscore 1.0 (List.replicate 3 0.1) = .ok (ofPattern false 4858483278007291085) ∧
    correlation (List.replicate 3 0.1) [1.0, 2.0, 3.0] = .ok 0.0 ∧
    correlation [1.0, 2.0, 3.0] (List.replicate 3 0.1) = .ok 0.0 ∧
    correlation (List.replicate 2 1.0) [1e200, -1e200] = .ok missing := by
  decide +kernel

end Calculator.Statistics
