import Calculator.Proofs.Binary64.Arithmetic
import Calculator.Proofs.Binary64.Operations

/-!
# Results that are zero

A computation that compares a result with zero asks whether rounding made it zero.
For a product of finite numbers it does exactly if the exact product is at most half
a unit (`pattern_mul_eq_zero_iff`), and a root is zero for zeros only
(`pattern_sqrt_eq_zero_iff`).

Sums of numbers that are not negative do not get lost so. A sum of `k` positive
numbers stands at least `k` patterns above zero, up to `2 ^ 53`, because the units
of a pattern are no fewer than its place (`AtLeast.add`). It can still be divided by
`k` without becoming zero (`AtLeast.div_ofNat`).
-/

set_option autoImplicit false

namespace Calculator.Binary64

open Float.Model (Format UnpackedFloat)
open Float.Model.UnpackedFloat (Sign)
open Numeral (roundHalfEven)

variable {x y : Float}

/-- Only zeros equal zero. -/
theorem beq_zero_iff : (x == 0.0) = true ↔ pattern x = 0 := by
  have zero : place 0.0 = 0 := by decide +kernel
  have number : isNaN 0.0 = false := by decide +kernel
  rw [beq_iff, zero]
  constructor
  · rintro ⟨-, vanishes⟩
    rw [← natAbs_place, vanishes]
    rfl
  · exact fun vanishes => ⟨⟨isNaN_of_zero vanishes, number⟩, place_of_zero vanishes⟩

/-! ## Kinds of numbers -/

theorem kinds (x : Float) :
    isNaN x = true ∨ pattern x = 0 ∨ Regular x ∨ pattern x = infinityPattern := by
  cases missing : isNaN x with
  | true => exact .inl rfl
  | false =>
      have bound : pattern x ≤ infinityPattern := Nat.not_lt.1 (of_decide_eq_false missing)
      rcases Nat.eq_zero_or_pos (pattern x) with zero | positive
      · exact .inr (.inl zero)
      · exact .inr (.inr ((Nat.lt_or_eq_of_le bound).imp_left fun finite => ⟨positive, finite⟩))

theorem pattern_pos_of_isNaN (missing : isNaN x = true) : 0 < pattern x :=
  Nat.lt_of_le_of_lt (Nat.zero_le _) (of_decide_eq_true missing : infinityPattern < pattern x)

theorem isNaN_pack : isNaN ⟨.pack .notANumber⟩ = true := by decide +kernel

theorem pattern_pack_zero (s : Sign) : pattern ⟨.pack (.zero s)⟩ = 0 := by
  cases s <;> decide +kernel

theorem pattern_pack_infinity (s : Sign) : pattern ⟨.pack (.infinity s)⟩ = infinityPattern := by
  cases s <;> decide +kernel

/-- What is not finite is stored as no zero. -/
theorem pattern_pack_pos {u : UnpackedFloat} (far : u.isFinite = false) :
    0 < pattern ⟨.pack u⟩ := by
  cases u with
  | notANumber => exact pattern_pos_of_isNaN isNaN_pack
  | infinity s => exact pattern_pack_infinity s ▸ (by decide)
  | zero _ | finite _ _ _ _ => cases far

theorem isNaN_add (missing : isNaN x = true ∨ isNaN y = true) : isNaN (x + y) = true := by
  have missingSum : UnpackedFloat.add Format.binary64 (parts x) (parts y) = .notANumber := by
    rcases missing with left | right
    · rw [parts_of_isNaN left]
      rfl
    · rw [parts_of_isNaN right]
      cases parts x <;> rfl
  rw [add_eq_pack, missingSum]
  exact isNaN_pack

theorem isNaN_div (missing : isNaN x = true) (y : Float) : isNaN (x / y) = true := by
  rw [div_eq_pack, parts_of_isNaN missing]
  exact isNaN_pack

/-- The negative zero changes nothing that it is added to. -/
theorem negative_zero_add (x : Float) : -0.0 + x = x := by
  have zero : parts (-0.0) = .zero .negative := by
    have negative : isNegative (-0.0) = true := by decide +kernel
    rw [parts_of_zero (by decide +kernel), signOf, negative]
    rfl
  have same : UnpackedFloat.add Format.binary64 (.zero .negative) (parts x) = parts x := by
    cases parts x with
    | zero s => cases s <;> rfl
    | notANumber | infinity _ | finite _ _ _ _ => rfl
  rw [add_eq_pack, zero, same]
  exact ofBits_toBits x

theorem pattern_add_of_zero (zeroX : pattern x = 0) (zeroY : pattern y = 0) :
    pattern (x + y) = 0 := by
  rw [add_eq_pack, parts_of_zero zeroX, parts_of_zero zeroY]
  cases signOf x <;> cases signOf y <;> exact pattern_pack_zero _

theorem pattern_sub_self (finite : isFinite x = true) : pattern (x - x) = 0 := by
  obtain ⟨s, zero⟩ : ∃ s, UnpackedFloat.sub Format.binary64 (parts x) (parts x) = .zero s :=
    unpacked_sub_self ((isFinite_unpack x).trans finite)
  rw [sub_eq_pack, zero]
  exact pattern_pack_zero s

/-! ## Roots -/

/-- Only zeros have a root that is zero. -/
theorem pattern_sqrt_eq_zero_iff : pattern x.sqrt = 0 ↔ pattern x = 0 := by
  have stays {u : UnpackedFloat} (parts_eq : parts x = u) (positive : 0 < pattern x)
      (far : (UnpackedFloat.sqrt Format.binary64 u).isFinite = false) :
      pattern x.sqrt = 0 ↔ pattern x = 0 := by
    rw [sqrt_eq_pack, parts_eq]
    exact iff_of_false (Nat.ne_of_gt (pattern_pack_pos far)) (Nat.ne_of_gt positive)
  rcases kinds x with missing | zero | regular | infinite
  · exact stays (parts_of_isNaN missing) (pattern_pos_of_isNaN missing) rfl
  · rw [sqrt_eq_pack, parts_of_zero zero]
    exact iff_of_true (pattern_pack_zero _) zero
  · cases sign : isNegative x with
    | false =>
        exact iff_of_false (Nat.ne_of_gt (pattern_sqrt_pos regular sign)) (Nat.ne_of_gt regular.1)
    | true =>
        have negative : signOf x = .negative := by rw [signOf, sign]; rfl
        exact stays (negative ▸ regular.parts_eq) regular.1 rfl
  · refine stays (parts_of_infinite infinite) (by rw [infinite]; decide) ?_
    cases signOf x <;> rfl

/-! ## Products -/

/-- The exact product of two finite numbers is at most half a unit. -/
def Vanishes (x y : Float) : Prop :=
  isFinite x = true ∧ isFinite y = true ∧ 2 * (magnitude x * magnitude y) ≤ unitsOfOne

instance (x y : Float) : Decidable (Vanishes x y) := inferInstanceAs (Decidable (_ ∧ _ ∧ _))

/-- A quotient is rounded to zero exactly up to a half. -/
theorem nearestUnits_eq_zero_iff {count den : Nat} (positive : 0 < den) :
    nearestUnits count den = 0 ↔ 2 * count ≤ den := by
  rcases Nat.lt_or_ge count den with below | above
  · have log : Nat.log2 0 = 0 := by decide
    rw [nearestUnits, Nat.div_eq_of_lt below, scaleOf, log]
    simp only [roundHalfEven, Nat.zero_sub, Nat.zero_mul, Nat.pow_zero, Nat.mul_one,
      Nat.div_eq_of_lt below, Nat.mod_eq_of_lt below, infinityPattern]
    split
    · omega
    · split
      · omega
      · omega
  · have counted := le_nearestUnits positive (by decide : 1 ≤ 2 ^ 53) (Nat.one_mul den ▸ above)
    omega

/-- A product is not finite if one of its two numbers is not. -/
theorem isFinite_mul {u v : UnpackedFloat} (far : u.isFinite = false ∨ v.isFinite = false) :
    (UnpackedFloat.mul Format.binary64 u v).isFinite = false := by
  cases u with
  | notANumber => rfl
  | infinity _ => cases v <;> rfl
  | zero _ | finite _ _ _ _ =>
      obtain left | right := far
      · cases left
      · cases v with
        | notANumber | infinity _ => rfl
        | zero _ | finite _ _ _ _ => cases right

theorem Vanishes.comm : Vanishes x y ↔ Vanishes y x := by
  rw [Vanishes, Vanishes, Nat.mul_comm (magnitude x), and_left_comm]

/-- A product with a zero vanishes if the other number is finite. -/
theorem vanishes_iff_of_zero (zero : pattern x = 0) : Vanishes x y ↔ isFinite y = true := by
  have finite : isFinite x = true := by
    rw [isFinite, zero]
    rfl
  rw [Vanishes, magnitude, zero, units_zero, Nat.zero_mul]
  exact ⟨fun vanishes => vanishes.2.1, fun bounded => ⟨finite, bounded, Nat.zero_le _⟩⟩

/-- Alike numbers have products of the same size. -/
theorem Alike.vanishes_iff {x' y' : Float} (left : Alike x x') (right : Alike y y') :
    Vanishes x y ↔ Vanishes x' y' := by
  simp only [Vanishes, isFinite, magnitude, left.pattern_eq, right.pattern_eq]

/-- A product is zero exactly if both numbers are finite and it is at most half a unit. -/
theorem pattern_mul_eq_zero_iff : pattern (x * y) = 0 ↔ Vanishes x y := by
  by_cases far : isFinite x = false ∨ isFinite y = false
  · have endless := isFinite_mul (far.imp (isFinite_unpack x).trans (isFinite_unpack y).trans)
    refine iff_of_false (Nat.ne_of_gt (pattern_pack_pos endless)) ?_
    rintro ⟨finiteX, finiteY, -⟩
    simp [finiteX, finiteY] at far
  obtain ⟨finiteX, finiteY⟩ : isFinite x = true ∧ isFinite y = true := by simpa using far
  have boundX : pattern x < infinityPattern := of_decide_eq_true finiteX
  have boundY : pattern y < infinityPattern := of_decide_eq_true finiteY
  rcases Nat.eq_zero_or_pos (pattern x) with zeroX | positiveX
  · refine iff_of_true ?_ ((vanishes_iff_of_zero zeroX).2 finiteY)
    rw [mul_eq_pack, parts_of_zero zeroX]
    rcases Nat.eq_zero_or_pos (pattern y) with zeroY | positiveY
    · rw [parts_of_zero zeroY]
      exact pattern_pack_zero _
    · rw [parts_of_finite boundY positiveY]
      exact pattern_pack_zero _
  rcases Nat.eq_zero_or_pos (pattern y) with zeroY | positiveY
  · refine iff_of_true ?_ (Vanishes.comm.1 ((vanishes_iff_of_zero zeroY).2 finiteX))
    rw [mul_eq_pack, parts_of_zero zeroY, parts_of_finite boundX positiveX]
    exact pattern_pack_zero _
  rw [mul_eq ⟨positiveX, boundX⟩ ⟨positiveY, boundY⟩, pattern_ofPattern _ _ (nearestUnits_le _ _),
    nearestUnits_eq_zero_iff unitsOfOne_pos, Vanishes, and_iff_right finiteX, and_iff_right finiteY]

/-- A square is not negative, if it is a number. -/
theorem isNegative_square (number : isNaN (x * x) = false) : isNegative (x * x) = false := by
  rcases kinds x with missing | zero | regular | infinite
  · rw [mul_eq_pack, parts_of_isNaN missing] at number
    exact absurd (isNaN_pack.symm.trans number) (by decide)
  · rw [mul_eq_pack, parts_of_zero zero]
    cases signOf x <;> decide +kernel
  · rw [mul_eq regular regular, isNegative_ofPattern _ _ (nearestUnits_le _ _), bne_self_eq_false]
  · rw [mul_eq_pack, parts_of_infinite infinite]
    cases signOf x <;> decide +kernel

/-! ## Numbers from a pattern on -/

/-- A number that is not negative and stands at least `k` patterns above zero. -/
structure AtLeast (k : Nat) (x : Float) : Prop where
  number : isNaN x = false
  unsigned : isNegative x = false
  bound : k ≤ pattern x

/-- The units of a pattern are no fewer than its place. -/
theorem le_units (bits : Nat) : bits ≤ units bits := by
  have exact : bits = scale bits * 2 ^ 52 + significand bits := by
    rw [significand, scale]
    omega
  have power : scale bits < 2 ^ scale bits := Nat.lt_two_pow_self
  rcases normal_significand bits with low | full
  · rw [units, low, Nat.pow_zero, Nat.mul_one]
    omega
  · calc bits = scale bits * 2 ^ 52 + significand bits := exact
      _ ≤ scale bits * significand bits + significand bits :=
          Nat.add_le_add_right (Nat.mul_le_mul_left _ full) _
      _ = significand bits * (scale bits + 1) := by ring
      _ ≤ units bits := Nat.mul_le_mul_left _ power

section

variable {j k n : Nat}

namespace AtLeast

theorem signOf_eq (above : AtLeast k x) : signOf x = .positive := by
  rw [signOf, above.unsigned]
  rfl

theorem signedUnits_eq (above : AtLeast k x) : signedUnits x = magnitude x := by
  rw [signedUnits, withSignOf, above.unsigned]
  rfl

theorem infinite_or_regular (above : AtLeast k x) (positive : 0 < k) :
    parts x = .infinity .positive ∨ Regular x := by
  rcases parts_cases above.number with ⟨zero, -⟩ | ⟨nonzero, finite, -⟩ | ⟨-, parts_eq⟩
  · exact absurd above.bound (by omega)
  · exact .inr ⟨nonzero, finite⟩
  · exact .inl (above.signOf_eq ▸ parts_eq)

theorem infinity (small : k ≤ 2 ^ 53) : AtLeast k ⟨.pack (.infinity .positive)⟩ where
  number := by decide +kernel
  unsigned := by decide +kernel
  bound := by
    rw [pattern_pack_infinity, infinityPattern]
    omega

theorem ofPattern {bits : Nat} (enough : k ≤ bits) (number : bits ≤ infinityPattern) :
    AtLeast k (ofPattern false bits) where
  number := by
    rw [isNaN, pattern_ofPattern _ _ number]
    exact decide_eq_false (Nat.not_lt.2 number)
  unsigned := isNegative_ofPattern _ _ number
  bound := by rwa [pattern_ofPattern _ _ number]

end AtLeast

/-! ### Counts -/

/-- A positive count is stored as a positive number. -/
theorem atLeast_ofNat {n : Nat} (positive : 0 < n) : AtLeast 1 (ofNat n) := by
  have unsigned : decide ((n : Int) < 0) = false := decide_eq_false (by omega)
  rw [ofNat, ofInt, Int.natAbs_natCast, nearest_eq_nearestUnits, unsigned]
  have enough : 1 * 1 ≤ n * unitsOfOne := Nat.mul_pos positive unitsOfOne_pos
  exact .ofPattern (le_nearestUnits Nat.one_pos (by decide) enough) (nearestUnits_le _ _)

/-- Counts up to `2 ^ 53` are stored as they are. -/
theorem magnitude_ofNat {n : Nat} (small : n ≤ 2 ^ 53) :
    magnitude (ofNat n) = n * unitsOfOne := by
  obtain ⟨bits, finite, whole⟩ := exists_units_eq small
  rw [magnitude, ofNat, ofInt, Int.natAbs_natCast, nearest_of_units finite whole,
    pattern_ofPattern _ _ (Nat.le_of_lt finite), whole]

theorem regular_ofNat {n : Nat} (positive : 0 < n) (small : n ≤ 2 ^ 53) : Regular (ofNat n) := by
  obtain ⟨bits, finite, whole⟩ := exists_units_eq small
  refine ⟨(atLeast_ofNat positive).bound, ?_⟩
  rwa [ofNat, ofInt, Int.natAbs_natCast, nearest_of_units finite whole,
    pattern_ofPattern _ _ (Nat.le_of_lt finite)]

/-! ### Sums and means -/

/-- A zero divided by what is positive is a zero. -/
theorem pattern_div_of_zero (above : AtLeast 1 y) (zero : pattern x = 0) : pattern (x / y) = 0 := by
  rw [div_eq_pack, parts_of_zero zero]
  rcases above.infinite_or_regular Nat.one_pos with infinite | regular
  · rw [infinite]
    exact pattern_pack_zero _
  · rw [regular.parts_eq]
    exact pattern_pack_zero _

namespace AtLeast

theorem add (left : AtLeast j x) (right : AtLeast k y) (positiveX : 0 < j) (positiveY : 0 < k)
    (small : j + k ≤ 2 ^ 53) : AtLeast (j + k) (x + y) := by
  rcases left.infinite_or_regular positiveX with infinite | regularX
  · rcases right.infinite_or_regular positiveY with other | regularY
    · rw [add_eq_pack, infinite, other]
      exact .infinity small
    · rw [add_eq_pack, infinite, regularY.parts_eq]
      exact .infinity small
  rcases right.infinite_or_regular positiveY with infinite | regularY
  · rw [add_eq_pack, infinite, regularX.parts_eq]
    exact .infinity small
  have exact : signedUnits x + signedUnits y = ((magnitude x + magnitude y : Nat) : Int) := by
    rw [left.signedUnits_eq, right.signedUnits_eq, Nat.cast_add]
  have enough : (j + k) * 1 ≤ magnitude x + magnitude y := by
    have unitsX := Nat.le_trans left.bound (le_units (pattern x))
    have unitsY := Nat.le_trans right.bound (le_units (pattern y))
    rw [Nat.mul_one]
    exact Nat.add_le_add unitsX unitsY
  rw [add_eq regularX regularY, exact, Int.natAbs_natCast, decide_eq_false (by omega)]
  exact .ofPattern (le_nearestUnits Nat.one_pos small enough) (nearestUnits_le _ _)

/-- The mean of as many numbers as there are patterns below their sum is not zero. -/
theorem div_ofNat (above : AtLeast n x) (positive : 0 < n) (small : n ≤ 2 ^ 53) :
    AtLeast 1 (x / ofNat n) := by
  have unsigned := (atLeast_ofNat positive).unsigned
  have regular := regular_ofNat positive small
  rcases above.infinite_or_regular positive with infinite | regularX
  · rw [div_eq_pack, infinite, regular.parts_eq, (atLeast_ofNat positive).signOf_eq]
    exact .infinity (by decide)
  · rw [div_eq regularX regular, above.unsigned, unsigned, nearest_eq_nearestUnits,
      magnitude_ofNat small]
    have enough : 1 * (n * unitsOfOne) ≤ magnitude x * unitsOfOne := by
      rw [Nat.one_mul]
      exact Nat.mul_le_mul_right _ (Nat.le_trans above.bound (le_units (pattern x)))
    exact .ofPattern (le_nearestUnits (Nat.mul_pos positive unitsOfOne_pos) (by decide) enough)
      (nearestUnits_le _ _)

end AtLeast

end

end Calculator.Binary64
