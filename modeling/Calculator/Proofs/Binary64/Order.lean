import Calculator.Proofs.Binary64.Parts

/-!
# The order of numbers

A number has a place in the order: its pattern, with its sign (`place`). Patterns
of one scale are ordered as their significands and patterns of different scales as
their scales, which is how comparison looks at exponent and mantissa
(`compare_parts`). So `<`, `==` and `≤` compare places, and fail if one side is no
number (`lt_iff`, `beq_iff`, `le_iff`). Only the two zeros share a place.

What shares its place with a number, or is no number just like it, is alike
(`Alike`). Alike are a number and itself and the two zeros, and nothing else
(`alike_iff`). Sums, differences and sizes of alike numbers are alike, and alike
numbers compare alike to all others, so a computation that ends in a number does
not tell them apart beyond the sign of a zero.
-/

set_option autoImplicit false

namespace Calculator.Binary64

open Float.Model (Format UnpackedFloat)
open Float.Model.UnpackedFloat (Sign)

/-! ## Places -/

/-- The place of a number in the order of the numbers: its pattern with its sign. -/
def place (x : Float) : Int := withSignOf x (pattern x)

/-- Mantissas and exponents are compared as their patterns are. -/
theorem compare_patterns (p q : Nat) :
    (compare ((scale p : Int) - 1074) ((scale q : Int) - 1074)).then
      (compare (significand p) (significand q)) = compare (p : Int) q := by
  rcases Nat.lt_trichotomy (scale p) (scale q) with less | same | greater
  · have order : (p : Int) < q := by
      simp only [scale] at less
      omega
    rw [compare_lt_iff_lt.2 (by omega), compare_lt_iff_lt.2 order]
    rfl
  · have order : compare (significand p) (significand q) = compare (p : Int) q := by
      simp only [significand, same]
      simp only [scale] at same ⊢
      rcases Nat.lt_trichotomy p q with less | rfl | greater
      · rw [compare_lt_iff_lt.2 (by omega), compare_lt_iff_lt.2 (by omega)]
      · rw [compare_eq_iff_eq.2 rfl, compare_eq_iff_eq.2 rfl]
      · rw [compare_gt_iff_gt.2 (by omega), compare_gt_iff_gt.2 (by omega)]
    rw [compare_eq_iff_eq.2 (by omega), order]
    rfl
  · have order : (q : Int) < p := by
      simp only [scale] at greater
      omega
    rw [compare_gt_iff_gt.2 (by omega), compare_gt_iff_gt.2 order]
    rfl

/-- With both signs turned around two numbers are compared the other way. -/
theorem compare_neg_neg (a b : Int) : compare (-a) (-b) = (compare a b).swap := by
  rw [Int.compare_swap, Int.compare_eq_ite_lt, Int.compare_eq_ite_lt]
  simp only [Int.neg_lt_neg_iff]

/-- Numbers are compared by their places. -/
theorem compare_parts {x y : Float} (numberX : isNaN x = false) (numberY : isNaN y = false) :
    (parts x).compare (parts y) = some (compare (place x) (place y)) := by
  have far : 0 < infinityPattern := by decide
  rw [place, place, withSignOf, withSignOf]
  rcases parts_cases numberX with ⟨sizeX, partsX⟩ | ⟨sizeX, finX, _, partsX⟩ | ⟨sizeX, partsX⟩ <;>
    rcases parts_cases numberY with
      ⟨sizeY, partsY⟩ | ⟨sizeY, finY, _, partsY⟩ | ⟨sizeY, partsY⟩ <;>
    rw [partsX, partsY, signOf, signOf]
  case inr.inl.inr.inl =>
    -- Two finite numbers of one sign are compared by exponent and mantissa.
    cases isNegative x with
    | false =>
        cases isNegative y with
        | false => exact congrArg some (compare_patterns _ _)
        | true => exact congrArg some (compare_gt_iff_gt.2 (by simp; omega)).symm
    | true =>
        cases isNegative y with
        | false => exact congrArg some (compare_lt_iff_lt.2 (by simp; omega)).symm
        | true =>
            refine congrArg some ((congrArg Ordering.swap (compare_patterns _ _)).trans ?_)
            exact (compare_neg_neg _ _).symm
  case inr.inr.inr.inr =>
    rw [sizeX, sizeY]
    cases isNegative x <;> cases isNegative y <;> rfl
  -- In every other case the kinds and the signs decide.
  all_goals
    cases isNegative x <;> cases isNegative y <;>
      simp (disch := omega) only [UnpackedFloat.compare, Int.compare_eq_ite_lt, if_true, if_false,
        Bool.false_eq_true, if_pos, if_neg]

/-! ## Comparisons -/

/-- What is no number is not compared. -/
theorem compare_of_isNaN {x y : Float} (missing : isNaN x = true ∨ isNaN y = true) :
    (parts x).compare (parts y) = none := by
  rcases missing with left | right
  · rw [parts_of_isNaN left]
    rfl
  · rw [parts_of_isNaN right]
    cases parts x with
    | infinity sign => cases sign <;> rfl
    | finite sign _ _ _ => cases sign <;> rfl
    | notANumber | zero _ => rfl

/-- Two numbers compare as their places do, and what is no number with nothing. -/
theorem compare_eq_some_iff {x y : Float} {order : Ordering} :
    (parts x).compare (parts y) = some order ↔
      (isNaN x = false ∧ isNaN y = false) ∧ compare (place x) (place y) = order := by
  by_cases numbers : isNaN x = false ∧ isNaN y = false
  · rw [compare_parts numbers.1 numbers.2, Option.some_inj]
    exact (and_iff_right numbers).symm
  · have missing : isNaN x = true ∨ isNaN y = true := by
      simpa only [not_and_or, Bool.not_eq_false] using numbers
    rw [compare_of_isNaN missing]
    exact iff_of_false nofun fun compared => numbers compared.1

theorem lt_iff {x y : Float} :
    x < y ↔ (isNaN x = false ∧ isNaN y = false) ∧ place x < place y := by
  have unfolded : x < y ↔ (parts x).compare (parts y) = some .lt := by
    change decide ((parts x).lt (parts y) = true) = true ↔ _
    rw [decide_eq_true_iff, UnpackedFloat.lt, beq_iff_eq]
  rw [unfolded, compare_eq_some_iff, compare_lt_iff_lt]

theorem beq_iff {x y : Float} :
    (x == y) = true ↔ (isNaN x = false ∧ isNaN y = false) ∧ place x = place y := by
  have unfolded : (x == y) = true ↔ (parts x).compare (parts y) = some .eq := by
    change (parts x).beq (parts y) = true ↔ _
    rw [UnpackedFloat.beq, beq_iff_eq]
  rw [unfolded, compare_eq_some_iff, compare_eq_iff_eq]

theorem le_iff {x y : Float} :
    x ≤ y ↔ (isNaN x = false ∧ isNaN y = false) ∧ place x ≤ place y := by
  have unfolded : x ≤ y ↔
      ∃ order, (parts x).compare (parts y) = some order ∧ order.isLE = true := by
    change decide ((parts x).le (parts y) = true) = true ↔ _
    rw [decide_eq_true_iff, UnpackedFloat.le, Option.any_eq_true]
  simp only [unfolded, compare_eq_some_iff, and_assoc, exists_and_left, exists_eq_left',
    Int.isLE_compare]

/-! ## Alike numbers -/

/-- A number is determined by its parts. -/
theorem eq_of_parts {x y : Float} (same : parts x = parts y) : x = y := by
  have stored (z : Float) : z = ⟨.pack (parts z)⟩ := (ofBits_toBits z).symm
  rw [stored x, stored y, same]

/-- The same number, or the other zero. -/
def Alike (x y : Float) : Prop := x = y ∨ (x == y) = true

theorem isNaN_of_zero {x : Float} (zero : pattern x = 0) : isNaN x = false := by
  rw [isNaN, zero]
  rfl

theorem number_of_finite {x : Float} (finite : isFinite x = true) : isNaN x = false :=
  decide_eq_false (Nat.not_lt.2 (Nat.le_of_lt (of_decide_eq_true finite)))

theorem place_of_zero {x : Float} (zero : pattern x = 0) : place x = 0 := by
  rw [place, withSignOf, zero]
  split <;> rfl

theorem natAbs_place (x : Float) : (place x).natAbs = pattern x := natAbs_withSignOf x _

/-- Alike are only a number and itself and the two zeros. -/
theorem alike_iff {x y : Float} : Alike x y ↔ x = y ∨ pattern x = 0 ∧ pattern y = 0 := by
  constructor
  · rintro (same | equal)
    · exact .inl same
    · obtain ⟨-, places⟩ := beq_iff.1 equal
      have patterns : pattern x = pattern y := by
        rw [← natAbs_place, places, natAbs_place]
      rcases Nat.eq_zero_or_pos (pattern x) with zero | positive
      · exact .inr ⟨zero, patterns ▸ zero⟩
      · -- Away from zero the sign can be read off the place.
        refine .inl (eq_of_pattern_eq ?_ patterns)
        rw [place, place, withSignOf, withSignOf] at places
        cases signX : isNegative x <;> cases signY : isNegative y <;>
          simp only [signX, signY, if_true, if_false, Bool.false_eq_true] at places ⊢ <;> omega
  · rintro (same | ⟨zeroX, zeroY⟩)
    · exact .inl same
    · refine .inr (beq_iff.2 ⟨⟨isNaN_of_zero zeroX, isNaN_of_zero zeroY⟩, ?_⟩)
      rw [place_of_zero zeroX, place_of_zero zeroY]

namespace Alike

variable {x x' y y' : Float}

theorem refl (x : Float) : Alike x x := .inl rfl

theorem symm (alike : Alike x y) : Alike y x :=
  alike_iff.2 ((alike_iff.1 alike).imp Eq.symm And.symm)

theorem isNaN_eq (alike : Alike x y) : isNaN x = isNaN y := by
  rcases alike_iff.1 alike with rfl | ⟨zeroX, zeroY⟩
  · rfl
  · rw [isNaN_of_zero zeroX, isNaN_of_zero zeroY]

theorem place_eq (alike : Alike x y) : place x = place y := by
  rcases alike_iff.1 alike with rfl | ⟨zeroX, zeroY⟩
  · rfl
  · rw [place_of_zero zeroX, place_of_zero zeroY]

theorem pattern_eq (alike : Alike x y) : pattern x = pattern y := by
  rw [← natAbs_place, alike.place_eq, natAbs_place]

/-- Alike numbers compare alike. -/
theorem lt_iff (left : Alike x x') (right : Alike y y') : x < y ↔ x' < y' := by
  rw [Binary64.lt_iff, Binary64.lt_iff, left.isNaN_eq, left.place_eq, right.isNaN_eq,
    right.place_eq]

end Alike

/-! ## Arithmetic of alike numbers -/

/-- The same parts, or the parts of two zeros. -/
def AlikeParts (u v : UnpackedFloat) : Prop := u = v ∨ ∃ s t, u = .zero s ∧ v = .zero t

theorem Alike.parts {x y : Float} (alike : Alike x y) : AlikeParts (parts x) (parts y) := by
  rcases alike_iff.1 alike with rfl | ⟨zeroX, zeroY⟩
  · exact .inl rfl
  · exact .inr ⟨_, _, parts_of_zero zeroX, parts_of_zero zeroY⟩

/-- Numbers made of alike parts are alike. -/
theorem alike_of_parts {u v : UnpackedFloat} (alike : AlikeParts u v) :
    Alike ⟨.pack u⟩ ⟨.pack v⟩ := by
  have zero (s : Sign) : pattern ⟨.pack (.zero s)⟩ = 0 := by cases s <;> decide +kernel
  rcases alike with rfl | ⟨s, t, rfl, rfl⟩
  · exact .refl _
  · exact alike_iff.2 (.inr ⟨zero s, zero t⟩)

/-- A difference is the sum with the second number turned around. -/
theorem unpacked_sub_eq_add_neg (format : Format) (u v : UnpackedFloat) :
    u.sub format v = u.add format v.neg := by
  have turned (s : Sign) (n : Int) : (-s).apply n = -s.apply n := by
    cases s with
    | positive => rfl
    | negative => exact (Int.neg_neg n).symm
  cases u with
  | notANumber => rfl
  | infinity s => cases v <;> rfl
  | zero s => cases v <;> rfl
  | finite s m e _ =>
      cases v with
      | notANumber | infinity _ | zero _ => rfl
      | finite t n f _ =>
          rw [UnpackedFloat.neg, UnpackedFloat.sub, UnpackedFloat.add]
          simp only [turned, ← Int.sub_eq_add_neg]

namespace AlikeParts

variable {u u' v v' : UnpackedFloat}

theorem add (left : AlikeParts u u') (right : AlikeParts v v') :
    AlikeParts (.add Format.binary64 u v) (.add Format.binary64 u' v') := by
  rcases left with rfl | ⟨s, s', rfl, rfl⟩ <;> rcases right with rfl | ⟨t, t', rfl, rfl⟩
  case inl.inl => exact .inl rfl
  case inl.inr =>
    cases u with
    | zero r => exact .inr (by cases r <;> cases t <;> cases t' <;> exact ⟨_, _, rfl, rfl⟩)
    | infinity _ | notANumber | finite _ _ _ _ => exact .inl rfl
  case inr.inl =>
    cases v with
    | zero r => exact .inr (by cases r <;> cases s <;> cases s' <;> exact ⟨_, _, rfl, rfl⟩)
    | infinity _ | notANumber | finite _ _ _ _ => exact .inl rfl
  case inr.inr =>
    exact .inr (by cases s <;> cases t <;> cases s' <;> cases t' <;> exact ⟨_, _, rfl, rfl⟩)

theorem neg (alike : AlikeParts u u') : AlikeParts u.neg u'.neg := by
  rcases alike with rfl | ⟨s, s', rfl, rfl⟩
  · exact .inl rfl
  · exact .inr ⟨_, _, rfl, rfl⟩

theorem sub (left : AlikeParts u u') (right : AlikeParts v v') :
    AlikeParts (.sub Format.binary64 u v) (.sub Format.binary64 u' v') := by
  rw [unpacked_sub_eq_add_neg, unpacked_sub_eq_add_neg]
  exact left.add right.neg

theorem abs (alike : AlikeParts u u') : AlikeParts u.abs u'.abs := by
  rcases alike with rfl | ⟨s, s', rfl, rfl⟩
  · exact .inl rfl
  · exact .inl rfl

theorem div (alike : AlikeParts u u') (v : UnpackedFloat) :
    AlikeParts (.div Format.binary64 u v) (.div Format.binary64 u' v) := by
  rcases alike with rfl | ⟨s, s', rfl, rfl⟩
  · exact .inl rfl
  · cases v with
    | notANumber | zero _ => exact .inl rfl
    | infinity _ | finite _ _ _ _ => exact .inr ⟨_, _, rfl, rfl⟩

end AlikeParts

namespace Alike

variable {x x' y y' : Float}

theorem add (left : Alike x x') (right : Alike y y') : Alike (x + y) (x' + y') :=
  alike_of_parts (left.parts.add right.parts)

theorem sub (left : Alike x x') (right : Alike y y') : Alike (x - y) (x' - y') :=
  alike_of_parts (left.parts.sub right.parts)

theorem abs (alike : Alike x x') : Alike x.abs x'.abs :=
  alike_of_parts alike.parts.abs

theorem div (alike : Alike x x') (y : Float) : Alike (x / y) (x' / y) :=
  alike_of_parts (alike.parts.div (Binary64.parts y))

end Alike

end Calculator.Binary64
