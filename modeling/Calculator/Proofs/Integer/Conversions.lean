import Calculator.Integer
import Calculator.Proofs.Binary64.Values
import Calculator.Proofs.Operator.Words

/-!
# Numbers as words and sizes

A number is read as a signed word if its value without the fraction is in the range
of the words, and as a size if its value is a whole number that an unsigned word
holds. The limits are tested on exact integers. They can also be tested on numbers,
but the greatest word and the greatest size are no numbers: they are rounded up,
to `2 ^ 63` and `2 ^ 64`, which are out of range already. So the upper limit is
refused itself, the lower one, which is a number, is not, and what is between them
is converted without being clamped (`ofNumber_eq_clamped`, `sizeOfNumber_eq_clamped`).

Whether a number has a fraction is asked of the difference from its whole part.
That difference is not rounded to zero, so no number with a fraction passes.
-/

set_option autoImplicit false

namespace Calculator

namespace Binary64

open Float.Model.UnpackedFloat

variable {x : Float}

/-! ## Whole parts -/

/-- A number without its fraction; the sign stays, also that of a zero. -/
def wholePart (x : Float) : Float :=
  if isFinite x then ofPattern (isNegative x) (nearest (magnitude x / unitsOfOne) 1) else x

/-- The whole part of a finite number is worth a finite pattern. -/
theorem exists_whole {bits : Nat} (finite : bits < infinityPattern) :
    ∃ whole < infinityPattern, units whole = units bits / unitsOfOne * unitsOfOne := by
  rcases whole_units bits with small | ⟨exponent, whole⟩
  · exact exists_units_eq (Nat.le_of_lt small)
  · refine ⟨bits, finite, (Nat.div_mul_cancel ?_).symm⟩
    rw [whole]
    exact Nat.dvd_mul_left _ _

/-- The whole part of a number is its integer part. -/
theorem toInteger?_wholePart (finite : isFinite x = true) :
    toInteger? (wholePart x) = some (truncate x) := by
  obtain ⟨bits, below, whole⟩ := exists_whole (of_decide_eq_true finite)
  have built : wholePart x = ofPattern (isNegative x) bits := by
    rw [wholePart, if_pos finite, magnitude, nearest_of_units below whole]
  rw [toInteger?_eq_some_iff, built, pattern_ofPattern _ _ (Nat.le_of_lt below), withSignOf,
    isNegative_ofPattern _ _ (Nat.le_of_lt below), natAbs_truncate]
  exact ⟨below, whole, rfl⟩

/-! ## Conversions that clamp -/

/-- A mantissa is rounded to an integer by dropping what its exponent puts behind the point. -/
theorem roundToInt_eq (s : Sign) (m scale : Nat) :
    roundToInt s m ((scale : Int) - 1074) = s.apply ((m * 2 ^ scale / unitsOfOne : Nat) : Int) := by
  simp only [roundToInt, decreaseExponent, shiftToExponent]
  obtain ⟨up, raised⟩ : ∃ up, ((scale : Int) - 1074 - 0).toNat = up := ⟨_, rfl⟩
  obtain ⟨down, lowered⟩ : ∃ down, (0 - ((scale : Int) - 1074 - up)).toNat = down := ⟨_, rfl⟩
  have balance : scale + down = up + 1074 := by omega
  rw [raised, lowered, Nat.shiftLeft_eq]
  have stands := (standsFor_accuracyOfFraction (m * 2 ^ up) Nat.one_pos).shiftRight Nat.one_pos down
  rw [Nat.mod_one, Nat.div_one, Nat.one_mul] at stands
  have mantissa := stands.mantissa
  have moved : m * 2 ^ up / 2 ^ down = m * 2 ^ scale / unitsOfOne := by
    calc m * 2 ^ up / 2 ^ down
        = m * 2 ^ up * unitsOfOne / (2 ^ down * unitsOfOne) :=
          (Nat.mul_div_mul_right _ _ unitsOfOne_pos).symm
      _ = m * 2 ^ scale * 2 ^ down / (unitsOfOne * 2 ^ down) := by
          rw [Nat.mul_assoc, ← two_pow_add_unit, ← balance, Nat.pow_add, Nat.mul_assoc,
            Nat.mul_comm unitsOfOne]
      _ = m * 2 ^ scale / unitsOfOne := Nat.mul_div_mul_right _ _ (Nat.two_pow_pos down)
  rw [← moved, ← mantissa]
  rfl

/-- Unpacked, a finite number is converted to its integer part. -/
theorem toInt_parts (finite : isFinite x = true) (low high : Int) :
    (parts x).toInt low high = truncate x := by
  rcases Nat.eq_zero_or_pos (pattern x) with zero | positive
  · have truncated : truncate x = 0 := by
      rw [← Int.natAbs_eq_zero, natAbs_truncate, magnitude, zero, units_zero, Nat.zero_div]
    rw [parts_of_zero zero, truncated]
    rfl
  · rw [parts_of_finite (of_decide_eq_true finite) positive]
    exact (roundToInt_eq _ _ _).trans (apply_signOf x _)

theorem toInt64_eq (finite : isFinite x = true) :
    x.toModel.toInt64 = Int64.ofIntClamp (truncate x) :=
  congrArg Int64.ofIntClamp (toInt_parts finite _ _)

theorem toUInt64_eq (finite : isFinite x = true) :
    x.toUInt64 = UInt64.ofNatClamp (truncate x).toNat :=
  congrArg (fun n : Int => UInt64.ofNatClamp n.toNat) (toInt_parts finite _ _)

end Binary64

namespace Integer

open Binary64 (isFinite toInteger? truncate value towardZero wholePart ofNat)

variable {x y : Float} {n m : Int}

/-! ## Limits that are numbers -/

/-- The word of a number, with limits that are numbers: the number without its fraction is compared
with the numbers nearest to the least and the greatest word, and what passes is converted with
values out of range clamped. -/
def clampedOfNumber (what : String) (x : Float) : Except RuntimeError Int64 :=
  if !isFinite x then .error (.domain (.notFinite what x))
  else if wholePart x < toNumber Int64.minValue ∨ toNumber Int64.maxValue ≤ wholePart x then
    .error (.overflow (.integer x what))
  else .ok (wholePart x).toModel.toInt64

/-- The size that a number is, with limits that are numbers: zero, and the number nearest to the
greatest size. -/
def clampedSizeOfNumber (what : String) (x : Float) : Except RuntimeError Nat :=
  if !isFinite x ∨ x < 0.0 ∨ (x - wholePart x != 0.0) ∨ ofNat largestCount ≤ x then
    .error (.invalidArgument (.size what x))
  else .ok x.toUInt64.toNat

/-- Numbers that are integers are compared as these. -/
theorem lt_iff_integers (left : toInteger? x = some n) (right : toInteger? y = some m) :
    x < y ↔ n < m := by
  obtain ⟨finiteX, valueX⟩ := Binary64.toInteger?_eq_some_iff_value.1 left
  obtain ⟨finiteY, valueY⟩ := Binary64.toInteger?_eq_some_iff_value.1 right
  rw [Binary64.lt_iff_value finiteX finiteY, valueX, valueY, Int.cast_lt]

theorem le_iff_integers (left : toInteger? x = some n) (right : toInteger? y = some m) :
    x ≤ y ↔ n ≤ m := by
  obtain ⟨finiteX, valueX⟩ := Binary64.toInteger?_eq_some_iff_value.1 left
  obtain ⟨finiteY, valueY⟩ := Binary64.toInteger?_eq_some_iff_value.1 right
  rw [Binary64.le_iff_value finiteX finiteY, valueX, valueY, Int.cast_le]

/-- The least word is a number, the greatest word and the greatest size are rounded up. -/
theorem toInteger?_limits :
    toInteger? (toNumber Int64.minValue) = some (-2 ^ 63) ∧
      toInteger? (toNumber Int64.maxValue) = some (2 ^ 63) ∧
      toInteger? (ofNat largestCount) = some (2 ^ 64) := by
  decide +kernel

/-- A value in range is not clamped. -/
theorem ofIntClamp_of_fits (inside : fits n = true) : Int64.ofIntClamp n = Int64.ofInt n := by
  obtain ⟨low, high⟩ := fits_iff.1 inside
  have least : Int64.minValue.toInt ≤ n := low
  have greatest : n ≤ Int64.maxValue.toInt := Int.lt_add_one_iff.1 high
  rw [← Int64.toInt_inj, Int64.toInt_ofIntClamp least greatest, Int64.toInt_ofInt_of_le low high]

/-- Limits that are numbers decide about words as the range of the words does. -/
theorem ofNumber_eq_clamped (what : String) (x : Float) :
    ofNumber what x = clampedOfNumber what x := by
  rw [ofNumber, clampedOfNumber]
  split
  case isTrue => rfl
  case isFalse known =>
    have finite : isFinite x = true := by simpa using known
    have whole := Binary64.toInteger?_wholePart finite
    have word : (wholePart x).toModel.toInt64 = Int64.ofIntClamp (truncate x) := by
      rw [Binary64.toInt64_eq (Binary64.isFinite_of_toInteger? whole),
        Binary64.truncate_of_toInteger? whole]
    obtain ⟨least, greatest, -⟩ := toInteger?_limits
    have outside : wholePart x < toNumber Int64.minValue ∨ toNumber Int64.maxValue ≤ wholePart x ↔
        ¬ fits (truncate x) = true := by
      rw [lt_iff_integers whole least, le_iff_integers greatest whole, fits_iff]
      omega
    by_cases inside : fits (truncate x) = true
    · rw [if_neg (fun far => outside.1 far inside), word, ofIntClamp_of_fits inside]
      exact if_pos inside
    · rw [if_pos (outside.2 inside)]
      exact if_neg inside

/-- A finite number differs from its whole part unless it is an integer. -/
theorem fraction_iff (finite : isFinite x = true) :
    (x - wholePart x != 0.0) = true ↔ toInteger? x = none := by
  obtain ⟨finiteWhole, valueWhole⟩ :=
    Binary64.toInteger?_eq_some_iff_value.1 (Binary64.toInteger?_wholePart finite)
  rw [bne, Bool.not_eq_true', ← Bool.not_eq_true, Binary64.beq_zero_iff,
    Binary64.pattern_sub_eq_zero_iff finite finiteWhole, valueWhole]
  constructor
  · intro apart
    cases integer : toInteger? x with
    | none => rfl
    | some n =>
        obtain ⟨-, exact⟩ := Binary64.toInteger?_eq_some_iff_value.1 integer
        rw [exact, Binary64.truncate_of_toInteger? integer] at apart
        exact absurd rfl apart
  · intro noInteger same
    rw [Binary64.toInteger?_eq_some_iff_value.2 ⟨finite, same⟩] at noInteger
    cases noInteger

/-- Limits that are numbers decide about sizes as the range of the sizes does. -/
theorem sizeOfNumber_eq_clamped (what : String) (x : Float) :
    sizeOfNumber what x = clampedSizeOfNumber what x := by
  rw [sizeOfNumber, clampedSizeOfNumber]
  cases integer : toInteger? x with
  | none =>
      rw [if_pos]
      cases finite : isFinite x with
      | false => exact .inl rfl
      | true => exact .inr (.inr (.inl ((fraction_iff finite).2 integer)))
  | some n =>
      have finite := Binary64.isFinite_of_toInteger? integer
      obtain ⟨-, -, greatest⟩ := toInteger?_limits
      have zero : toInteger? 0.0 = some 0 := by decide +kernel
      have outside : (!isFinite x) = true ∨ x < 0.0 ∨ (x - wholePart x != 0.0) = true ∨
          ofNat largestCount ≤ x ↔ ¬ (0 ≤ n ∧ n ≤ largestCount) := by
        rw [lt_iff_integers integer zero, le_iff_integers greatest integer, fraction_iff finite,
          integer, finite, largestCount]
        simp
        omega
      by_cases inside : 0 ≤ n ∧ n ≤ largestCount
      · have small : n.toNat < UInt64.size := by
          have limit : largestCount < UInt64.size := by decide
          omega
        rw [if_neg (fun far => outside.1 far inside), Binary64.toUInt64_eq finite,
          Binary64.truncate_of_toInteger? integer, UInt64.toNat_ofNatClamp_of_lt small]
        exact if_pos inside
      · rw [if_pos (outside.2 inside)]
        exact if_neg inside

/-! ## Words and sizes as values -/

/-- A finite number is read as its value without the fraction, if that is in range. -/
theorem ofNumber_eq (what : String) (finite : isFinite x = true) :
    ofNumber what x =
      if fits (towardZero (value x)) then .ok (Int64.ofInt (towardZero (value x)))
      else .error (.overflow (.integer x what)) := by
  rw [ofNumber, finite, Binary64.truncate_eq finite]
  rfl

/-- What is not finite has no integer part. -/
theorem ofNumber_eq_domain_iff (what : String) :
    ofNumber what x = .error (.domain (.notFinite what x)) ↔ isFinite x = false := by
  cases finite : isFinite x with
  | false =>
      rw [ofNumber, finite]
      exact iff_of_true rfl rfl
  | true =>
      rw [ofNumber_eq what finite]
      split
      case isTrue => simp
      case isFalse => simp

theorem ofNumber_eq_ok_iff (what : String) :
    (∃ word, ofNumber what x = .ok word ∧ word.toInt = towardZero (value x)) ↔
      isFinite x = true ∧ fits (towardZero (value x)) = true := by
  constructor
  · rintro ⟨word, read, exact⟩
    cases finite : isFinite x with
    | false =>
        rw [(ofNumber_eq_domain_iff what).2 finite] at read
        cases read
    | true =>
        refine ⟨rfl, fits_iff.2 ?_⟩
        rw [← exact]
        exact ⟨word.le_toInt, word.toInt_lt⟩
  · rintro ⟨finite, inside⟩
    obtain ⟨low, high⟩ := fits_iff.1 inside
    rw [ofNumber_eq what finite, if_pos inside]
    exact ⟨_, rfl, Int64.toInt_ofInt_of_le low high⟩

theorem ofNumber_eq_overflow_iff (what : String) :
    ofNumber what x = .error (.overflow (.integer x what)) ↔
      isFinite x = true ∧ ¬ fits (towardZero (value x)) = true := by
  cases finite : isFinite x with
  | false =>
      rw [(ofNumber_eq_domain_iff what).2 finite]
      exact iff_of_false nofun fun known => nomatch known.1
  | true =>
      rw [ofNumber_eq what finite]
      split
      case isTrue inside => exact iff_of_false nofun fun outside => outside.2 inside
      case isFalse outside => exact iff_of_true rfl ⟨rfl, outside⟩

/-- A number is the size of its value. -/
theorem sizeOfNumber_eq_ok_iff (what : String) (size : Nat) :
    sizeOfNumber what x = .ok size ↔
      isFinite x = true ∧ value x = size ∧ size ≤ largestCount := by
  have valued : isFinite x = true ∧ value x = size ↔ toInteger? x = some (size : Int) := by
    rw [Binary64.toInteger?_eq_some_iff_value, Int.cast_natCast]
  rw [← and_assoc, valued, sizeOfNumber]
  cases toInteger? x with
  | none => exact iff_of_false nofun fun known => nomatch known.1
  | some n =>
      dsimp only
      split
      case isTrue inside =>
        rw [Except.ok.injEq, Option.some_inj]
        omega
      case isFalse outside =>
        refine iff_of_false nofun fun known => outside ?_
        obtain rfl := Option.some_inj.1 known.1
        omega

/-- What is no size is refused. -/
theorem sizeOfNumber_eq_invalid_iff (what : String) :
    sizeOfNumber what x = .error (.invalidArgument (.size what x)) ↔
      ¬ ∃ size : Nat, sizeOfNumber what x = .ok size := by
  rw [sizeOfNumber]
  cases toInteger? x with
  | none => exact iff_of_true rfl nofun
  | some n =>
      dsimp only
      split
      case isTrue => exact iff_of_false nofun fun refused => refused ⟨_, rfl⟩
      case isFalse => exact iff_of_true rfl nofun

/-- What is not finite is no number or infinite. -/
theorem isFinite_eq_false_iff : isFinite x = false ↔ x.isNaN = true ∨ x.isInf = true := by
  rw [← Binary64.isFinite_unpack]
  change (Binary64.parts x).isFinite = false ↔
    (Binary64.parts x).isNaN = true ∨ (Binary64.parts x).isInf = true
  cases Binary64.parts x with
  | notANumber => exact iff_of_true rfl (.inl rfl)
  | infinity sign => exact iff_of_true rfl (.inr rfl)
  | zero sign => exact iff_of_false nofun nofun
  | finite sign mantissa exponent positive => exact iff_of_false nofun nofun

/-- What is no number or infinite has no integer part. A finite number is read as the word of its
value without the fraction if there is such a word, and is too large otherwise. A number is a size
just if its value is a whole number that an unsigned word holds. And to test the limits on numbers,
which rounds the greatest word and the greatest size up and clamps what is out of range, comes to
the same results. -/
theorem conversions_exact (what : String) (x : Float) :
    ((ofNumber what x = .error (.domain (.notFinite what x)) ↔ x.isNaN = true ∨ x.isInf = true) ∧
      ((∃ word, ofNumber what x = .ok word ∧ word.toInt = towardZero (value x)) ↔
        x.isFinite = true ∧ -2 ^ 63 ≤ towardZero (value x) ∧ towardZero (value x) ≤ 2 ^ 63 - 1) ∧
      (ofNumber what x = .error (.overflow (.integer x what)) ↔ x.isFinite = true ∧
        ¬ (-2 ^ 63 ≤ towardZero (value x) ∧ towardZero (value x) ≤ 2 ^ 63 - 1))) ∧
    ((∀ size : Nat, sizeOfNumber what x = .ok size ↔
        x.isFinite = true ∧ value x = size ∧ size ≤ 2 ^ 64 - 1) ∧
      (sizeOfNumber what x = .error (.invalidArgument (.size what x)) ↔
        ¬ ∃ size : Nat, x.isFinite = true ∧ value x = size ∧ size ≤ 2 ^ 64 - 1)) ∧
    ofNumber what x = clampedOfNumber what x ∧ sizeOfNumber what x = clampedSizeOfNumber what x := by
  have finite : x.isFinite = isFinite x := Binary64.isFinite_unpack x
  have range : fits (towardZero (value x)) = true ↔
      -2 ^ 63 ≤ towardZero (value x) ∧ towardZero (value x) ≤ 2 ^ 63 - 1 := by
    rw [fits_iff]
    omega
  rw [finite, ← range]
  refine ⟨⟨?_, ofNumber_eq_ok_iff what, ofNumber_eq_overflow_iff what⟩,
    ⟨sizeOfNumber_eq_ok_iff what, ?_⟩, ofNumber_eq_clamped what x, sizeOfNumber_eq_clamped what x⟩
  · rw [ofNumber_eq_domain_iff, isFinite_eq_false_iff]
  · rw [sizeOfNumber_eq_invalid_iff]
    simp only [sizeOfNumber_eq_ok_iff]
    rfl

/-- `-2 ^ 63` is a word and `2 ^ 63` none, and the negative zero is a size. -/
example :
    ofNumber "gcd" (Binary64.ofInt (-2 ^ 63)) = .ok Int64.minValue ∧
      ofNumber "gcd" (Binary64.ofInt (2 ^ 63)) =
        .error (.overflow (.integer (Binary64.ofInt (2 ^ 63)) "gcd")) ∧
      sizeOfNumber "matrix rows" (-0.0) = .ok 0 := by
  decide +kernel

end Integer

end Calculator
