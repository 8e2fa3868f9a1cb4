import Calculator.Proofs.Binary64.Integers

/-!
# Comparison of numbers

Comparison looks at sign, exponent and mantissa, and only what is no number
differs from itself, so a finite number equals itself (`beq_self`). A number that
is an integer is the number nearest to that integer (`eq_ofInt`), with one
exception: the negative zero is not the zero, but it equals it. So an integer
number equals the number nearest to its integer in any case (`ofInt_beq`).

A difference is finite only if both numbers are, and the size of what is not
finite is below no limit. So what is not finite is near to nothing, not even to
itself (`not_near`).
-/

set_option autoImplicit false

namespace Calculator.Binary64

open Float.Model (Format UnpackedFloat)

/-- What is a number compares to itself as equal. -/
theorem compare_self {u : UnpackedFloat} (number : u ≠ .notANumber) :
    u.compare u = some .eq := by
  cases u with
  | infinity sign => cases sign <;> rfl
  | notANumber => exact absurd rfl number
  | zero sign => rfl
  | finite sign mantissa exponent positive =>
      have same : (compare exponent exponent).then (compare mantissa mantissa) = .eq := by
        rw [compare_eq_iff_eq.2 rfl, compare_eq_iff_eq.2 rfl]
        rfl
      cases sign with
      | positive => exact congrArg some same
      | negative => exact congrArg (fun order => some order.swap) same

/-- What the word of a number stands for is finite exactly if its pattern is below infinity. -/
theorem isFinite_unpack (x : Float) :
    (UnpackedFloat.unpack Format.binary64 x.toBits.toBitVec).isFinite = isFinite x := by
  have full : exponentField x.toBits.toBitVec = -1#11 ↔ infinityPattern ≤ pattern x := by
    have exponent := toNat_exponentField x.toBits.toBitVec
    have all : (-1#11 : BitVec 11).toNat = 2047 := by decide
    have bits : x.toBits.toBitVec.toNat = word x := rfl
    rw [bits] at exponent
    rw [← BitVec.toNat_inj, exponent, all, pattern, infinityPattern]
    omega
  rw [UnpackedFloat.unpack]
  by_cases far : infinityPattern ≤ pattern x
  · have infinite : isFinite x = false := decide_eq_false (Nat.not_lt.2 far)
    simp only [if_pos (full.2 far), infinite]
    split <;> rfl
  · have finite : isFinite x = true := decide_eq_true (Nat.not_le.1 far)
    simp only [if_neg (mt full.1 far), finite]
    split
    · split <;> rfl
    · rfl

/-- A finite number is a number. -/
theorem unpack_ne_notANumber {x : Float} (finite : isFinite x = true) :
    UnpackedFloat.unpack Format.binary64 x.toBits.toBitVec ≠ .notANumber := by
  intro missing
  have number := isFinite_unpack x
  rw [missing, finite] at number
  cases number

/-- A finite number equals itself. -/
theorem beq_self {x : Float} (finite : isFinite x = true) : (x == x) = true := by
  have same := compare_self (unpack_ne_notANumber finite)
  change (UnpackedFloat.compare (.unpack Format.binary64 x.toBits.toBitVec)
    (.unpack Format.binary64 x.toBits.toBitVec) == some .eq) = true
  rw [same]
  rfl

/-! ## Integers -/

theorem isFinite_of_toInteger? {x : Float} {n : Int} (integer : toInteger? x = some n) :
    isFinite x = true :=
  decide_eq_true (toInteger?_eq_some_iff.1 integer).1

/-- The sign bit of an integer number is the sign of the integer, except for the negative zero. -/
theorem isNegative_of_toInteger? {x : Float} {n : Int} (integer : toInteger? x = some n)
    (signed : n ≠ 0 ∨ isNegative x = false) : isNegative x = decide (n < 0) := by
  obtain ⟨-, -, sign⟩ := toInteger?_eq_some_iff.1 integer
  rw [withSignOf] at sign
  cases held : isNegative x with
  | true =>
      rw [if_pos held] at sign
      have nonzero : n ≠ 0 := by simpa [held] using signed
      exact (decide_eq_true (by omega)).symm
  | false =>
      rw [if_neg (by simp [held])] at sign
      exact (decide_eq_false (by omega)).symm

/-- An integer number is the number nearest to its integer, unless it is the negative zero. -/
theorem eq_ofInt {x : Float} {n : Int} (integer : toInteger? x = some n)
    (signed : n ≠ 0 ∨ isNegative x = false) : x = ofInt n := by
  obtain ⟨finite, whole, -⟩ := toInteger?_eq_some_iff.1 integer
  rw [ofInt, nearest_of_units finite whole, ← isNegative_of_toInteger? integer signed,
    ofPattern_pattern]

/-- The number nearest to the integer of a number equals that number. -/
theorem ofInt_beq {x : Float} {n : Int} (integer : toInteger? x = some n) :
    (ofInt n == x) = true := by
  have finite := isFinite_of_toInteger? integer
  by_cases signed : n ≠ 0 ∨ isNegative x = false
  · rw [← eq_ofInt integer signed]
    exact beq_self finite
  · obtain ⟨rfl, negative⟩ : n = 0 ∧ isNegative x = true := by simpa using signed
    -- A zero whose sign bit is set is the negative zero.
    obtain ⟨below, whole, -⟩ := toInteger?_eq_some_iff.1 integer
    have bits : pattern x = 0 := by
      have nearest := nearest_of_units below whole
      rw [← nearest]
      decide +kernel
    have zero : x = ofPattern true 0 := by rw [← ofPattern_pattern x, negative, bits]
    rw [zero]
    decide +kernel

/-! ## Numbers near to each other -/

/-- A difference is not finite if one of its two numbers is not. -/
theorem isFinite_sub {u v : UnpackedFloat} (far : u.isFinite = false ∨ v.isFinite = false) :
    (UnpackedFloat.sub Format.binary64 u v).isFinite = false := by
  cases u with
  | notANumber => rfl
  | infinity sign =>
      cases v with
      | infinity other =>
          rw [UnpackedFloat.sub]
          split
          · rfl
          · rfl
      | notANumber | zero _ | finite _ _ _ _ => rfl
  | zero _ | finite _ _ _ _ =>
      obtain left | right := far
      · cases left
      · cases v with
        | notANumber | infinity _ => rfl
        | zero _ | finite _ _ _ _ => cases right

/-- What is not finite is stored as it is. -/
theorem unpack_pack_of_not_finite {u : UnpackedFloat} (far : u.isFinite = false) :
    UnpackedFloat.unpack Format.binary64 (UnpackedFloat.pack Format.binary64 u) = u := by
  cases u with
  | notANumber => rfl
  | infinity sign => cases sign <;> rfl
  | zero _ | finite _ _ _ _ => cases far

/-- The size of what is not finite is not finite, and below nothing. -/
theorem abs_of_not_finite {u : UnpackedFloat} (far : u.isFinite = false) :
    u.abs.isFinite = false ∧ ∀ v, u.abs.lt v = false := by
  cases u with
  | notANumber => exact ⟨rfl, fun _ => rfl⟩
  | infinity sign =>
      refine ⟨rfl, fun v => ?_⟩
      cases v with
      | infinity other => cases other <;> rfl
      | notANumber | zero _ | finite _ _ _ _ => rfl
  | zero _ | finite _ _ _ _ => cases far

/-- What is not finite is within no distance of anything. -/
theorem not_near {x y : Float} (far : isFinite x = false ∨ isFinite y = false) (limit : Float) :
    ¬ (x - y).abs < limit := by
  have endless := isFinite_sub
    (far.imp (isFinite_unpack x).trans (isFinite_unpack y).trans)
  generalize difference_eq : UnpackedFloat.sub Format.binary64 _ _ = difference at endless
  obtain ⟨large, above⟩ := abs_of_not_finite endless
  have stored : (x - y).toModel.unpack = difference := by
    rw [← unpack_pack_of_not_finite endless, ← difference_eq]
    rfl
  have size : (x - y).abs.toModel.unpack = difference.abs := by
    rw [← unpack_pack_of_not_finite large, ← stored]
    rfl
  intro below
  have held : UnpackedFloat.lt (x - y).abs.toModel.unpack limit.toModel.unpack = true :=
    of_decide_eq_true below
  rw [size, above] at held
  cases held

end Calculator.Binary64
