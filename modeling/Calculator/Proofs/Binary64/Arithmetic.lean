import Calculator.Proofs.Binary64.Comparison

/-!
# Laws of arithmetic that rounding keeps

Results of arithmetic are rounded, and most laws of exact arithmetic do not hold
of them. Two laws do, because both sides of them round the same exact result.

**Products.** Multiplication treats its two numbers alike: the signs multiply, the
mantissas multiply and the exponents add up before anything is rounded. So
products commute (`mul_comm`), also where a number is infinite or missing.

**Differences.** The exact difference of a finite number and itself is zero, and
zero is not rounded (`abs_sub_self`). So a finite number is within every positive
distance of itself (`near_self`), which nothing else is (`not_near`).
-/

set_option autoImplicit false

namespace Calculator.Binary64

open Float.Model (Format UnpackedFloat)
open Float.Model.UnpackedFloat (Sign)

/-! ## Products -/

theorem sign_mul_comm (s t : Sign) : s * t = t * s := by
  cases s <;> cases t <;> rfl

theorem unpacked_mul_comm (format : Format) (u v : UnpackedFloat) :
    u.mul format v = v.mul format u := by
  -- With an operand that is not finite or not positive in size only the signs are multiplied.
  cases u with
  | notANumber => cases v <;> rfl
  | infinity s =>
      cases v with
      | notANumber | zero _ => rfl
      | infinity t | finite t _ _ _ => exact congrArg UnpackedFloat.infinity (sign_mul_comm s t)
  | zero s =>
      cases v with
      | notANumber | infinity _ => rfl
      | zero t | finite t _ _ _ => exact congrArg UnpackedFloat.zero (sign_mul_comm s t)
  | finite s m e _ =>
      cases v with
      | notANumber => rfl
      | infinity t => exact congrArg UnpackedFloat.infinity (sign_mul_comm s t)
      | zero t => exact congrArg UnpackedFloat.zero (sign_mul_comm s t)
      | finite t n f _ =>
          change UnpackedFloat.roundWithAccuracy format (s * t) (m * n) (e + f) .exact =
            UnpackedFloat.roundWithAccuracy format (t * s) (n * m) (f + e) .exact
          rw [sign_mul_comm s t, Nat.mul_comm m n, Int.add_comm e f]

/-- Products of numbers commute. -/
protected theorem mul_comm (x y : Float) : x * y = y * x :=
  congrArg (fun product => (⟨.pack product⟩ : Float)) (unpacked_mul_comm Format.binary64 _ _)

/-! ## Differences -/

/-- The difference of what is finite and itself is a zero. -/
theorem unpacked_sub_self {u : UnpackedFloat} (finite : u.isFinite = true) :
    ∃ s, UnpackedFloat.sub Format.binary64 u u = .zero s := by
  cases u with
  | notANumber | infinity _ => cases finite
  | zero s => cases s <;> exact ⟨_, rfl⟩
  | finite s m e positive =>
      refine ⟨.positive, ?_⟩
      rw [UnpackedFloat.sub]
      simp only [sub_self]
      rfl

/-- A finite number is at distance zero from itself. -/
theorem abs_sub_self {x : Float} (finite : isFinite x = true) : (x - x).abs = 0.0 := by
  obtain ⟨s, zero⟩ := unpacked_sub_self ((isFinite_unpack x).trans finite)
  have difference : x - x = ⟨.pack (.zero s)⟩ :=
    congrArg (fun result => (⟨.pack result⟩ : Float)) zero
  rw [difference]
  cases s <;> decide +kernel

/-- A finite number is within every positive distance of itself. -/
theorem near_self {x limit : Float} (finite : isFinite x = true) (positive : 0.0 < limit) :
    (x - x).abs < limit := by
  rw [abs_sub_self finite]
  exact positive

end Calculator.Binary64
