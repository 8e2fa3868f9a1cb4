import Calculator.Proofs.Binary64.Rounded

/-!
# Which integers are rounded up to a number above them

Below an integer `n` the integers that keep 53 binary digits stand `spacing n`
apart. If `n` is one of them, the integers below it are not rounded past it
(`rounded_le`), and those closer than half the spacing are rounded up to it. At
half the spacing it depends on which of the two neighbours is even
(`rounded_lt_iff`).

The spacing is that of the digits of `n - 1`. An integer with fewer digits is
below a power of two that is not rounded either, so it stays away from `n`.
-/

set_option autoImplicit false

namespace Calculator

namespace Numeral

/-- A quotient below an integer is rounded up to it if it is closer than a half, or at a half below
an even integer. -/
theorem roundHalfEven_lt_iff {num den q : Nat} (below : num < q * den) :
    roundHalfEven num den < q ↔
      den < 2 * (q * den - num) ∨ den = 2 * (q * den - num) ∧ q % 2 = 1 := by
  obtain ⟨r, rfl⟩ : ∃ r, q = r + 1 := Nat.exists_eq_succ_of_ne_zero fun zero => by
    rw [zero, Nat.zero_mul] at below
    exact Nat.not_lt_zero _ below
  have step : (r + 1) * den = r * den + den := Nat.succ_mul r den
  have half : (2 * r + 1) * den = 2 * (r * den) + den := by
    rw [Nat.add_mul, Nat.one_mul, Nat.mul_assoc]
  rcases Nat.lt_or_ge (2 * num) ((2 * r + 1) * den) with near | far
  · have kept := roundHalfEven_le_of_lt_half near
    omega
  · -- From the half on the quotient is `r`, and the remainder decides.
    have floor : num / den = r := Nat.div_eq_of_lt_le (by omega) below
    have whole : den * (num / den) + num % den = num := Nat.div_add_mod num den
    rw [floor, Nat.mul_comm] at whole
    simp only [roundHalfEven, floor]
    split
    case isTrue => omega
    case isFalse =>
      split
      case isTrue => omega
      case isFalse => omega

end Numeral

namespace Binary64

open Numeral

/-- How far apart the integers with 53 binary digits stand directly below an integer. -/
def spacing (n : Nat) : Nat := 2 ^ scaleOf (n - 1)

/-- An integer that keeps 53 binary digits is a multiple of the spacing below it. -/
theorem spacing_dvd {n steps exponent : Nat} (small : steps < 2 ^ 53)
    (value : n = steps * 2 ^ exponent) : spacing n ∣ n := by
  have enough : scaleOf (n - 1) ≤ exponent := by
    rcases Nat.lt_or_ge (n - 1).log2 53 with few | many
    · rw [scaleOf]
      omega
    · have low : 2 ^ (n - 1).log2 ≤ n - 1 := Nat.log2_self_le fun zero => by
        rw [zero] at many
        exact absurd many (by decide)
      have high : n < 2 ^ (53 + exponent) := by
        rw [value, Nat.pow_add]
        exact Nat.mul_lt_mul_of_pos_right small (Nat.two_pow_pos _)
      have digits : (n - 1).log2 < 53 + exponent :=
        (Nat.pow_lt_pow_iff_right (by decide : 1 < 2)).1 (by omega)
      rw [scaleOf]
      omega
  have tail : 2 ^ scaleOf (n - 1) ∣ steps * 2 ^ exponent :=
    Nat.dvd_mul_left_of_dvd (Nat.pow_dvd_pow 2 enough) steps
  rwa [← value] at tail

variable {n k : Nat}

/-- An integer below another one has the scale of its spacing, or stands below a power of two that
the spacing keeps away from it. -/
theorem scaleOf_of_lt (whole : spacing n ∣ n) (below : k < n) :
    scaleOf k = scaleOf (n - 1) ∨ ∃ places, k < 2 ^ places ∧ 2 ^ places + spacing n ≤ n := by
  have top : n - 1 < 2 ^ ((n - 1).log2 + 1) := Nat.lt_log2_self
  have digits : k < 2 ^ (k.log2 + 1) := Nat.lt_log2_self
  rcases Nat.lt_trichotomy k.log2 (n - 1).log2 with fewer | same | more
  · rcases Nat.lt_or_ge (n - 1).log2 53 with few | many
    · refine .inl ?_
      rw [scaleOf, scaleOf]
      omega
    · refine .inr ⟨(n - 1).log2, ?_, ?_⟩
      · exact Nat.lt_of_lt_of_le digits (Nat.pow_le_pow_right (by decide) fewer)
      · obtain ⟨places, value⟩ := Nat.exists_eq_add_of_le' many
        have low : 2 ^ (n - 1).log2 ≤ n - 1 := Nat.log2_self_le fun zero => by
          rw [zero] at many
          exact absurd many (by decide)
        have gap : spacing n = 2 ^ (places + 1) := by
          rw [spacing, scaleOf, value]
          rfl
        have power : 2 ^ (n - 1).log2 = 2 ^ 52 * spacing n := by
          rw [gap, value, ← Nat.pow_add]
          congr 1
          omega
        obtain ⟨q, multiple⟩ := whole
        have above : 2 ^ 52 < q := by
          refine Nat.lt_of_mul_lt_mul_left (a := spacing n) ?_
          rw [← multiple, Nat.mul_comm, ← power]
          omega
        calc 2 ^ (n - 1).log2 + spacing n
            = spacing n * (2 ^ 52 + 1) := by rw [power, Nat.mul_add, Nat.mul_one, Nat.mul_comm]
          _ ≤ spacing n * q := Nat.mul_le_mul_left _ above
          _ = n := multiple.symm
  · refine .inl ?_
    rw [scaleOf, scaleOf, same]
  · have low : 2 ^ k.log2 ≤ k := Nat.log2_self_le fun zero => by
      rw [zero] at more
      exact absurd more (Nat.not_lt_zero _)
    have power : 2 ^ ((n - 1).log2 + 1) ≤ 2 ^ k.log2 := Nat.pow_le_pow_right (by decide) more
    omega

/-- An integer below one that keeps 53 binary digits is not rounded past it. It stays below just if
it is further away than half the spacing, or at half the spacing below an odd multiple of it. -/
theorem rounded_lt_iff (whole : spacing n ∣ n) (below : k < n) :
    rounded k ≤ n ∧ (rounded k < n ↔
      spacing n < 2 * (n - k) ∨ spacing n = 2 * (n - k) ∧ n / spacing n % 2 = 1) := by
  rcases scaleOf_of_lt whole below with same | ⟨places, small, far⟩
  · have positive : 0 < spacing n := Nat.two_pow_pos _
    have scaled : rounded k = roundHalfEven k (spacing n) * spacing n := by
      rw [rounded, same, spacing]
    obtain ⟨q, multiple⟩ := whole
    rw [Nat.mul_comm] at multiple
    generalize spacing n = gap at positive scaled multiple ⊢
    subst multiple
    rw [scaled, Nat.mul_div_cancel _ positive]
    refine ⟨Nat.mul_le_mul_right _ (roundHalfEven_le positive (Nat.le_of_lt below)), ?_⟩
    rw [Nat.mul_lt_mul_right positive]
    exact roundHalfEven_lt_iff below
  · have kept : rounded k ≤ 2 ^ places := rounded_le_two_pow (Nat.le_of_lt small)
    have apart : 0 < spacing n := Nat.two_pow_pos _
    exact ⟨by omega, by omega⟩

end Binary64

end Calculator
