import Calculator.Binary64.Word
import Calculator.Numeral.Shortest
import Calculator.Proofs.Numeral.Positional

/-!
# The shortest decimal reads back

Rounding depends on a quotient alone, not on the terms it is written with
(`nearest_mul_mul`), so the pattern nearest to a decimal numeral does not change
when zeros move between coefficient and exponent (`pattern_shifted`,
`pattern_strip`). The value of a finite pattern is nearest to that pattern
(`nearest_units`).

The search for a shortest decimal tries neighbours on coarser and coarser grids
and keeps one that reads back. Whichever grid it ends on, and also when it ends
with the full expansion, the decimal found reads back as the pattern
(`pattern_shortest`). So the spelling of a finite number without its sign is a
literal with that number as its value (`value?_magnitudeText`).
-/

set_option autoImplicit false

namespace Calculator

open Binary64

/-! ## Rounding a quotient -/

theorem Numeral.roundHalfEven_mul_mul {factor : Nat} (positive : 0 < factor) (num den : Nat) :
    roundHalfEven (factor * num) (factor * den) = roundHalfEven num den := by
  have twice : 2 * (factor * num % (factor * den)) = factor * (2 * (num % den)) := by
    rw [Nat.mul_mod_mul_left, Nat.mul_left_comm]
  simp only [roundHalfEven, twice, Nat.mul_div_mul_left _ _ positive,
    Nat.mul_lt_mul_left positive]

namespace Binary64

open Numeral (roundHalfEven roundHalfEven_mul roundHalfEven_mul_mul)

/-- The nearest pattern depends on the quotient alone. -/
theorem nearest_mul_mul {factor : Nat} (positive : 0 < factor) (num den : Nat) :
    nearest (factor * num) (factor * den) = nearest num den := by
  simp only [nearest, Nat.mul_assoc, Nat.mul_div_mul_left _ _ positive,
    roundHalfEven_mul_mul positive]

/-! ## Values of patterns -/

theorem scaleOf_mul_pow {steps exponent : Nat} (small : steps < 2 ^ 53)
    (normal : exponent = 0 ∨ 2 ^ 52 ≤ steps) : scaleOf (steps * 2 ^ exponent) = exponent := by
  rcases Nat.eq_zero_or_pos steps with rfl | positive
  · rcases normal with rfl | full
    · rfl
    · omega
  · have nonzero : steps * 2 ^ exponent ≠ 0 :=
      Nat.ne_of_gt (Nat.mul_pos positive (Nat.two_pow_pos _))
    have below : (steps * 2 ^ exponent).log2 < 53 + exponent := by
      rw [Nat.log2_lt nonzero, Nat.pow_add]
      exact Nat.mul_lt_mul_of_pos_right small (Nat.two_pow_pos _)
    rcases normal with rfl | full
    · rw [scaleOf]
      omega
    · have above : 52 + exponent ≤ (steps * 2 ^ exponent).log2 := by
        rw [Nat.le_log2 nonzero, Nat.pow_add]
        exact Nat.mul_le_mul_right _ full
      rw [scaleOf]
      omega

theorem significand_lt (bits : Nat) : significand bits < 2 ^ 53 := by
  rw [significand, scale]
  omega

theorem normal_significand (bits : Nat) : scale bits = 0 ∨ 2 ^ 52 ≤ significand bits := by
  rw [significand, scale]
  omega

theorem unitsOfOne_pos : 0 < unitsOfOne := by decide +kernel

/-- The value of a finite pattern is nearest to that pattern. -/
theorem nearest_units {bits : Nat} (finite : bits < infinityPattern) :
    nearest (units bits) unitsOfOne = bits := by
  have exponent : scaleOf (units bits * unitsOfOne / unitsOfOne) = scale bits := by
    rw [Nat.mul_div_cancel _ unitsOfOne_pos]
    exact scaleOf_mul_pow (significand_lt bits) (normal_significand bits)
  have steps : roundHalfEven (units bits * unitsOfOne) (unitsOfOne * 2 ^ scale bits) =
      significand bits := by
    rw [units, Nat.mul_assoc, Nat.mul_comm (2 ^ scale bits)]
    exact roundHalfEven_mul _ _ (Nat.mul_pos unitsOfOne_pos (Nat.two_pow_pos _))
  have whole : scale bits * 2 ^ 52 + significand bits = bits := by
    rw [significand, scale]
    omega
  simp only [nearest, exponent, steps, whole]
  exact Nat.min_eq_left (Nat.le_of_lt finite)

theorem nearest_units_mul {bits factor den : Nat} (finite : bits < infinityPattern)
    (positive : 0 < factor) (scaled : den = factor * unitsOfOne) :
    nearest (units bits * factor) den = bits := by
  rw [scaled, Nat.mul_comm (units bits), nearest_mul_mul positive, nearest_units finite]

theorem units_pos {bits : Nat} (positive : 0 < bits) : 0 < units bits := by
  refine Nat.mul_pos ?_ (Nat.two_pow_pos _)
  rw [significand, scale]
  omega

theorem scale_le {bits : Nat} (finite : bits < infinityPattern) : scale bits ≤ 2045 := by
  rw [infinityPattern] at finite
  rw [scale]
  omega

/-- A value has fewer than `2 ^ 53` steps of any scale from its own on. -/
theorem units_lt {bits exponent : Nat} (bounded : scale bits ≤ exponent) :
    units bits < 2 ^ 53 * 2 ^ exponent := by
  calc units bits
      < 2 ^ 53 * 2 ^ scale bits :=
        Nat.mul_lt_mul_of_pos_right (significand_lt bits) (Nat.two_pow_pos _)
    _ ≤ 2 ^ 53 * 2 ^ exponent :=
        Nat.mul_le_mul_left _ (Nat.pow_le_pow_right (by omega) bounded)

end Binary64

namespace Numeral

/-! ## Decimals of the same value -/

theorem Decimal.pattern_ten_mul {coefficient : Nat} (positive : 0 < coefficient) (exponent : Int) :
    pattern ⟨10 * coefficient, exponent⟩ = pattern ⟨coefficient, exponent + 1⟩ := by
  have length : ((digitCount (10 * coefficient) : Nat) : Int) + exponent =
      digitCount coefficient + (exponent + 1) := by
    rw [digitCount_ten_mul positive]
    omega
  have value : (if 0 ≤ exponent then nearest (10 * coefficient * 10 ^ exponent.toNat) 1
        else nearest (10 * coefficient) (10 ^ (-exponent).toNat)) =
      if 0 ≤ exponent + 1 then nearest (coefficient * 10 ^ (exponent + 1).toNat) 1
        else nearest coefficient (10 ^ (-(exponent + 1)).toNat) := by
    by_cases integral : 0 ≤ exponent
    · have power : (exponent + 1).toNat = exponent.toNat + 1 := by omega
      rw [if_pos integral, if_pos (by omega), power, Nat.pow_succ, Nat.mul_comm 10, Nat.mul_assoc,
        Nat.mul_comm 10]
    · have places : (-exponent).toNat = (-(exponent + 1)).toNat + 1 := by omega
      rw [if_neg integral, places, Nat.pow_succ, Nat.mul_comm _ 10, nearest_mul_mul (by omega)]
      by_cases last : 0 ≤ exponent + 1
      · obtain rfl : exponent = -1 := by omega
        simp
      · rw [if_neg last]
  have nonzero : (10 * coefficient = 0) = (coefficient = 0) := by
    rw [Nat.mul_eq_zero]
    simp
  simp only [pattern, length, value, nonzero]

/-- Zeros may move between the coefficient and the exponent. -/
theorem Decimal.pattern_shifted (coefficient places : Nat) (exponent : Int) :
    pattern ⟨coefficient * 10 ^ places, exponent⟩ = pattern ⟨coefficient, exponent + places⟩ := by
  rcases Nat.eq_zero_or_pos coefficient with rfl | positive
  · simp [pattern]
  · induction places generalizing exponent with
    | zero => simp
    | succ places ih =>
        rw [Nat.pow_succ, ← Nat.mul_assoc, Nat.mul_comm _ 10,
          pattern_ten_mul (Nat.mul_pos positive (Nat.pow_pos (by omega))), ih]
        congr 2
        push_cast
        omega

theorem Decimal.pattern_strip (d : Decimal) : d.strip.pattern = d.pattern := by
  induction d using strip.induct with
  | case1 d trailing ih =>
      obtain ⟨coefficient, exponent⟩ := d
      have tens : 10 * (coefficient / 10) = coefficient := by
        have := trailing.2
        dsimp only at this
        omega
      have positive : 0 < coefficient / 10 := by
        have := trailing.1
        dsimp only at this
        omega
      rw [strip, dif_pos trailing, ih, ← pattern_ten_mul positive, tens]
  | case2 d whole => rw [strip, dif_neg whole]

/-- The spelling of a numeral is read back as one with the same nearest pattern. -/
theorem Decimal.read?_plain_same (d : Decimal) :
    ∃ same, read? d.plain = some same ∧ same.pattern = d.pattern := by
  obtain ⟨coefficient, exponent⟩ := d
  refine ⟨_, read?_plain _, ?_⟩
  split
  case isTrue integral =>
    rw [pattern_shifted, Int.zero_add, Int.toNat_of_nonneg integral]
  case isFalse => rfl

/-! ## The shortest decimal -/

/-- The full expansion of a finite pattern reads back. -/
theorem pattern_expansion {bits : Nat} (positive : 0 < bits) (finite : bits < infinityPattern) :
    (expansion bits).pattern = bits := by
  have nonzero : 0 < units bits * 5 ^ 1074 :=
    Nat.mul_pos (units_pos positive) (by decide +kernel)
  have short : digitCount (units bits * 5 ^ 1074) ≤ 1383 :=
    digitCount_mul_le (units_lt (scale_le finite)) (by decide +kernel) (by decide +kernel)
  have long : 750 < digitCount (units bits * 5 ^ 1074) :=
    lt_digitCount_mul (units_pos positive) (by decide +kernel)
  have quotient : nearest (units bits * 5 ^ 1074) (10 ^ 1074) = bits :=
    nearest_units_mul finite (by decide +kernel) (by decide +kernel)
  rw [expansion, Decimal.pattern_strip, Decimal.pattern]
  dsimp only
  have places : (-(-1074 : Int)).toNat = 1074 := rfl
  rw [if_neg (by omega), if_neg (by omega), if_neg (by omega), places, quotient]

theorem pattern_of_onGrid? {bits : Nat} {places : Int} {d : Decimal}
    (found : onGrid? bits places = some d) : d.pattern = bits := by
  unfold onGrid? at found
  extract_lets num den below lower upper lowerIsNearer at found
  split at found
  case isTrue reads =>
    obtain rfl := Option.some_inj.1 found
    exact reads.1
  case isFalse =>
    split at found
    case isTrue reads =>
      obtain rfl := Option.some_inj.1 found
      exact reads
    case isFalse => cases found

theorem pattern_searchGrids {bits : Nat} (positive : 0 < bits) (finite : bits < infinityPattern)
    (leading : Int) (attempts digits : Nat) :
    (searchGrids bits leading attempts digits).pattern = bits := by
  induction attempts generalizing digits with
  | zero => exact pattern_expansion positive finite
  | succ attempts ih =>
      rw [searchGrids]
      split
      case h_1 found => exact pattern_of_onGrid? found
      case h_2 => exact ih (digits + 1)

/-- The shortest decimal of a finite pattern reads back as that pattern. -/
theorem pattern_shortest {bits : Nat} (positive : 0 < bits) (finite : bits < infinityPattern) :
    (shortest bits).pattern = bits :=
  pattern_searchGrids positive finite _ 17 1

/-! ## Spellings as literals -/

/-- The spelling of a finite pattern. -/
def magnitudeText (bits : Nat) : List Char :=
  if bits = 0 then ['0'] else (shortest bits).plain

/-- A finite number is spelled as its pattern, with a minus before it if the sign bit is set. -/
theorem shortestText_of_isFinite {x : Float} (finite : isFinite x = true) :
    shortestText x =
      (if isNegative x then ['-'] else []) ++ magnitudeText (Binary64.pattern x) := by
  have below : Binary64.pattern x < infinityPattern := by simpa [isFinite] using finite
  have number : isNaN x = false := by simpa [isNaN] using below.le
  have bounded : isInfinite x = false := by simpa [isInfinite] using below.ne
  rw [shortestText, number, bounded, magnitudeText]
  by_cases zero : Binary64.pattern x = 0
  · rw [if_neg (by simp), if_neg (by simp), if_pos zero, if_pos zero]
  · rw [if_neg (by simp), if_neg (by simp), if_neg zero, if_neg zero]

theorem positional_magnitudeText (bits : Nat) : Positional (magnitudeText bits) := by
  rw [magnitudeText]
  split
  case isTrue => exact write_of_lt (by omega : 0 < 10) ▸ positional_write 0
  case isFalse => exact Decimal.positional_plain _

theorem read?_magnitudeText {bits : Nat} (finite : bits < infinityPattern) :
    ∃ d, Decimal.read? (magnitudeText bits) = some d ∧ d.pattern = bits := by
  rcases Nat.eq_zero_or_pos bits with rfl | positive
  · exact ⟨⟨0, 0⟩, rfl, by simp [Decimal.pattern]⟩
  · obtain ⟨d, read, same⟩ := (shortest bits).read?_plain_same
    rw [magnitudeText, if_neg (by omega)]
    exact ⟨d, read, same.trans (pattern_shortest positive finite)⟩

/-- The spelling of a finite pattern is a literal for the number with that pattern. -/
theorem value?_magnitudeText {bits : Nat} (finite : bits < infinityPattern) :
    Literal.value? (magnitudeText bits) = some (ofPattern false bits) := by
  obtain ⟨d, read, reads⟩ := read?_magnitudeText finite
  rw [Literal.value?_of_positional (positional_magnitudeText bits), Literal.decimalValue?, read]
  simp only [reads, if_pos finite]

end Numeral

end Calculator
