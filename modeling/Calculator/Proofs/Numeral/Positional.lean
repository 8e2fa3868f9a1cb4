import Calculator.Proofs.Numeral.Digits
import Calculator.Token.Literal
import Mathlib.Data.List.TakeWhile

/-!
# Positional spellings are read back

The positional spelling of a decimal numeral is a run of digits, with a point
between two of them if the numeral has decimal places. It is read back as a
numeral with the same value (`read?_plain`): the same coefficient and exponent
if there are places, and otherwise the whole number with the exponent zero.

As a literal the spelling is decimal. A zero stands at its beginning only alone
or before the point (`Positional`), so it begins neither an octal literal nor a
radix mark (`value?_of_positional`), and it has no exponent mark before a sign,
so the literal ends where the spelling does (`extent_append`).
-/

set_option autoImplicit false

namespace Calculator

namespace Numeral

/-! ## A point between digits -/

/-- The decimal places of a number stand behind its point, and at least one digit before it. -/
theorem withPoint_eq {places : Nat} (positive : 0 < places) (n : Nat) :
    ∃ whole fraction, withPoint places n = whole ++ '.' :: fraction ∧
      whole ++ fraction = writePadded 10 (places + 1) n ∧ fraction.length = places ∧
      whole ≠ [] := by
  have long : places + 1 ≤ (writePadded 10 (places + 1) n).length := by
    simp only [writePadded, List.length_append, List.length_replicate]
    omega
  refine ⟨_, _, by rw [withPoint, if_neg (by omega)], List.take_append_drop _ _, ?_, ?_⟩
  · rw [List.length_drop]
    omega
  · rw [← List.length_pos_iff, List.length_take]
    omega

theorem isDigit_of_mem_writePadded {width n : Nat} {c : Char}
    (member : c ∈ writePadded 10 width n) : c.isDigit = true := by
  rcases List.mem_append.1 member with zeros | written
  · rw [(List.mem_replicate.1 zeros).2]
    rfl
  · exact isDigit_of_mem_write written

theorem valueOf_writePadded (width n : Nat) : valueOf 10 (writePadded 10 width n) = n := by
  rw [writePadded, valueOf_zeros, valueOf_write (by omega) (by omega)]

/-! ## Reading back -/

namespace Decimal

theorem read?_digits {digits : List Char} (nonempty : digits ≠ [])
    (allDigits : ∀ c ∈ digits, c.isDigit = true) :
    read? digits = some ⟨valueOf 10 digits, 0⟩ := by
  have taken : digits.takeWhile Char.isDigit = digits :=
    List.takeWhile_eq_self_iff.2 allDigits
  have dropped : digits.dropWhile Char.isDigit = [] :=
    List.dropWhile_eq_nil_iff.2 allDigits
  rw [read?, taken, dropped]
  simp [splitFraction, readExponent?, nonempty]

theorem read?_pointed {whole fraction : List Char} (nonempty : whole ≠ [])
    (wholeDigits : ∀ c ∈ whole, c.isDigit = true)
    (fractionDigits : ∀ c ∈ fraction, c.isDigit = true) :
    read? (whole ++ '.' :: fraction) =
      some ⟨valueOf 10 (whole ++ fraction), -fraction.length⟩ := by
  have taken : (whole ++ '.' :: fraction).takeWhile Char.isDigit = whole := by
    rw [List.takeWhile_append_of_pos wholeDigits]
    simp
  have dropped : (whole ++ '.' :: fraction).dropWhile Char.isDigit = '.' :: fraction := by
    rw [List.dropWhile_append_of_pos wholeDigits]
    simp
  have behind : splitFraction ('.' :: fraction) = (fraction, []) := by
    rw [splitFraction, List.takeWhile_eq_self_iff.2 fractionDigits,
      List.dropWhile_eq_nil_iff.2 fractionDigits]
  rw [read?, taken, dropped, behind]
  simp [readExponent?, nonempty]

/-- The spelling of a numeral is read back with the same value. -/
theorem read?_plain (d : Decimal) :
    read? d.plain =
      some (if 0 ≤ d.exponent then ⟨d.coefficient * 10 ^ d.exponent.toNat, 0⟩ else d) := by
  obtain ⟨coefficient, exponent⟩ := d
  by_cases integral : 0 ≤ exponent
  · rw [plain, if_pos integral, if_pos integral, read?_digits (write_ne_nil (by omega) _)
      (fun c member => isDigit_of_mem_write member), valueOf_write (by omega) (by omega)]
  · obtain ⟨whole, fraction, spelled, joined, places, nonempty⟩ :=
      withPoint_eq (by omega : 0 < (-exponent).toNat) coefficient
    have digits : ∀ c ∈ whole ++ fraction, c.isDigit = true := by
      rw [joined]
      exact fun c member => isDigit_of_mem_writePadded member
    rw [plain, if_neg integral, if_neg integral, spelled,
      read?_pointed nonempty (fun c member => digits c (List.mem_append_left _ member))
        (fun c member => digits c (List.mem_append_right _ member)),
      joined, valueOf_writePadded, places]
    congr 2
    omega

end Decimal

/-! ## Positional spellings as literals -/

/-- Digits and points that begin with a digit, and only a point directly after a zero at the
beginning. -/
structure Positional (text : List Char) : Prop where
  begins : ∃ first rest, text = first :: rest ∧ first.isDigit = true
  digits : ∀ c ∈ text, c.isDigit = true ∨ c = '.'
  leading : ∀ second rest, text = '0' :: second :: rest → second = '.'

theorem positional_write (n : Nat) : Positional (write 10 n) := by
  obtain ⟨first, rest, written⟩ := List.exists_cons_of_ne_nil (write_ne_nil (by omega : 2 ≤ 10) n)
  refine ⟨⟨first, rest, written, isDigit_of_mem_write (written ▸ List.mem_cons_self)⟩,
    fun c member => .inl (isDigit_of_mem_write member), fun second others zero => ?_⟩
  rcases Nat.eq_zero_or_pos n with rfl | positive
  · rw [write_of_lt (by omega)] at zero
    simp at zero
  · exact absurd (by rw [zero]; rfl) (head?_write_ne_zero (by omega : 2 ≤ 10) (by omega) positive)

theorem positional_withPoint {places : Nat} (positive : 0 < places) (n : Nat) :
    Positional (withPoint places n) := by
  obtain ⟨whole, fraction, spelled, joined, length, nonempty⟩ := withPoint_eq positive n
  have digits : ∀ c ∈ whole ++ fraction, c.isDigit = true := by
    rw [joined]
    exact fun c member => isDigit_of_mem_writePadded member
  obtain ⟨first, rest, rfl⟩ := List.exists_cons_of_ne_nil nonempty
  rw [spelled]
  refine ⟨⟨first, _, rfl, digits first (by simp)⟩, fun c member => ?_, fun second others zero => ?_⟩
  · rcases List.mem_append.1 member with before | after
    · exact .inl (digits c (List.mem_append_left _ before))
    · rcases List.mem_cons.1 after with point | after
      · exact .inr point
      · exact .inl (digits c (List.mem_append_right _ after))
  · cases rest with
    | nil =>
        rw [List.cons_append, List.nil_append] at zero
        exact (List.cons.inj (List.cons.inj zero).2).1.symm
    | cons next rest =>
        -- Two digits before the point leave no room for padding.
        exfalso
        obtain rfl : first = '0' := (List.cons.inj zero).1
        have unpadded : places + 1 - (write 10 n).length = 0 := by
          have total := congrArg List.length joined
          simp only [writePadded, List.length_append, List.length_replicate,
            List.length_cons] at total
          omega
        rw [writePadded, unpadded, List.replicate_zero, List.nil_append] at joined
        rcases Nat.eq_zero_or_pos n with rfl | nonzero
        · rw [write_of_lt (by omega)] at joined
          simp at joined
        · exact absurd (by rw [← joined]; rfl)
            (head?_write_ne_zero (by omega : 2 ≤ 10) (by omega) nonzero)

theorem Decimal.positional_plain (d : Decimal) : Positional d.plain := by
  rw [plain]
  split
  case isTrue => exact positional_write _
  case isFalse negative => exact positional_withPoint (by omega) _

end Numeral

namespace Literal

open Numeral (Positional)

/-- A positional spelling is read as a decimal literal. -/
theorem value?_of_positional {text : List Char} (positional : Positional text) :
    value? text = decimalValue? text := by
  rw [value?.eq_def]
  split
  case h_1 second rest =>
    obtain rfl := positional.leading second rest rfl
    rfl
  case h_2 => rfl

theorem isExponentMark_of_isDigit {c : Char} (digit : c.isDigit = true) :
    isExponentMark c = false := by
  rw [isExponentMark, Bool.or_eq_false_iff, beq_eq_false_iff_ne, beq_eq_false_iff_ne]
  constructor
  · rintro rfl
    cases digit
  · rintro rfl
    cases digit

/-- A literal extends over digits and points, up to what continues no literal. -/
theorem extent_append {text after : List Char} (digits : ∀ c ∈ text, c.isDigit = true ∨ c = '.')
    (closed : ∀ c ∈ after.head?, isLiteralChar c = false) (signed : Bool) :
    extent signed (text ++ after) = text.length := by
  induction text with
  | nil =>
      rcases after with _ | ⟨c, _ | ⟨next, rest⟩⟩
      · rfl
      · rw [List.nil_append, extent, closed c rfl]
        rfl
      · rw [List.nil_append, extent, closed c rfl]
        rfl
  | cons c text ih =>
      have continues : isLiteralChar c = true := by
        rcases digits c (by simp) with digit | rfl
        · simp [isLiteralChar, Char.isAlphanum, digit]
        · rfl
      have unmarked : isExponentMark c = false := by
        rcases digits c (by simp) with digit | rfl
        · exact isExponentMark_of_isDigit digit
        · rfl
      have later := ih fun c member => digits c (List.mem_cons_of_mem _ member)
      rw [List.cons_append, List.length_cons]
      cases behind : text ++ after with
      | nil =>
          rw [behind] at later
          simp [extent, continues, ← later]
      | cons next rest =>
          rw [behind] at later
          simp [extent, continues, unmarked, later]

end Literal

end Calculator
