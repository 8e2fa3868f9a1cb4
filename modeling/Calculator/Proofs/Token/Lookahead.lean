import Calculator.Token.Lexer
import Mathlib.Data.List.TakeWhile

/-!
# How far a scan looks

A scan decides where a piece ends by the characters of the piece and the one or
two behind it, and those behind it count only by continuing the piece. So a text
that is cut off behind a piece, at once or later, begins with the same piece
(`ofText_take`).

The literals need a reason: the text that is left may no longer show the sign, the
digit or the radix mark that the scan asks for. Each of these would be a part of
the literal, so it is only missing if it was not there before.
-/

set_option autoImplicit false

namespace Calculator

namespace Literal

/-! ## Literals -/

/-- A character that is asked for only if it is a part of what is left. -/
theorem startsWith_take {class? : Char → Bool} {text : List Char} {n : Nat}
    (kept : startsWith class? text = true → 0 < n) :
    startsWith class? (text.take n) = startsWith class? text := by
  cases n with
  | zero =>
      have absent : startsWith class? text = false := by
        by_contra present
        exact absurd (kept (Bool.of_not_eq_false present)) (by omega)
      rw [absent]
      rfl
  | succ n => cases text with
      | nil => rfl
      | cons c rest => rfl

theorem isLiteralChar_of_isDigit {c : Char} (digit : c.isDigit = true) :
    isLiteralChar c = true := by
  simp [isLiteralChar, Char.isAlphanum, digit]

theorem isLiteralChar_of_isRadixMark {c : Char} (mark : isRadixMark c = true) :
    isLiteralChar c = true := by
  simp only [isRadixMark, Bool.or_eq_true, beq_iff_eq] at mark
  rcases mark with ((rfl | rfl) | rfl) | rfl
  · rfl
  · rfl
  · rfl
  · rfl

/-- A text that begins with a character of a literal continues one. -/
theorem extent_pos {class? : Char → Bool}
    (inside : ∀ c, class? c = true → isLiteralChar c = true) {text : List Char}
    (starts : startsWith class? text = true) (signed : Bool) : 0 < extent signed text := by
  rcases text with _ | ⟨c, _ | ⟨next, rest⟩⟩
  · cases starts
  · have continues : isLiteralChar c = true := inside c starts
    rw [extent, if_pos continues]
    omega
  · have continues : isLiteralChar c = true := inside c starts
    rw [extent, if_neg (by simp [continues])]
    split
    · omega
    · omega

/-- The extent of a literal is seen from the literal alone. -/
theorem extent_take {signed : Bool} {text : List Char} {n : Nat}
    (enough : extent signed text ≤ n) : extent signed (text.take n) = extent signed text := by
  induction text using extent.induct signed generalizing n with
  | case1 => rw [List.take_nil]
  | case2 c continues =>
      rw [extent, if_pos continues] at enough
      rw [List.take_of_length_le (by simpa using enough)]
  | case3 c stops =>
      cases n with
      | zero => simp [extent, stops]
      | succ n => simp [extent, stops]
  | case4 c next rest stops =>
      rcases n with _ | _ | n
      · simp [extent, stops]
      · simp_all [extent]
      · simp [extent, stops]
  | case5 c next rest continues mark ih =>
      have whole : ∀ later, extent signed (c :: next :: later) = extent signed later + 2 :=
        fun later => by rw [extent, if_neg continues, if_pos mark]
      rw [whole] at enough
      obtain ⟨n, rfl⟩ := Nat.exists_eq_add_of_le' (Nat.le_trans (Nat.le_add_left 2 _) enough)
      rw [List.take_succ_cons, List.take_succ_cons, whole, whole, ih (by omega)]
  | case6 c next rest continues unmarked ih =>
      have whole : ∀ later,
          extent signed (c :: next :: later) = extent signed (next :: later) + 1 :=
        fun later => by rw [extent, if_neg continues, if_neg unmarked]
      rw [whole] at enough
      rcases n with _ | _ | n
      · omega
      · -- A text that is cut off directly behind `c` has no further character to look at.
        have alone : extent signed (next :: rest) = 0 := by omega
        have literal : isLiteralChar c = true := by simpa using continues
        rw [whole, alone, List.take_succ_cons, List.take_zero, extent, if_pos literal]
      · have later := ih (n := n + 1) (by omega)
        rw [List.take_succ_cons] at later
        rw [whole, List.take_succ_cons, List.take_succ_cons, whole, later]

/-- The radix mark of a literal is a part of it. -/
theorem hasRadixMark_take {first : Char} {text : List Char} {n : Nat}
    (enough : extent (!hasRadixMark first text) text ≤ n) :
    hasRadixMark first (text.take n) = hasRadixMark first text := by
  rw [hasRadixMark, hasRadixMark, startsWith_take fun starts => Nat.lt_of_lt_of_le
    (extent_pos (fun c => isLiteralChar_of_isRadixMark) starts _) enough]

end Literal

namespace Scan

open Literal (startsWith startsWith_take)

/-! ## Pieces -/

theorem literal_take {first : Char} {text : List Char} {n : Nat}
    (enough : (literal first text).extra ≤ n) :
    literal first (text.take n) = literal first text := by
  have enough : Literal.extent (!Literal.hasRadixMark first text) text ≤ n := enough
  simp only [literal, Literal.hasRadixMark_take enough, Literal.extent_take enough, List.take_take,
    Nat.min_eq_left enough]

theorem name_take {first : Char} {text : List Char} {n : Nat}
    (enough : (name first text).extra ≤ n) : name first (text.take n) = name first text := by
  have enough : (text.takeWhile isNameChar).length ≤ n := enough
  have same : (text.take n).takeWhile isNameChar = text.takeWhile isNameChar := by
    rw [← List.take_takeWhile, List.take_of_length_le enough]
  simp only [name, same]

theorem doubled_take {mark : Char} {op : BinaryOperator} {text : List Char} {n : Nat}
    (enough : (doubled mark op text).extra ≤ n) :
    doubled mark op (text.take n) = doubled mark op text := by
  have same : startsWith (· == mark) (text.take n) = startsWith (· == mark) text := by
    refine startsWith_take fun starts => ?_
    rw [doubled, if_pos starts] at enough
    exact enough
  rw [doubled, doubled, same]

theorem symbol_take {first : Char} {text : List Char} {n : Nat}
    (enough : (symbol first text).extra ≤ n) : symbol first (text.take n) = symbol first text := by
  rw [symbol.eq_def, symbol.eq_def]
  split
  case h_10 => exact doubled_take enough
  case h_11 => exact doubled_take enough
  all_goals rfl

/-- A text that is cut off behind its first piece still begins with that piece. -/
theorem ofText_take {first : Char} {text : List Char} {n : Nat}
    (enough : (ofText first text).extra ≤ n) : ofText first (text.take n) = ofText first text := by
  have pointed : (first == '.' && startsWith Char.isDigit (text.take n)) =
      (first == '.' && startsWith Char.isDigit text) := by
    by_cases point : first = '.'
    · -- A digit behind a point is a part of the literal, so it is not cut off.
      rw [startsWith_take fun starts => ?_]
      rw [ofText, if_pos (by simp [point, starts])] at enough
      exact Nat.lt_of_lt_of_le
        (Literal.extent_pos (fun c => Literal.isLiteralChar_of_isDigit) starts _) enough
    · rw [beq_false_of_ne point]
      rfl
  rw [ofText] at enough
  rw [ofText, ofText, pointed]
  by_cases number : (first.isDigit || (first == '.' && startsWith Char.isDigit text)) = true
  · rw [if_pos number] at enough
    rw [if_pos number, if_pos number, literal_take enough]
  · rw [if_neg number] at enough
    rw [if_neg number, if_neg number]
    by_cases start : isNameStart first = true
    · rw [if_pos start] at enough
      rw [if_pos start, if_pos start, name_take enough]
    · rw [if_neg start] at enough
      rw [if_neg start, if_neg start, symbol_take enough]

end Scan

end Calculator
