import Calculator.Proofs.Binary64.Integers
import Calculator.Proofs.Numeral.Digits
import Calculator.Proofs.Token.Pieces
import Calculator.Proofs.Token.Tiling
import Calculator.Value.Display

/-!
# Bit patterns are read back

A text in a base other than ten has the mark of the base (`digits?`), and its
digits denote a 64-bit pattern (`pattern?`). The same pattern is what its value
as a literal comes from (`value?_of_digits?`), so writer and reader meet in one
statement: the text of a pattern denotes that pattern (`pattern?_patternText`).

**From a number.** A whole number in the signed 64-bit range is shown as the text
of its two's complement. That text is one literal, which continues to its end
(`reads_patternText`), and it stands for the same number: the integer of the
pattern is a number already, so it is not rounded.

**From a literal.** The integer of a literal is rounded, but not up to `2 ^ 53`.
Then the value of the literal is shown with the pattern of the literal.

Both are stated in `display_reads_back`.
-/

set_option autoImplicit false

namespace Calculator

/-! ## Literals on their own -/

namespace Literal

/-- A literal extends over letters and digits up to the end of the text. -/
theorem extent_of_all {text : List Char} (continues : ∀ c ∈ text, isLiteralChar c = true)
    (signed : Bool) : extent signed text = text.length := by
  induction text using extent.induct signed with
  | case1 => rfl
  | case2 c literal => rw [extent, if_pos literal, List.length_singleton]
  | case3 c stops => exact absurd (continues c (by simp)) stops
  | case4 c next rest stops => simp [continues c (by simp)] at stops
  | case5 c next rest _ signedMark _ =>
      -- A sign continues no literal on its own, so none stands after an exponent mark.
      have literal : isLiteralChar next = true := continues next (by simp)
      simp only [isSign, Bool.and_eq_true, Bool.or_eq_true, beq_iff_eq] at signedMark
      rcases signedMark.2 with rfl | rfl
      · exact absurd literal (by decide)
      · exact absurd literal (by decide)
  | case6 c next rest literal unmarked ih =>
      rw [extent, if_neg literal, if_neg unmarked, ih fun c member =>
        continues c (List.mem_cons_of_mem _ member)]
      rfl

end Literal

namespace Lexeme

/-- A text is read as a single number. -/
def Reads (text : String) (value : Float) : Prop :=
  ofText text = .ok [⟨.number value, text, 0⟩, ⟨.endOfText, "", text.utf8ByteSize⟩]

/-- A literal that is the whole text is read as its value. -/
theorem reads_literal {first : Char} {rest : List Char} {value : Float}
    (digit : first.isDigit = true) (continues : ∀ c ∈ rest, Literal.isLiteralChar c = true)
    (read : Literal.value? (first :: rest) = some value) :
    Reads (String.ofList (first :: rest)) value := by
  have scanned : Scan.ofText first rest = ⟨rest.length, some (.number value)⟩ := by
    rw [Scan.ofText, if_pos (by simp [digit]), Scan.literal]
    simp [Literal.extent_of_all continues, read]
  have piece : pieceText first rest = first :: rest := by
    rw [pieceText, scanned, List.take_length]
  have after : afterPiece first rest = [] := by
    rw [afterPiece, scanned, List.drop_length]
  have ends : Text.byteLength (first :: rest) = (String.ofList (first :: rest)).utf8ByteSize := by
    rw [Text.utf8ByteSize_eq, String.toList_ofList]
  rw [Reads, ofText, String.toList_ofList, ofChars_piece_eq_ok_iff
    (isSeparator_eq_false (large_of_isDigit digit)), piece, after, ofChars, Nat.zero_add, ends]
  exact ⟨.number value, _, by rw [scanned], rfl, rfl⟩

/-- A piece that is a number is a literal with that value. -/
theorem value?_pieceText {first : Char} {rest : List Char} {value : Float}
    (number : (Scan.ofText first rest).token? = some (.number value)) :
    Literal.value? (pieceText first rest) = some value := by
  rw [pieceText]
  rw [Scan.ofText] at number ⊢
  split
  case isTrue starts =>
    rw [if_pos starts] at number
    simpa [Scan.literal] using number
  case isFalse starts =>
    rw [if_neg starts] at number
    split at number
    · simp [Scan.name] at number
    · rw [Scan.symbol.eq_def] at number
      split at number
      all_goals simp [Scan.operator, Scan.doubled, apply_ite] at number

/-- Every number among the lexemes of a text is the value of its own text. -/
theorem value?_of_mem {offset : Nat} {source : List Char} {lexemes : List Lexeme}
    (cut : ofChars offset source = .ok lexemes) {lexeme : Lexeme} {value : Float}
    (member : lexeme ∈ lexemes) (number : lexeme.token = .number value) :
    Literal.value? lexeme.text.toList = some value := by
  induction source using piece_induction generalizing offset lexemes with
  | empty =>
      rw [ofChars] at cut
      cases cut
      obtain rfl := List.mem_singleton.1 member
      cases number
  | separator c rest separates ih =>
      rw [ofChars_separator separates] at cut
      exact ih cut member
  | piece first rest plain ih =>
      obtain ⟨token, others, isToken, later, rfl⟩ := (ofChars_piece_eq_ok_iff plain).1 cut
      rcases List.mem_cons.1 member with rfl | behind
      · obtain rfl : token = .number value := number
        rw [String.toList_ofList]
        exact value?_pieceText isToken
      · exact ih later behind

end Lexeme

namespace Base

open Literal (signedOfBits)
open Binary64 (toInteger? ofInt)
open Lexeme (Reads)

/-! ## Patterns that texts denote -/

/-- The digits of a text with the mark of a base: they stand after `0b` or `0B`, after `0x` or
`0X`, or after a zero that another digit follows. -/
def digits? : Base → List Char → Option (List Char)
  | binary, '0' :: mark :: digits => if mark = 'b' ∨ mark = 'B' then some digits else none
  | octal, '0' :: first :: rest => if first.isDigit then some (first :: rest) else none
  | hexadecimal, '0' :: mark :: digits => if mark = 'x' ∨ mark = 'X' then some digits else none
  | _, _ => none

/-- The 64-bit pattern that a text in a base denotes. -/
def pattern? (base : Base) (text : List Char) : Option Nat :=
  ((digits? base text).bind (Numeral.read? base.radix)).filter (· < 2 ^ 64)

theorem pattern?_eq_some_iff {base : Base} {text : List Char} {bits : Nat} :
    pattern? base text = some bits ↔
      (∃ digits, digits? base text = some digits ∧ Numeral.read? base.radix digits = some bits) ∧
        bits < 2 ^ 64 := by
  rw [pattern?, Option.filter_eq_some_iff, Option.bind_eq_some_iff, decide_eq_true_eq]

/-- A literal with the mark of a base is read as a pattern in that base. -/
theorem value?_of_digits? {base : Base} {text digits : List Char}
    (marked : digits? base text = some digits) :
    Literal.value? text = Literal.patternValue? base.radix digits := by
  rw [digits?.eq_def] at marked
  split at marked
  case h_1 mark rest =>
    split at marked
    case isTrue isMark =>
      cases marked
      rcases isMark with rfl | rfl
      · rfl
      · rfl
    case isFalse => cases marked
  case h_2 first rest =>
    split at marked
    case isTrue digit =>
      cases marked
      -- The digit behind the zero is none of the other marks.
      have noMark : ∀ c : Char, c.isDigit = false → first ≠ c := by
        rintro c plain rfl
        exact absurd digit (by simp [plain])
      simp [Literal.value?, noMark, digit, radix]
    case isFalse => cases marked
  case h_3 mark rest =>
    split at marked
    case isTrue isMark =>
      cases marked
      rcases isMark with rfl | rfl
      · rfl
      · rfl
    case isFalse => cases marked
  case h_4 => cases marked

/-- The value of a literal that denotes a pattern is the number nearest to its integer. -/
theorem value?_of_pattern? {base : Base} {text : List Char} {bits : Nat}
    (denotes : pattern? base text = some bits) :
    Literal.value? text = some (ofInt (signedOfBits bits)) := by
  obtain ⟨⟨digits, marked, read⟩, bounded⟩ := pattern?_eq_some_iff.1 denotes
  rw [value?_of_digits? marked, Literal.patternValue?, read]
  simp only [if_pos bounded]

/-- A literal with the mark of a base denotes a pattern if it has a value. -/
theorem exists_pattern? {base : Base} {text : List Char} {value : Float}
    (marked : (digits? base text).isSome) (accepted : Literal.value? text = some value) :
    ∃ bits, pattern? base text = some bits ∧ value = ofInt (signedOfBits bits) := by
  obtain ⟨digits, isDigits⟩ := Option.isSome_iff_exists.1 marked
  rw [value?_of_digits? isDigits, Literal.patternValue?] at accepted
  cases read : Numeral.read? base.radix digits with
  | none => rw [read] at accepted; cases accepted
  | some bits =>
      simp only [read] at accepted
      split at accepted
      case isTrue bounded =>
        cases accepted
        exact ⟨bits, pattern?_eq_some_iff.2 ⟨⟨digits, isDigits, read⟩, bounded⟩, rfl⟩
      case isFalse => cases accepted

/-! ## Texts of patterns -/

theorem two_le_radix (base : Base) : 2 ≤ base.radix := by
  cases base <;> decide

theorem radix_le (base : Base) : base.radix ≤ 16 := by
  cases base <;> decide

/-- The digits of a pattern are those of its number, after a zero where a hexadecimal text would
have half a pair. -/
theorem exists_width (base : Base) (bits : Nat) (marked : base ≠ .decimal) :
    ∃ width, digits? base (base.patternText bits) =
      some (Numeral.writePadded base.radix width bits) := by
  have unpadded : ∀ radix, Numeral.writePadded radix 0 bits = Numeral.write radix bits := by
    simp [Numeral.writePadded]
  cases base with
  | binary => exact ⟨0, by rw [unpadded]; rfl⟩
  | octal =>
      obtain ⟨first, rest, written⟩ :=
        List.exists_cons_of_ne_nil (Numeral.write_ne_nil (by omega : 2 ≤ 8) bits)
      obtain ⟨digit, small, rfl⟩ := Numeral.exists_digit_of_mem_write (by omega : 2 ≤ 8) bits first
        (by simp [written])
      refine ⟨0, ?_⟩
      rw [unpadded]
      simp [patternText, digits?, radix, written, Numeral.isDigit_digitChar (by omega : digit < 10)]
  | decimal => exact absurd rfl marked
  | hexadecimal =>
      by_cases half : (Numeral.write 16 bits).length % 2 = 1
      · refine ⟨(Numeral.write 16 bits).length + 1, ?_⟩
        simp [patternText, digits?, radix, half, Numeral.writePadded]
      · refine ⟨0, ?_⟩
        rw [unpadded]
        simp [patternText, digits?, radix, half]

/-- The text of a pattern denotes that pattern. -/
theorem pattern?_patternText {base : Base} {bits : Nat} (marked : base ≠ .decimal)
    (bounded : bits < 2 ^ 64) : pattern? base (base.patternText bits) = some bits := by
  obtain ⟨width, digits⟩ := exists_width base bits marked
  exact pattern?_eq_some_iff.2 ⟨⟨_, digits,
    Numeral.read?_writePadded base.two_le_radix base.radix_le width bits⟩, bounded⟩

/-- The text of a pattern is a zero and then letters and digits. -/
theorem exists_patternText_eq {base : Base} (bits : Nat) (marked : base ≠ .decimal) :
    ∃ rest, base.patternText bits = '0' :: rest ∧
      ∀ c ∈ rest, Literal.isLiteralChar c = true := by
  have digits : ∀ c ∈ Numeral.write base.radix bits, Literal.isLiteralChar c = true := by
    intro c member
    have digit := Numeral.isDigitOf_of_mem_write base.two_le_radix base.radix_le member
    rw [Numeral.isDigitOf, Bool.and_eq_true] at digit
    simp [Literal.isLiteralChar, digit.1]
  cases base with
  | binary => exact ⟨_, rfl, List.forall_mem_cons.2 ⟨rfl, digits⟩⟩
  | octal => exact ⟨_, rfl, digits⟩
  | decimal => exact absurd rfl marked
  | hexadecimal =>
      refine ⟨_, rfl, List.forall_mem_cons.2 ⟨rfl, ?_⟩⟩
      split
      · exact List.forall_mem_cons.2 ⟨rfl, digits⟩
      · exact digits

/-- The text of a pattern is read as the number nearest to its integer. -/
theorem reads_patternText {base : Base} {bits : Nat} (marked : base ≠ .decimal)
    (bounded : bits < 2 ^ 64) :
    Reads (String.ofList (base.patternText bits)) (ofInt (signedOfBits bits)) := by
  have value := value?_of_pattern? (pattern?_patternText marked bounded)
  obtain ⟨rest, spelled, continues⟩ := exists_patternText_eq bits marked
  rw [spelled] at value ⊢
  exact Lexeme.reads_literal rfl continues value

/-! ## Two's complement -/

/-- The pattern of an integer. -/
def patternOf (n : Int) : Nat := (n % 2 ^ 64).toNat

theorem patternOf_lt (n : Int) : patternOf n < 2 ^ 64 := by
  rw [patternOf]
  omega

theorem signedOfBits_patternOf {n : Int} (low : -2 ^ 63 ≤ n) (high : n < 2 ^ 63) :
    signedOfBits (patternOf n) = n := by
  rw [signedOfBits, patternOf]
  split
  · omega
  · omega

theorem patternOf_signedOfBits {bits : Nat} (bounded : bits < 2 ^ 64) :
    patternOf (signedOfBits bits) = bits := by
  rw [signedOfBits, patternOf]
  split
  · omega
  · omega

theorem signedOfBits_range {bits : Nat} (bounded : bits < 2 ^ 64) :
    -2 ^ 63 ≤ signedOfBits bits ∧ signedOfBits bits < 2 ^ 63 := by
  rw [signedOfBits]
  split
  · omega
  · omega

/-- A whole number in the signed range is shown as the text of its pattern. -/
theorem display_number {base : Base} (marked : base ≠ .decimal) {x : Float} {n : Int}
    (integer : toInteger? x = some n) (low : -2 ^ 63 ≤ n) (high : n < 2 ^ 63) :
    Value.display base (.number x) = String.ofList (base.patternText (patternOf n)) := by
  have fits : Integer.fits n = true := by
    rw [Integer.fits, Bool.and_eq_true, decide_eq_true_eq, decide_eq_true_eq]
    exact ⟨low, high⟩
  have shown : patternInteger? x = some n := by
    rw [patternInteger?, integer]
    exact Option.filter_eq_some_iff.2 ⟨rfl, fits⟩
  rw [Value.display, showNumber, shown]
  simp only [if_neg marked, patternOf]

/-! ## There and back -/

/-- A whole number in the signed 64-bit range is shown as a literal that stands for the same
number, and a literal for an integer up to `2 ^ 53` is shown as a text that denotes the same
pattern. -/
theorem display_reads_back (base : Base) :
    (base ≠ .decimal → ∀ x n, toInteger? x = some n → -2 ^ 63 ≤ n → n < 2 ^ 63 →
      ∃ value, Reads (Value.display base (.number x)) value ∧ toInteger? value = some n) ∧
    (∀ source lexemes lexeme x, Lexeme.ofText source = .ok lexemes → lexeme ∈ lexemes →
      lexeme.token = .number x → (digits? base lexeme.text.toList).isSome →
        ∃ bits, pattern? base lexeme.text.toList = some bits ∧
          ((signedOfBits bits).natAbs ≤ 2 ^ 53 →
            pattern? base (Value.display base (.number x)).toList = some bits)) := by
  constructor
  · intro marked x n integer low high
    refine ⟨ofInt n, ?_, Binary64.toInteger?_ofInt integer⟩
    have reads := reads_patternText marked (patternOf_lt n)
    rwa [signedOfBits_patternOf low high, ← display_number marked integer low high] at reads
  · intro source lexemes lexeme x cut member number isMarked
    obtain ⟨bits, denotes, rfl⟩ := exists_pattern? isMarked (Lexeme.value?_of_mem cut member number)
    refine ⟨bits, denotes, fun small => ?_⟩
    have marked : base ≠ .decimal := by
      rintro rfl
      cases isMarked
    have bounded : bits < 2 ^ 64 := (pattern?_eq_some_iff.1 denotes).2
    obtain ⟨low, high⟩ := signedOfBits_range bounded
    rw [display_number marked (Binary64.toInteger?_ofInt_of_small small) low high,
      patternOf_signedOfBits bounded, String.toList_ofList]
    exact pattern?_patternText marked bounded

/-- The least integer in octal is read back, and the literal for minus two in `1-0XfffffffffffffffE`
is shown with its own pattern. -/
theorem display_reads_back_negative :
    (∃ value, Reads (Value.display .octal (.number (ofInt (-2 ^ 63)))) value ∧
      toInteger? value = some (-2 ^ 63)) ∧
    pattern? .hexadecimal (Value.display .hexadecimal (.number (ofInt (-2)))).toList =
      some (2 ^ 64 - 2) := by
  have cut : Lexeme.ofText "1-0XfffffffffffffffE" = .ok [⟨.number 1, "1", 0⟩,
      ⟨.operator .sub, "-", 1⟩, ⟨.number (ofInt (-2)), "0XfffffffffffffffE", 2⟩,
      ⟨.endOfText, "", 20⟩] := by decide +kernel
  obtain ⟨bits, denotes, shown⟩ := (display_reads_back .hexadecimal).2 _ _ _ (ofInt (-2)) cut
    (List.mem_cons_of_mem _ (List.mem_cons_of_mem _ List.mem_cons_self)) rfl (by decide +kernel)
  obtain rfl : 2 ^ 64 - 2 = bits :=
    Option.some_inj.1 ((by decide +kernel : _ = some (2 ^ 64 - 2)).symm.trans denotes)
  exact ⟨(display_reads_back .octal).1 (by decide) _ _ (by decide +kernel) (by decide)
    (by decide), shown (by decide)⟩

end Base

end Calculator
