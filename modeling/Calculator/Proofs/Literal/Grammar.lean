import Calculator.Proofs.Base.Literals
import Calculator.Proofs.Binary64.Overflow
import Mathlib

/-!
# What literals stand for

`Denotes` is the grammar of the literals with their values, said without a reader.
A pattern is a zero, the mark of its base and digits of the base, of a value below
`2 ^ 64`; leading zeros do not count, and it stands for what its 64 bits are as a
signed integer in two's complement. A decimal literal is a mantissa and an
optional exponent with a value below the limit of the finite numbers, and does not
begin with a zero before a digit. Exactly these texts have a value as a literal
(`value?_eq_some_iff`).

The reader of decimal numerals takes the longest runs of digits on both sides of a
point. The grammar takes any, but behind each run of digits comes a point, an
exponent mark or the end, so there is one way to do it (`read?_eq_some_iff`).
-/

set_option autoImplicit false

namespace Calculator

/-! ## Runs of digits -/

namespace Numeral

/-- Characters that are all digits from zero to nine. -/
def Digits (text : List Char) : Prop := ∀ c ∈ text, c.isDigit = true

/-- A class of characters is known if it is known for the first 128. -/
theorem ascii_cases {motive : Char → Prop} {c : Char} (ascii : c.toNat < 128)
    (known : ∀ n < 128, motive (Char.ofNat n)) : motive c := by
  rw [← Char.ofNat_toNat c]
  exact known _ ascii

theorem ascii_of_isAlphanum {c : Char} (alphanum : c.isAlphanum = true) : c.toNat < 128 := by
  simp [Char.isAlphanum, Char.isAlpha, Char.isUpper, Char.isLower, Char.isDigit,
    UInt32.le_iff_toNat_le] at alphanum
  have same : c.val.toNat = c.toNat := rfl
  omega

/-- The digits of the radix ten are the digits from zero to nine. -/
theorem isDigitOf_ten (c : Char) : isDigitOf 10 c = c.isDigit := by
  cases alphanum : c.isAlphanum with
  | true =>
      exact ascii_cases (motive := fun c => isDigitOf 10 c = c.isDigit)
        (ascii_of_isAlphanum alphanum) (by decide)
  | false =>
      rw [isDigitOf, alphanum, Bool.false_and]
      rw [Char.isAlphanum, Bool.or_eq_false_iff] at alphanum
      exact alphanum.2.symm

/-- Texts that are read in a radix are its digits, at least one of them. -/
theorem read?_eq_some_iff {radix n : Nat} {text : List Char} :
    read? radix text = some n ↔
      text ≠ [] ∧ (∀ c ∈ text, isDigitOf radix c = true) ∧ valueOf radix text = n := by
  rw [read?, Option.ite_none_left_eq_some, Bool.or_eq_true, not_or, List.isEmpty_iff,
    Bool.not_eq_true', Bool.not_eq_false, List.all_eq_true, Option.some_inj, and_assoc]

theorem read?_ten_eq_some_iff {n : Nat} {text : List Char} :
    read? 10 text = some n ↔ text ≠ [] ∧ Digits text ∧ valueOf 10 text = n := by
  simp only [read?_eq_some_iff, isDigitOf_ten, Digits]

/-- A text is a run of digits and what does not begin with a digit. -/
theorem exists_span (text : List Char) : ∃ digits rest, text = digits ++ rest ∧ Digits digits ∧
    ∀ c ∈ rest.head?, c.isDigit = false := by
  refine ⟨text.takeWhile Char.isDigit, text.dropWhile Char.isDigit,
    List.takeWhile_append_dropWhile.symm, fun c => List.mem_takeWhile_imp, fun c first => ?_⟩
  have stops := List.head?_dropWhile_not Char.isDigit text
  rwa [first] at stops

/-- A run of digits ends before the first other character. -/
theorem span_digits {digits rest : List Char} (isDigits : Digits digits)
    (closed : ∀ c ∈ rest.head?, c.isDigit = false) :
    (digits ++ rest).takeWhile Char.isDigit = digits ∧
      (digits ++ rest).dropWhile Char.isDigit = rest := by
  rw [List.takeWhile_append_of_pos isDigits, List.dropWhile_append_of_pos isDigits]
  cases rest with
  | nil => simp
  | cons c rest => simp [closed c rfl]

/-- Digits begin with no sign. -/
theorem Digits.ne_sign {digits : List Char} (isDigits : Digits digits) (rest : List Char) :
    digits ≠ '+' :: rest ∧ digits ≠ '-' :: rest := by
  constructor
  · rintro rfl
    exact absurd (isDigits '+' (by simp)) (by decide)
  · rintro rfl
    exact absurd (isDigits '-' (by simp)) (by decide)

/-! ## Decimal numerals -/

namespace Decimal

/-- A mantissa with its digits before and after the point: one or more digits alone, one or more
digits and a point with any digits behind it, or a point and one or more digits. -/
inductive Mantissa : List Char → List Char → List Char → Prop where
  | whole {digits : List Char} : digits ≠ [] → Digits digits → Mantissa digits digits []
  | pointed {digits places : List Char} : digits ≠ [] → Digits digits → Digits places →
      Mantissa (digits ++ '.' :: places) digits places
  | fraction {places : List Char} : places ≠ [] → Digits places → Mantissa ('.' :: places) [] places

/-- An optional exponent with its value: nothing, or an exponent mark, an optional sign and one or
more digits. -/
inductive Exponent : List Char → Int → Prop where
  | absent : Exponent [] 0
  | plain {mark : Char} {digits : List Char} : mark ∈ ['e', 'E'] → digits ≠ [] → Digits digits →
      Exponent (mark :: digits) (valueOf 10 digits)
  | plus {mark : Char} {digits : List Char} : mark ∈ ['e', 'E'] → digits ≠ [] → Digits digits →
      Exponent (mark :: '+' :: digits) (valueOf 10 digits)
  | minus {mark : Char} {digits : List Char} : mark ∈ ['e', 'E'] → digits ≠ [] → Digits digits →
      Exponent (mark :: '-' :: digits) (-valueOf 10 digits)

/-- A text spells a decimal numeral: a mantissa and an optional exponent. The digits of the mantissa
are the coefficient, and each digit behind the point lowers the exponent by one. -/
inductive Spells : List Char → Decimal → Prop where
  | intro {mantissa whole places scale : List Char} {n : Int} : Mantissa mantissa whole places →
      Exponent scale n →
      Spells (mantissa ++ scale) ⟨valueOf 10 (whole ++ places), n - places.length⟩

/-- Exactly the exponents of the grammar are read. -/
theorem readExponent?_eq_some_iff {text : List Char} {n : Int} :
    readExponent? text = some n ↔ Exponent text n := by
  constructor
  · intro read
    rw [readExponent?.eq_def] at read
    split at read
    case h_1 =>
      cases read
      exact .absent
    case h_2 mark rest =>
      split at read
      case isFalse => cases read
      case isTrue isMark =>
        have marked : mark ∈ ['e', 'E'] := by simpa using isMark
        split at read
        case h_1 digits =>
          obtain ⟨n, value, rfl⟩ := Option.map_eq_some_iff.1 read
          obtain ⟨nonempty, isDigits, rfl⟩ := read?_ten_eq_some_iff.1 value
          exact .plus marked nonempty isDigits
        case h_2 digits =>
          obtain ⟨n, value, rfl⟩ := Option.map_eq_some_iff.1 read
          obtain ⟨nonempty, isDigits, rfl⟩ := read?_ten_eq_some_iff.1 value
          exact .minus marked nonempty isDigits
        case h_3 =>
          obtain ⟨n, value, rfl⟩ := Option.map_eq_some_iff.1 read
          obtain ⟨nonempty, isDigits, rfl⟩ := read?_ten_eq_some_iff.1 value
          exact .plain marked nonempty isDigits
  · intro spelled
    cases spelled with
    | absent => rfl
    | plain mark nonempty isDigits =>
        have value := read?_ten_eq_some_iff.2 ⟨nonempty, isDigits, rfl⟩
        have noSign := isDigits.ne_sign
        simp [readExponent?, List.mem_pair.1 mark, value, noSign]
    | plus mark nonempty isDigits =>
        have value := read?_ten_eq_some_iff.2 ⟨nonempty, isDigits, rfl⟩
        simp [readExponent?, List.mem_pair.1 mark, value]
    | minus mark nonempty isDigits =>
        have value := read?_ten_eq_some_iff.2 ⟨nonempty, isDigits, rfl⟩
        simp [readExponent?, List.mem_pair.1 mark, value]

/-- Behind a mantissa comes an exponent mark or nothing, so no digit and no point. -/
theorem Exponent.closed {text : List Char} {n : Int} (spelled : Exponent text n) :
    ∀ c ∈ text.head?, c.isDigit = false ∧ c ≠ '.' := by
  have marks : ∀ c ∈ ['e', 'E'], c.isDigit = false ∧ c ≠ '.' :=
    List.forall_mem_cons.2 ⟨by decide, List.forall_mem_singleton.2 (by decide)⟩
  cases spelled with
  | absent => simp
  | plain mark _ _ => simpa using marks _ mark
  | plus mark _ _ => simpa using marks _ mark
  | minus mark _ _ => simpa using marks _ mark

theorem splitFraction_of_ne {text : List Char} (noPoint : ∀ c ∈ text.head?, c ≠ '.') :
    splitFraction text = ([], text) := by
  rw [splitFraction.eq_def]
  split
  case h_1 rest => exact absurd rfl (noPoint '.' rfl)
  case h_2 => rfl

theorem splitFraction_point {places rest : List Char} (isDigits : Digits places)
    (closed : ∀ c ∈ rest.head?, c.isDigit = false) :
    splitFraction ('.' :: (places ++ rest)) = (places, rest) := by
  obtain ⟨taken, dropped⟩ := span_digits isDigits closed
  rw [splitFraction, taken, dropped]

/-- What is read after the digits that a text begins with. -/
theorem read?_append_eq_some_iff {digits rest : List Char} {d : Decimal} (isDigits : Digits digits)
    (closed : ∀ c ∈ rest.head?, c.isDigit = false) :
    read? (digits ++ rest) = some d ↔ (digits ≠ [] ∨ (splitFraction rest).1 ≠ []) ∧
      ∃ n, Exponent (splitFraction rest).2 n ∧
        ⟨valueOf 10 (digits ++ (splitFraction rest).1), n - (splitFraction rest).1.length⟩ = d := by
  obtain ⟨taken, dropped⟩ := span_digits isDigits closed
  rw [read?, taken, dropped]
  simp only [Option.ite_none_left_eq_some, Bool.and_eq_true, List.isEmpty_iff, not_and_or,
    Option.map_eq_some_iff, readExponent?_eq_some_iff]

/-- Exactly the decimal numerals of the grammar are read. -/
theorem read?_eq_some_iff {text : List Char} {d : Decimal} :
    read? text = some d ↔ Spells text d := by
  constructor
  · intro read
    obtain ⟨digits, rest, rfl, isDigits, closed⟩ := exists_span text
    obtain ⟨anyDigit, n, scale, rfl⟩ := (read?_append_eq_some_iff isDigits closed).1 read
    by_cases point : ∃ more, rest = '.' :: more
    · obtain ⟨more, rfl⟩ := point
      obtain ⟨places, behind, rfl, isPlaces, closed⟩ := exists_span more
      rw [splitFraction_point isPlaces closed] at anyDigit scale ⊢
      cases digits with
      | nil =>
          have mantissa := Mantissa.fraction (by simpa using anyDigit) isPlaces
          rw [List.nil_append, ← List.cons_append]
          exact .intro mantissa scale
      | cons first others =>
          have mantissa := Mantissa.pointed (List.cons_ne_nil _ _) isDigits isPlaces
          rw [← List.cons_append, ← List.append_assoc]
          exact .intro mantissa scale
    · have noPoint : ∀ c ∈ rest.head?, c ≠ '.' := by
        rintro c first rfl
        obtain ⟨more, whole⟩ := List.head?_eq_some_iff.1 first
        exact point ⟨more, whole⟩
      rw [splitFraction_of_ne noPoint] at anyDigit scale ⊢
      exact .intro (.whole (by simpa using anyDigit) isDigits) scale
  · rintro ⟨mantissa, scale⟩
    have closed := scale.closed
    cases mantissa with
    | whole nonempty isDigits =>
        refine (read?_append_eq_some_iff isDigits fun c first => (closed c first).1).2 ?_
        rw [splitFraction_of_ne fun c first => (closed c first).2]
        exact ⟨.inl nonempty, _, scale, rfl⟩
    | pointed nonempty isDigits isPlaces =>
        rw [List.append_assoc, List.cons_append]
        refine (read?_append_eq_some_iff isDigits (by simp)).2 ?_
        rw [splitFraction_point isPlaces fun c first => (closed c first).1]
        exact ⟨.inl nonempty, _, scale, rfl⟩
    | fraction nonempty isPlaces =>
        have noDigits : Digits [] := List.forall_mem_nil _
        rw [List.cons_append, ← List.nil_append ('.' :: _)]
        refine (read?_append_eq_some_iff noDigits (by simp)).2 ?_
        rw [splitFraction_point isPlaces fun c first => (closed c first).1]
        exact ⟨.inr nonempty, _, scale, rfl⟩

end Decimal

end Numeral

/-! ## Patterns in a base -/

namespace Base

open Numeral (isDigitOf ascii_cases ascii_of_isAlphanum)

/-- The digits of a base, with letters of both cases. -/
def digitChars : Base → List Char
  | binary => ['0', '1']
  | octal => ['0', '1', '2', '3', '4', '5', '6', '7']
  | decimal => ['0', '1', '2', '3', '4', '5', '6', '7', '8', '9']
  | hexadecimal => ['0', '1', '2', '3', '4', '5', '6', '7', '8', '9', 'a', 'b', 'c', 'd', 'e', 'f',
      'A', 'B', 'C', 'D', 'E', 'F']

/-- What stands between the zero of a pattern and its digits. -/
def marks : Base → List (List Char)
  | binary => [['b'], ['B']]
  | octal => [[]]
  | decimal => []
  | hexadecimal => [['x'], ['X']]

theorem isAlphanum_of_mem_digitChars {base : Base} {c : Char} (member : c ∈ base.digitChars) :
    c.isAlphanum = true := by
  have all : base.digitChars.all Char.isAlphanum = true := by cases base <;> decide
  exact List.all_eq_true.1 all c member

/-- A character is a digit of a radix just if it is listed among those of the base. -/
theorem isDigitOf_iff (base : Base) (c : Char) :
    isDigitOf base.radix c = true ↔ c ∈ base.digitChars := by
  cases alphanum : c.isAlphanum with
  | true =>
      refine ascii_cases (motive := fun c => isDigitOf base.radix c = true ↔ c ∈ base.digitChars)
        (ascii_of_isAlphanum alphanum) ?_
      cases base <;> decide
  | false =>
      refine iff_of_false (by simp [isDigitOf, alphanum]) fun member => ?_
      rw [isAlphanum_of_mem_digitChars member] at alphanum
      cases alphanum

/-- Digits of a base behind its mark are taken apart from it. -/
theorem digits?_mark {base : Base} {mark digits : List Char} (isMark : mark ∈ base.marks)
    (nonempty : digits ≠ []) (isDigits : ∀ c ∈ digits, c ∈ base.digitChars) :
    digits? base ('0' :: (mark ++ digits)) = some digits := by
  cases base with
  | binary =>
      rcases List.mem_pair.1 isMark with rfl | rfl
      · rfl
      · rfl
  | octal =>
      obtain rfl := List.mem_singleton.1 isMark
      obtain ⟨first, rest, rfl⟩ := List.exists_cons_of_ne_nil nonempty
      have all : octal.digitChars.all Char.isDigit = true := by decide
      have digit : first.isDigit = true := List.all_eq_true.1 all first (isDigits first (by simp))
      rw [List.nil_append, digits?, if_pos digit]
  | decimal => cases isMark
  | hexadecimal =>
      rcases List.mem_pair.1 isMark with rfl | rfl
      · rfl
      · rfl

end Base

namespace Literal

open Numeral (Decimal valueOf)
open Binary64 (ofInt ofPattern)

/-- The literals with their values. A pattern in a base other than ten stands for the number nearest
to the signed integer of its 64 bits. -/
inductive Denotes : List Char → Float → Prop where
  | pattern {base : Base} {mark digits : List Char} : mark ∈ base.marks → digits ≠ [] →
      (∀ c ∈ digits, c ∈ base.digitChars) → valueOf base.radix digits < 2 ^ 64 →
      Denotes ('0' :: (mark ++ digits)) (ofInt (BitVec.ofNat 64 (valueOf base.radix digits)).toInt)
  | decimal {text : List Char} {d : Decimal} : Decimal.Spells text d →
      (∀ second rest, text = '0' :: second :: rest → second.isDigit = false) →
      d.value < Decimal.limit → Denotes text (ofPattern false d.pattern)

/-- The integer of a pattern is that of its bits in two's complement. -/
theorem signedOfBits_eq {bits : Nat} (bounded : bits < 2 ^ 64) :
    signedOfBits bits = (BitVec.ofNat 64 bits).toInt := by
  rw [signedOfBits, BitVec.toInt_eq_toNat_cond, BitVec.toNat_ofNat, Nat.mod_eq_of_lt bounded]
  split <;> split <;> omega

theorem patternValue?_eq_some_iff (base : Base) {digits : List Char} {value : Float} :
    patternValue? base.radix digits = some value ↔ digits ≠ [] ∧
      (∀ c ∈ digits, c ∈ base.digitChars) ∧ valueOf base.radix digits < 2 ^ 64 ∧
        ofInt (BitVec.ofNat 64 (valueOf base.radix digits)).toInt = value := by
  simp only [← base.isDigitOf_iff]
  rw [patternValue?]
  split
  case h_1 bits read =>
    obtain ⟨nonempty, isDigits, rfl⟩ := Numeral.read?_eq_some_iff.1 read
    rw [Option.ite_none_right_eq_some, Option.some_inj]
    constructor
    · rintro ⟨bounded, rfl⟩
      exact ⟨nonempty, isDigits, bounded, by rw [signedOfBits_eq bounded]⟩
    · rintro ⟨-, -, bounded, rfl⟩
      exact ⟨bounded, by rw [signedOfBits_eq bounded]⟩
  case h_2 unread =>
    refine iff_of_false (by simp) ?_
    rintro ⟨nonempty, isDigits, -⟩
    rw [Numeral.read?_eq_some_iff.2 ⟨nonempty, isDigits, rfl⟩] at unread
    cases unread

theorem decimalValue?_eq_some_iff {text : List Char} {value : Float} :
    decimalValue? text = some value ↔
      ∃ d, Decimal.Spells text d ∧ d.value < Decimal.limit ∧ ofPattern false d.pattern = value := by
  simp only [← Decimal.read?_eq_some_iff, ← Decimal.pattern_lt_infinity_iff]
  rw [decimalValue?]
  split
  case h_1 d read =>
    rw [Option.ite_none_right_eq_some, Option.some_inj, read]
    simp only [Option.some_inj, exists_eq_left']
  case h_2 unread =>
    rw [unread]
    simp

/-- A decimal numeral does not go on with the mark of a base after a single zero. -/
theorem not_spells_mark {mark : Char} {rest : List Char} {d : Decimal}
    (isMark : mark ∈ ['x', 'X', 'b', 'B']) : ¬ Decimal.Spells ('0' :: mark :: rest) d := by
  intro spells
  have read := Decimal.read?_eq_some_iff.2 spells
  simp only [List.mem_cons, List.not_mem_nil, or_false] at isMark
  rcases isMark with rfl | rfl | rfl | rfl
  · cases read
  · cases read
  · cases read
  · cases read

/-- Exactly the literals of the grammar have a value. -/
theorem value?_eq_some_iff {text : List Char} {value : Float} :
    value? text = some value ↔ Denotes text value := by
  constructor
  · intro read
    rw [value?.eq_def] at read
    split at read
    case h_1 mark rest =>
      split at read
      case isTrue isMark =>
        obtain ⟨nonempty, isDigits, bounded, rfl⟩ :=
          (patternValue?_eq_some_iff .hexadecimal).1 read
        have marked : [mark] ∈ Base.marks .hexadecimal := by simpa [Base.marks] using isMark
        exact .pattern marked nonempty isDigits bounded
      case isFalse =>
      split at read
      case isTrue isMark =>
        obtain ⟨nonempty, isDigits, bounded, rfl⟩ := (patternValue?_eq_some_iff .binary).1 read
        have marked : [mark] ∈ Base.marks .binary := by simpa [Base.marks] using isMark
        exact .pattern marked nonempty isDigits bounded
      case isFalse =>
      split at read
      case isTrue isDigit =>
        obtain ⟨nonempty, isDigits, bounded, rfl⟩ := (patternValue?_eq_some_iff .octal).1 read
        have marked : [] ∈ Base.marks .octal := List.mem_singleton.2 rfl
        exact .pattern marked nonempty isDigits bounded
      case isFalse noDigit =>
        obtain ⟨d, spells, finite, rfl⟩ := decimalValue?_eq_some_iff.1 read
        refine .decimal spells ?_ finite
        intro second others whole
        obtain ⟨rfl, -⟩ := List.cons.inj (List.cons.inj whole).2
        exact Bool.eq_false_iff.2 noDigit
    case h_2 other =>
      obtain ⟨d, spells, finite, rfl⟩ := decimalValue?_eq_some_iff.1 read
      exact .decimal spells (fun second rest whole => absurd whole (other second rest)) finite
  · intro denotes
    cases denotes with
    | @pattern base mark digits isMark nonempty isDigits bounded =>
        rw [Base.value?_of_digits? (Base.digits?_mark isMark nonempty isDigits)]
        exact (patternValue?_eq_some_iff base).2 ⟨nonempty, isDigits, bounded, rfl⟩
    | @decimal _ d spells noZero finite =>
        have decimal : decimalValue? text = some (ofPattern false d.pattern) :=
          decimalValue?_eq_some_iff.2 ⟨d, spells, finite, rfl⟩
        rw [value?.eq_def]
        split
        case h_1 mark rest =>
          have unmarked : mark ∉ ['x', 'X', 'b', 'B'] := fun isMark =>
            not_spells_mark isMark spells
          simp only [List.mem_cons, List.not_mem_nil, or_false, not_or] at unmarked
          obtain ⟨noX, noLargeX, noB, noLargeB⟩ := unmarked
          rw [if_neg (not_or.2 ⟨noX, noLargeX⟩), if_neg (not_or.2 ⟨noB, noLargeB⟩),
            if_neg (by simp [noZero mark rest rfl]), decimal]
        case h_2 => exact decimal

end Literal

end Calculator
