import Calculator.Proofs.Literal.Reading
import Calculator.Proofs.Numeral.Significant

/-!
# The general form is the rounded value

Both forms have a mantissa: the digits with a point after the first of them, or the
positional spelling. Trimming drops the zeros at the end of its decimal places and
the point if no place is left, so a point that stays has a digit other than zero at
the end (`mantissa_trimmed`). The zeros that are dropped are made up for by the
places that go with them, so the value stays, and it is the digits at the scale
where the value was rounded.

The text is a run of characters that continue a literal, the sign of the exponent
included, because it directly follows the exponent mark and no radix mark stands at
the beginning (`GeneralForm.isRun`). It does not begin like an octal pattern
either. So the text of a positive number is read as one literal. It is a number if
the rounded value is below the limit of the finite numbers. Rounding up can take
the greatest numbers past that limit, and then the whole text is refused as one
malformed literal.
-/

set_option autoImplicit false

namespace Calculator.Numeral

open Binary64
open Decimal (Mantissa Exponent Spells)
open Literal (isLiteralChar isSign isLiteralChar_of_isDigit Follows RadixMarked IsRun LongestRun
  Denotes)

variable {whole fraction text : List Char}

/-! ## Trimming -/

theorem valueOf_append_zeros (radix : Nat) (digits : List Char) (zeros : Nat) :
    valueOf radix (digits ++ List.replicate zeros '0') = valueOf radix digits * radix ^ zeros := by
  induction zeros with
  | zero => simp
  | succ zeros ih =>
      rw [List.replicate_succ', ← List.append_assoc, valueOf_snoc, ih, Nat.pow_succ,
        show digitValue '0' = 0 from rfl, Nat.add_zero, Nat.mul_assoc]

/-- Every text is what is left of it without the zeros at its end, and those zeros. -/
theorem exists_trimmed (text : List Char) :
    ∃ kept zeros, text = kept ++ List.replicate zeros '0' ∧ kept.getLast? ≠ some '0' := by
  induction text using List.reverseRecOn with
  | nil => exact ⟨[], 0, rfl, by simp⟩
  | append_singleton text c ih =>
      by_cases zero : c = '0'
      · obtain ⟨kept, zeros, rfl, last⟩ := ih
        refine ⟨kept, zeros + 1, ?_, last⟩
        rw [zero, List.append_assoc, List.replicate_succ']
      · exact ⟨text ++ [c], 0, by simp, by simpa using zero⟩

theorem Digits.not_mem_point {digits : List Char} (isDigits : Digits digits) : '.' ∉ digits :=
  fun point => absurd (isDigits '.' point) (by decide)

/-- Digits without a point are not trimmed. -/
theorem trimFraction_digits {digits : List Char} (isDigits : Digits digits) :
    trimFraction digits = digits := by
  rw [trimFraction, if_neg]
  simpa using isDigits.not_mem_point

theorem dropWhile_of_getLast?_ne {kept : List Char} {c : Char} (last : kept.getLast? ≠ some c) :
    kept.reverse.dropWhile (· == c) = kept.reverse := by
  rw [← List.head?_reverse] at last
  cases behind : kept.reverse with
  | nil => rfl
  | cons first rest =>
      rw [behind, List.head?_cons, Ne, Option.some_inj] at last
      rw [List.dropWhile_cons_of_neg (by simpa using last)]

/-- The zeros behind the last other digit are dropped. -/
theorem trimFraction_pointed {kept : List Char} (zeros : Nat) (nonempty : kept ≠ [])
    (isDigits : Digits kept) (last : kept.getLast? ≠ some '0') :
    trimFraction (whole ++ '.' :: (kept ++ List.replicate zeros '0')) = whole ++ '.' :: kept := by
  have noPoint : (whole ++ '.' :: kept).getLast? ≠ some '.' := by
    intro point
    rw [List.getLast?_append_cons, List.getLast?_cons_of_ne_nil nonempty] at point
    exact isDigits.not_mem_point (List.mem_of_getLast? point)
  have noZero : (whole ++ '.' :: kept).getLast? ≠ some '0' := by
    rw [List.getLast?_append_cons, List.getLast?_cons_of_ne_nil nonempty]
    exact last
  have zerosBehind : (whole ++ '.' :: (kept ++ List.replicate zeros '0')).reverse =
      List.replicate zeros '0' ++ (whole ++ '.' :: kept).reverse := by
    simp
  rw [trimFraction, if_pos (by simp), zerosBehind, List.dropWhile_append_of_pos (by simp),
    dropWhile_of_getLast?_ne noZero, dropWhile_of_getLast?_ne noPoint, List.reverse_reverse]

/-- Without another digit behind it the point is dropped too. -/
theorem trimFraction_zeros (zeros : Nat) (isDigits : Digits whole) :
    trimFraction (whole ++ '.' :: List.replicate zeros '0') = whole := by
  have noPoint : whole.getLast? ≠ some '.' :=
    fun point => isDigits.not_mem_point (List.mem_of_getLast? point)
  have zerosBehind : (whole ++ '.' :: List.replicate zeros '0').reverse =
      List.replicate zeros '0' ++ '.' :: whole.reverse := by
    simp
  rw [trimFraction, if_pos (by simp), zerosBehind, List.dropWhile_append_of_pos (by simp),
    List.dropWhile_cons_of_neg (by decide), List.dropWhile_cons_of_pos (by decide),
    dropWhile_of_getLast?_ne noPoint, List.reverse_reverse]

/-- The digits before a point and the decimal places are written as they are if there are none,
and otherwise with a point between them. -/
def Pointed (whole fraction text : List Char) : Prop :=
  text = whole ∧ fraction = [] ∨ text = whole ++ '.' :: fraction

/-- A trimmed mantissa has the digits before the point and those decimal places that the dropped
zeros leave, and a point only before a last digit other than zero. -/
theorem mantissa_trimmed (pointed : Pointed whole fraction text) (nonempty : whole ≠ [])
    (isDigits : Digits (whole ++ fraction)) :
    ∃ kept zeros, fraction = kept ++ List.replicate zeros '0' ∧
      Mantissa (trimFraction text) whole kept ∧
      ('.' ∈ trimFraction text →
        ∀ last ∈ (trimFraction text).getLast?, last ≠ '0' ∧ last ≠ '.') := by
  have wholeDigits : Digits whole := fun c inside => isDigits c (List.mem_append_left _ inside)
  rcases pointed with ⟨rfl, rfl⟩ | rfl
  · rw [trimFraction_digits wholeDigits]
    exact ⟨[], 0, rfl, .whole nonempty wholeDigits,
      fun point => absurd point wholeDigits.not_mem_point⟩
  obtain ⟨kept, zeros, rfl, last⟩ := exists_trimmed fraction
  have keptDigits : Digits kept := fun c inside =>
    isDigits c (List.mem_append_right _ (List.mem_append_left _ inside))
  refine ⟨kept, zeros, rfl, ?_⟩
  by_cases empty : kept = []
  · subst empty
    rw [List.nil_append, trimFraction_zeros zeros wholeDigits]
    exact ⟨.whole nonempty wholeDigits, fun point => absurd point wholeDigits.not_mem_point⟩
  · rw [trimFraction_pointed zeros empty keptDigits last]
    refine ⟨.pointed nonempty wholeDigits keptDigits, fun _ c isLast => ?_⟩
    rw [List.getLast?_append_cons, List.getLast?_cons_of_ne_nil empty] at isLast
    constructor
    · rintro rfl
      exact last isLast
    · rintro rfl
      exact keptDigits.not_mem_point (List.mem_of_getLast? isLast)

/-! ## Mantissas before trimming -/

theorem length_write {n : Nat} (positive : 0 < n) : (write 10 n).length = digitCount n := by
  induction n using digit_induction (by decide : 2 ≤ 10) with
  | single digit small =>
      rw [write_of_lt small, digitCount_of_pos positive, Nat.div_eq_of_lt small, digitCount_zero]
      rfl
  | further n digit more small ih =>
      have front : (n * 10 + digit) / 10 = n := by omega
      rw [write_snoc (by decide) more small, List.length_append, ih more,
        digitCount_of_pos positive, front]
      rfl

/-- Numbers between two powers of ten are written with as many digits. -/
theorem length_write_of_bounds {n length : Nat} (low : 10 ^ length ≤ n)
    (high : n < 10 ^ (length + 1)) : (write 10 n).length = length + 1 := by
  have positive : 0 < n := Nat.lt_of_lt_of_le (Nat.pow_pos (by decide)) low
  have short := (digitCount_le_iff n (length + 1)).2 high
  have long : ¬ digitCount n ≤ length := by
    rw [digitCount_le_iff]
    omega
  rw [length_write positive]
  omega

/-- The first digit stands before the point of a mantissa, and the others behind it. -/
theorem pointed_mantissaText (n : Nat) :
    ∃ first fraction, Pointed [first] fraction (mantissaText n) ∧
      write 10 n = first :: fraction := by
  rw [mantissaText]
  obtain ⟨first, rest, written⟩ := List.exists_cons_of_ne_nil (write_ne_nil (by decide : 2 ≤ 10) n)
  rw [written]
  cases rest with
  | nil => exact ⟨first, [], .inl ⟨rfl, rfl⟩, rfl⟩
  | cons second rest => exact ⟨first, second :: rest, .inr rfl, rfl⟩

/-- The positional spelling has its places behind the point, and a zero before it only alone. -/
theorem pointed_withPoint (places n : Nat) :
    ∃ whole fraction, Pointed whole fraction (withPoint places n) ∧ whole ≠ [] ∧
      whole ++ fraction = writePadded 10 (places + 1) n ∧ fraction.length = places ∧
      ∀ rest, whole = '0' :: rest → rest = [] := by
  rcases Nat.eq_zero_or_pos places with rfl | positive
  · have unpadded : writePadded 10 (0 + 1) n = write 10 n := by
      have written := List.length_pos_iff.2 (write_ne_nil (by decide : 2 ≤ 10) n)
      rw [writePadded, show 0 + 1 - (write 10 n).length = 0 by omega]
      rfl
    rw [withPoint, if_pos rfl, unpadded]
    refine ⟨write 10 n, [], .inl ⟨rfl, rfl⟩, write_ne_nil (by decide) n, List.append_nil _, rfl, ?_⟩
    rintro (_ | ⟨second, rest⟩) zero
    · rfl
    · have member : second ∈ write 10 n := by simp [zero]
      have digit := isDigit_of_mem_write member
      rw [(positional_write n).leading second rest zero] at digit
      cases digit
  · obtain ⟨whole, fraction, spelled, joined, length, nonempty⟩ := withPoint_eq positive n
    refine ⟨whole, fraction, .inr spelled, nonempty, joined, length, ?_⟩
    rintro (_ | ⟨second, rest⟩) zero
    · rfl
    · have member : second ∈ writePadded 10 (places + 1) n := by simp [← joined, zero]
      have digit := isDigit_of_mem_writePadded member
      have point := (positional_withPoint positive n).leading second (rest ++ '.' :: fraction)
        (by rw [spelled, zero]; rfl)
      rw [point] at digit
      cases digit

/-! ## The form -/

/-- How a value that is rounded to a precision is spelled: a mantissa without superfluous zeros,
and an exponent if the first digit is out of range. -/
structure GeneralForm (precision : Nat) (rounded : ℚ) (leading : Int)
    (mantissa exponent : List Char) : Prop where
  denotes : ∃ d, Spells (mantissa ++ exponent) d ∧ d.value = rounded
  digits : ∃ whole places, Mantissa mantissa whole places ∧ whole ≠ [] ∧
    (∀ rest, whole = '0' :: rest → rest = []) ∧
    ((whole ++ places).dropWhile (· == '0')).length ≤ precision
  trimmed : '.' ∈ mantissa → ∀ last ∈ mantissa.getLast?, last ≠ '0' ∧ last ≠ '.'
  scientific : leading < -4 ∨ (precision : Int) ≤ leading →
    ∃ digits, exponent = 'e' :: (if leading < 0 then '-' else '+') :: digits ∧
      2 ≤ digits.length ∧ Digits digits ∧ valueOf 10 digits = leading.natAbs
  positional : ¬ (leading < -4 ∨ (precision : Int) ≤ leading) → exponent = []

/-- Zeros at the beginning are no significant digits. -/
theorem length_dropWhile_le {digits written : List Char} (zeros : Nat)
    (begins : digits <+: List.replicate zeros '0' ++ written) :
    (digits.dropWhile (· == '0')).length ≤ written.length := by
  induction zeros generalizing digits with
  | zero =>
      exact (List.dropWhile_suffix _).length_le.trans begins.length_le
  | succ zeros ih =>
      cases digits with
      | nil => exact Nat.zero_le _
      | cons first rest =>
          rw [List.replicate_succ, List.cons_append, List.cons_prefix_cons] at begins
          obtain ⟨rfl, behind⟩ := begins
          change (rest.dropWhile (· == '0')).length ≤ _
          exact ih behind

/-- A trimmed mantissa with an exponent spells what it did before trimming. -/
theorem spells_trimmed {mantissa kept exponent : List Char} {zeros : Nat} {n : Int}
    (spelled : Mantissa mantissa whole kept) (scale : Exponent exponent n)
    (dropped : fraction = kept ++ List.replicate zeros '0') :
    ∃ d, Spells (mantissa ++ exponent) d ∧
      d.value = valueOf 10 (whole ++ fraction) * 10 ^ (n - (fraction.length : Int)) := by
  refine ⟨_, .intro spelled scale, ?_⟩
  have places : (fraction.length : Int) = kept.length + zeros := by
    rw [dropped, List.length_append, List.length_replicate]
    push_cast
    rfl
  have power : (10 : ℚ) ^ (n - (kept.length : Int)) =
      10 ^ zeros * 10 ^ (n - (fraction.length : Int)) := by
    rw [← zpow_natCast, ← zpow_add₀ (by norm_num), places]
    congr 1
    omega
  rw [Decimal.value, dropped, ← List.append_assoc, valueOf_append_zeros, ← dropped, power,
    Nat.cast_mul, Nat.cast_pow, Nat.cast_ofNat, mul_assoc]

theorem exponent_exponentText (n : Int) :
    Exponent (exponentText n) n ∧
      ∃ digits, exponentText n = 'e' :: (if n < 0 then '-' else '+') :: digits ∧
        2 ≤ digits.length ∧ Digits digits ∧ valueOf 10 digits = n.natAbs := by
  have value : valueOf 10 (writePadded 10 2 n.natAbs) = n.natAbs := valueOf_writePadded 2 _
  have isDigits : Digits (writePadded 10 2 n.natAbs) := fun c => isDigit_of_mem_writePadded
  have long : 2 ≤ (writePadded 10 2 n.natAbs).length := by
    rw [writePadded, List.length_append, List.length_replicate]
    omega
  have nonempty : writePadded 10 2 n.natAbs ≠ [] := List.length_pos_iff.1 (by omega)
  have mark : 'e' ∈ ['e', 'E'] := List.mem_cons_self
  refine ⟨?_, _, rfl, long, isDigits, value⟩
  rw [exponentText]
  by_cases negative : n < 0
  · rw [if_pos negative]
    have spelled := Exponent.minus mark nonempty isDigits
    rwa [value, show -(n.natAbs : Int) = n by omega] at spelled
  · rw [if_neg negative]
    have spelled := Exponent.plus mark nonempty isDigits
    rwa [value, show (n.natAbs : Int) = n by omega] at spelled

/-- The general form of a quotient spells the quotient rounded to its significant digits. -/
theorem generalForm_generalDigits {num den precision : Nat} (nonzero : 0 < num)
    (positive : 0 < den) (precise : 0 < precision) :
    ∃ rounded leading mantissa exponent, RoundsTo (num / den) precision rounded leading ∧
      generalDigits num den precision = mantissa ++ exponent ∧
      GeneralForm precision rounded leading mantissa exponent := by
  have rounds := roundsTo_roundToDigits nonzero positive precise
  have again := roundToPlaces_leading nonzero positive precise
  obtain ⟨low, high⟩ := roundToDigits_digits nonzero positive precise
  rw [generalDigits]
  generalize roundToDigits num den precision = result at *
  obtain ⟨n, leading⟩ := result
  dsimp only at rounds again low high ⊢
  have length : (write 10 n).length = precision := by
    obtain ⟨fewer, rfl⟩ := Nat.exists_eq_succ_of_ne_zero (Nat.ne_of_gt precise)
    exact length_write_of_bounds low high
  by_cases far : leading < -4 ∨ (precision : Int) ≤ leading
  · obtain ⟨first, fraction, pointed, written⟩ := pointed_mantissaText n
    have isDigits : Digits ([first] ++ fraction) := by
      rw [List.singleton_append, ← written]
      exact fun c => isDigit_of_mem_write
    obtain ⟨scale, shape⟩ := exponent_exponentText leading
    obtain ⟨kept, zeros, dropped, spelled, trimmed⟩ :=
      mantissa_trimmed pointed (List.cons_ne_nil _ _) isDigits
    rw [if_pos far]
    refine ⟨_, leading, _, _, rounds, rfl, ⟨?_, ?_, trimmed, fun _ => shape, absurd far⟩⟩
    · obtain ⟨d, spells, worth⟩ := spells_trimmed spelled scale dropped
      refine ⟨d, spells, ?_⟩
      have places : leading - (fraction.length : Int) = leading + 1 - precision := by
        rw [written, List.length_cons] at length
        omega
      rw [worth, List.singleton_append, ← written, valueOf_write (by decide) (by decide), places]
    · refine ⟨[first], kept, spelled, List.cons_ne_nil _ _, by simp, ?_⟩
      rw [← length]
      refine length_dropWhile_le 0 ?_
      rw [List.replicate_zero, List.nil_append, written, dropped]
      exact ⟨List.replicate zeros '0', by simp⟩
  · obtain ⟨places, behind⟩ := Int.eq_ofNat_of_zero_le
      (by omega : 0 ≤ (precision : Int) - 1 - leading)
    rw [behind] at again
    rw [if_neg far, behind, Int.toNat_natCast, again]
    obtain ⟨whole, fraction, pointed, nonempty, joined, fractionLength, single⟩ :=
      pointed_withPoint places n
    have isDigits : Digits (whole ++ fraction) := by
      rw [joined]
      exact fun c => isDigit_of_mem_writePadded
    obtain ⟨kept, zeros, dropped, spelled, trimmed⟩ := mantissa_trimmed pointed nonempty isDigits
    refine ⟨_, leading, _, [], rounds, (List.append_nil _).symm,
      ⟨?_, ?_, trimmed, fun other => absurd other far, fun _ => rfl⟩⟩
    · obtain ⟨d, spells, worth⟩ := spells_trimmed spelled .absent dropped
      refine ⟨d, spells, ?_⟩
      have scale : 0 - (fraction.length : Int) = leading + 1 - precision := by
        rw [fractionLength]
        omega
      rw [worth, joined, valueOf_writePadded, scale]
    · refine ⟨whole, kept, spelled, nonempty, single, ?_⟩
      rw [← length]
      refine length_dropWhile_le (places + 1 - (write 10 n).length) ?_
      rw [← writePadded, ← joined, dropped]
      exact ⟨List.replicate zeros '0', by simp⟩

/-! ## The form as a literal -/

/-- Characters that continue a literal on their own may follow everything. -/
theorem isChain_of_literal {signed : Prop} {text : List Char} (previous : Char)
    (continues : ∀ c ∈ text, isLiteralChar c = true) :
    (previous :: text).IsChain (Follows signed) := by
  induction text generalizing previous with
  | nil => exact .singleton previous
  | cons c text ih =>
      exact .cons_cons (.inl (continues c List.mem_cons_self))
        (ih c fun other inside => continues other (List.mem_cons_of_mem _ inside))

theorem isLiteralChar_of_mem_mantissa {mantissa whole places : List Char}
    (spelled : Mantissa mantissa whole places) : ∀ c ∈ mantissa, isLiteralChar c = true := by
  have digit : ∀ {digits : List Char}, Digits digits → ∀ c ∈ digits, isLiteralChar c = true :=
    fun isDigits c inside => isLiteralChar_of_isDigit (isDigits c inside)
  have point : isLiteralChar '.' = true := rfl
  cases spelled with
  | whole _ isDigits => exact digit isDigits
  | pointed _ isDigits isPlaces =>
      exact List.forall_mem_append.2
        ⟨digit isDigits, List.forall_mem_cons.2 ⟨point, digit isPlaces⟩⟩
  | fraction _ isPlaces => exact List.forall_mem_cons.2 ⟨point, digit isPlaces⟩

/-- Behind the zero of a pattern comes the mark of its base or an octal digit. -/
theorem pattern_second {base : Base} {mark digits : List Char} (isMark : mark ∈ base.marks)
    (nonempty : digits ≠ []) (isDigits : ∀ c ∈ digits, c ∈ base.digitChars) :
    ∃ second rest, mark ++ digits = second :: rest ∧ second ≠ '.' ∧ second ≠ 'e' := by
  cases base with
  | binary =>
      rcases List.mem_pair.1 isMark with rfl | rfl
      · exact ⟨'b', digits, rfl, by decide, by decide⟩
      · exact ⟨'B', digits, rfl, by decide, by decide⟩
  | octal =>
      obtain rfl := List.mem_singleton.1 isMark
      obtain ⟨first, rest, rfl⟩ := List.exists_cons_of_ne_nil nonempty
      refine ⟨first, rest, rfl, ?_, ?_⟩
      · rintro rfl
        exact absurd (isDigits '.' List.mem_cons_self) (by decide)
      · rintro rfl
        exact absurd (isDigits 'e' List.mem_cons_self) (by decide)
  | decimal => cases isMark
  | hexadecimal =>
      rcases List.mem_pair.1 isMark with rfl | rfl
      · exact ⟨'x', digits, rfl, by decide, by decide⟩
      · exact ⟨'X', digits, rfl, by decide, by decide⟩

namespace GeneralForm

variable {precision : Nat} {rounded : ℚ} {leading : Int} {mantissa exponent : List Char}

/-- The exponent is missing, or a mark, a sign and digits. -/
theorem exponent_cases (form : GeneralForm precision rounded leading mantissa exponent) :
    exponent = [] ∨ ∃ sign digits, exponent = 'e' :: sign :: digits ∧ isSign sign = true ∧
      Digits digits := by
  by_cases far : leading < -4 ∨ (precision : Int) ≤ leading
  · obtain ⟨digits, shape, -, isDigits, -⟩ := form.scientific far
    refine .inr ⟨_, digits, shape, ?_, isDigits⟩
    split <;> rfl
  · exact .inl (form.positional far)

theorem begins (form : GeneralForm precision rounded leading mantissa exponent) :
    ∃ first rest, mantissa = first :: rest ∧ first.isDigit = true := by
  obtain ⟨whole, places, spelled, nonempty, -, -⟩ := form.digits
  cases spelled with
  | whole _ isDigits =>
      obtain ⟨first, rest, rfl⟩ := List.exists_cons_of_ne_nil nonempty
      exact ⟨first, rest, rfl, isDigits first List.mem_cons_self⟩
  | pointed _ isDigits _ =>
      obtain ⟨first, rest, rfl⟩ := List.exists_cons_of_ne_nil nonempty
      exact ⟨first, _, rfl, isDigits first List.mem_cons_self⟩
  | fraction => exact absurd rfl nonempty

/-- After a zero at the beginning comes the point or the exponent. -/
theorem second_of_zero (form : GeneralForm precision rounded leading mantissa exponent)
    {second : Char} {rest : List Char} (zero : mantissa ++ exponent = '0' :: second :: rest) :
    second = '.' ∨ second = 'e' := by
  obtain ⟨whole, places, spelled, nonempty, single, -⟩ := form.digits
  obtain ⟨first, more, rfl⟩ := List.exists_cons_of_ne_nil nonempty
  cases spelled with
  | whole _ _ =>
      obtain ⟨rfl, behind⟩ := List.cons.inj zero
      obtain rfl := single more rfl
      rcases form.exponent_cases with without | ⟨sign, digits, shape, -⟩
      · rw [without] at behind
        cases behind
      · rw [shape] at behind
        exact .inr (List.cons.inj behind).1.symm
  | pointed _ _ _ =>
      obtain ⟨rfl, behind⟩ := List.cons.inj zero
      obtain rfl := single more rfl
      exact .inl (List.cons.inj behind).1.symm

theorem not_radixMarked (form : GeneralForm precision rounded leading mantissa exponent) :
    ¬ RadixMarked (mantissa ++ exponent) := by
  rintro ⟨mark, rest, zero, isMark⟩
  rcases form.second_of_zero zero with rfl | rfl
  · exact absurd isMark (by decide)
  · exact absurd isMark (by decide)

/-- Every character of the form continues a literal. -/
theorem isRun (form : GeneralForm precision rounded leading mantissa exponent) :
    IsRun (mantissa ++ exponent) := by
  obtain ⟨first, rest, rfl, digit⟩ := form.begins
  obtain ⟨whole, places, spelled, -⟩ := form.digits
  have continues := isLiteralChar_of_mem_mantissa spelled
  constructor
  · intro c isHead
    obtain rfl : first = c := Option.some.inj isHead
    exact continues first List.mem_cons_self
  rw [List.isChain_append]
  refine ⟨isChain_of_literal first fun c inside => continues c (List.mem_cons_of_mem _ inside),
    ?_, ?_⟩
  · rcases form.exponent_cases with without | ⟨sign, digits, shape, isSign, isDigits⟩
    · rw [without]
      exact .nil
    · rw [shape]
      exact .cons_cons (.inr ⟨shape ▸ form.not_radixMarked, rfl, isSign⟩)
        (isChain_of_literal sign fun c inside => isLiteralChar_of_isDigit (isDigits c inside))
  · intro last _ c isHead
    rcases form.exponent_cases with without | ⟨sign, digits, shape, -⟩
    · rw [without] at isHead
      cases isHead
    · rw [shape] at isHead
      obtain rfl : 'e' = c := Option.some.inj isHead
      exact .inl rfl

theorem longestRun (form : GeneralForm precision rounded leading mantissa exponent) :
    LongestRun (mantissa ++ exponent) (mantissa ++ exponent) where
  begins := List.prefix_refl _
  isRun := form.isRun
  longest := fun _ isPrefix _ => isPrefix

/-- The form of a value below the limit is a literal. -/
theorem denotes_number (form : GeneralForm precision rounded leading mantissa exponent)
    (below : rounded < Decimal.limit) :
    ∃ d, Spells (mantissa ++ exponent) d ∧ d.value = rounded ∧
      Denotes (mantissa ++ exponent) (ofPattern false d.pattern) := by
  obtain ⟨d, spells, worth⟩ := form.denotes
  refine ⟨d, spells, worth, .decimal spells (fun second rest zero => ?_) (worth ▸ below)⟩
  rcases form.second_of_zero zero with rfl | rfl
  · rfl
  · rfl

/-- The form of a value from the limit on denotes no number. -/
theorem not_denotes (form : GeneralForm precision rounded leading mantissa exponent)
    (above : Decimal.limit ≤ rounded) (value : Float) :
    ¬ Denotes (mantissa ++ exponent) value := by
  obtain ⟨d, spells, worth⟩ := form.denotes
  generalize text_eq : mantissa ++ exponent = text at *
  intro denotes
  cases denotes with
  | @pattern base mark digits isMark nonempty isDigits _ =>
      obtain ⟨second, rest, behind, notPoint, notMark⟩ :=
        pattern_second isMark nonempty isDigits
      rcases form.second_of_zero (text_eq.trans (congrArg ('0' :: ·) behind)) with point | letter
      · exact notPoint point
      · exact notMark letter
  | @decimal _ other same _ small =>
      have unique : d = other :=
        Option.some.inj ((Decimal.read?_eq_some_iff.2 spells).symm.trans
          (Decimal.read?_eq_some_iff.2 same))
      rw [← unique, worth] at small
      exact absurd above (not_le_of_gt small)

/-- The form is read as one literal: as one number if the rounded value is below the limit, and
otherwise as one malformed literal. -/
theorem ofText (form : GeneralForm precision rounded leading mantissa exponent) :
    (rounded < Decimal.limit → ∃ d, Spells (mantissa ++ exponent) d ∧ d.value = rounded ∧
      Lexeme.ofText (String.ofList (mantissa ++ exponent)) =
        .ok [⟨.number (ofPattern false d.pattern), String.ofList (mantissa ++ exponent), 0⟩,
          ⟨.endOfText, "", Text.byteLength (mantissa ++ exponent)⟩]) ∧
    (Decimal.limit ≤ rounded →
      Lexeme.ofText (String.ofList (mantissa ++ exponent)) =
        .error (.malformedNumber (String.ofList (mantissa ++ exponent)) 0)) := by
  have arrives : Lexeme.Arrives (String.ofList (mantissa ++ exponent)) [] 0
      (mantissa ++ exponent) := by
    have begun : Lexeme.Arrives (String.ofList (mantissa ++ exponent)) [] 0 _ := .start
    rwa [String.toList_ofList] at begun
  have number : Lexeme.BeginsNumber (mantissa ++ exponent) := by
    obtain ⟨first, rest, rfl, digit⟩ := form.begins
    exact ⟨first, rest ++ exponent, rfl, .inl digit⟩
  obtain ⟨before, literal, after, -, whole, -, run, accepted, refused⟩ :=
    Lexeme.ofText_literal arrives number
  obtain rfl : mantissa ++ exponent = literal := form.longestRun.unique run
  obtain rfl : after = [] := by simpa using whole
  refine ⟨fun below => ?_, fun above => refused (form.not_denotes above)⟩
  obtain ⟨d, spells, worth, denotes⟩ := form.denotes_number below
  refine ⟨d, spells, worth, ?_⟩
  rw [accepted _ denotes, Lexeme.ofChars, Nat.zero_add]
  rfl

end GeneralForm

/-- A finite number other than zero is shown as its value rounded to the precision, with its sign.
The form is scientific if the first digit is out of range, has no more digits than the precision
and no superfluous zeros, and without a sign it is read as one literal. -/
theorem generalText_rounds (x : Float) (precision : Nat) (finite : isFinite x = true)
    (nonzero : Binary64.pattern x ≠ 0) :
    ∃ rounded leading mantissa exponent,
      RoundsTo (magnitude x / unitsOfOne) (max precision 1) rounded leading ∧
      generalText x precision = (if isNegative x then ['-'] else []) ++ (mantissa ++ exponent) ∧
      GeneralForm (max precision 1) rounded leading mantissa exponent ∧
      (isNegative x = false →
        LongestRun (generalText x precision) (generalText x precision) ∧
        (rounded < Decimal.limit → ∃ d, Spells (generalText x precision) d ∧ d.value = rounded ∧
          Lexeme.ofText (showGeneral x precision) =
            .ok [⟨.number (ofPattern false d.pattern), showGeneral x precision, 0⟩,
              ⟨.endOfText, "", Text.byteLength (generalText x precision)⟩]) ∧
        (Decimal.limit ≤ rounded → Lexeme.ofText (showGeneral x precision) =
          .error (.malformedNumber (showGeneral x precision) 0))) := by
  have below : Binary64.pattern x < infinityPattern := of_decide_eq_true finite
  have number : isNaN x = false := decide_eq_false (Nat.not_lt.2 (Nat.le_of_lt below))
  have bounded : isInfinite x = false := beq_eq_false_iff_ne.2 (Nat.ne_of_lt below)
  obtain ⟨rounded, leading, mantissa, exponent, rounds, text, form⟩ :=
    generalForm_generalDigits (units_pos (Nat.pos_of_ne_zero nonzero)) unitsOfOne_pos
      (Nat.le_max_right precision 1)
  have shown : generalText x precision =
      (if isNegative x then ['-'] else []) ++ (mantissa ++ exponent) := by
    rw [generalText, number, bounded, if_neg Bool.false_ne_true, if_neg Bool.false_ne_true,
      if_neg nonzero, ← text]
    rfl
  refine ⟨rounded, leading, mantissa, exponent, rounds, shown, form, fun positive => ?_⟩
  have plain : generalText x precision = mantissa ++ exponent := by
    rw [shown, positive]
    rfl
  rw [showGeneral, plain]
  exact ⟨form.longestRun, form.ofText⟩

/-- Six digits of `999999.5` carry into a seventh place, and the form is scientific. -/
theorem generalText_rounds_carry :
    isFinite 999999.5 = true ∧ Binary64.pattern 999999.5 ≠ 0 ∧
      generalText 999999.5 6 = ['1', 'e', '+', '0', '6'] ∧
      ∃ rounded leading mantissa exponent,
        RoundsTo (magnitude 999999.5 / unitsOfOne) 6 rounded leading ∧
        generalText 999999.5 6 = mantissa ++ exponent ∧
        GeneralForm 6 rounded leading mantissa exponent := by
  have finite : isFinite 999999.5 = true := by decide +kernel
  have nonzero : Binary64.pattern 999999.5 ≠ 0 := by decide +kernel
  have positive : isNegative 999999.5 = false := by decide +kernel
  obtain ⟨rounded, leading, mantissa, exponent, rounds, text, form, -⟩ :=
    generalText_rounds 999999.5 6 finite nonzero
  rw [positive] at text
  exact ⟨finite, nonzero, by decide +kernel, rounded, leading, mantissa, exponent, rounds, text,
    form⟩

end Calculator.Numeral
