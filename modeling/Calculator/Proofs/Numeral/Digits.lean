import Calculator.Numeral.Decimal

/-!
# Digits read back

A number is a single digit of a radix, or has one digit more than a positive
number (`digit_induction`), and it is written that way. So written digits have
the number as their value (`valueOf_write`), are digits of the radix
(`isDigitOf_of_mem_write`), and begin with a zero only if the number is zero
(`head?_write_ne_zero`). Leading zeros change no value, so a number is read back
from its digits with any padding (`read?_writePadded`).

`digitCount` is the decimal length of a number: it is at most `k` for the
numbers below `10 ^ k` and no others (`digitCount_le_iff`).
-/

set_option autoImplicit false

namespace Calculator.Numeral

/-! ## Single digits -/

theorem digitValue_digitChar {digit : Nat} (small : digit < 16) :
    digitValue (digitChar digit) = digit := by
  revert digit
  decide

theorem isAlphanum_digitChar {digit : Nat} (small : digit < 16) :
    (digitChar digit).isAlphanum = true := by
  revert digit
  decide

theorem isDigit_digitChar {digit : Nat} (small : digit < 10) :
    (digitChar digit).isDigit = true := by
  revert digit
  decide

theorem digitChar_ne_zero {digit : Nat} (small : digit < 16) (positive : 0 < digit) :
    digitChar digit ≠ '0' := by
  intro zero
  have value : digitValue '0' = digit := zero ▸ digitValue_digitChar small
  rw [show digitValue '0' = 0 from rfl] at value
  omega

/-! ## Writing -/

theorem writeOnto_eq (radix n : Nat) (tail : List Char) :
    writeOnto radix n tail = write radix n ++ tail := by
  induction n using Nat.strongRecOn generalizing tail with
  | ind n ih =>
      by_cases long : 2 ≤ radix ∧ radix ≤ n
      · have smaller : n / radix < n := Nat.div_lt_self (by omega) (by omega)
        have split : ∀ after, writeOnto radix n after =
            writeOnto radix (n / radix) (digitChar (n % radix) :: after) := fun after => by
          rw [writeOnto, dif_pos long]
        rw [write, split, split, ih _ smaller, ih _ smaller [_], List.append_assoc]
        rfl
      · have single : ∀ after, writeOnto radix n after = digitChar n :: after := fun after => by
          rw [writeOnto, dif_neg long]
        rw [write, single, single]
        rfl

theorem write_of_lt {radix n : Nat} (small : n < radix) : write radix n = [digitChar n] := by
  rw [write, writeOnto, dif_neg (by omega)]

theorem write_snoc {radix n digit : Nat} (base : 2 ≤ radix) (positive : 0 < n)
    (small : digit < radix) :
    write radix (n * radix + digit) = write radix n ++ [digitChar digit] := by
  have large : radix ≤ n * radix + digit :=
    Nat.le_trans (Nat.le_mul_of_pos_left radix positive) (Nat.le_add_right _ _)
  have quotient : (n * radix + digit) / radix = n := by
    rw [Nat.mul_comm, Nat.mul_add_div (by omega), Nat.div_eq_of_lt small, Nat.add_zero]
  have remainder : (n * radix + digit) % radix = digit := by
    rw [Nat.mul_comm, Nat.mul_add_mod, Nat.mod_eq_of_lt small]
  rw [write, writeOnto, dif_pos ⟨base, large⟩, writeOnto_eq, quotient, remainder]

/-- Every number is a single digit, or has one digit more than a positive number. -/
theorem digit_induction {radix : Nat} (base : 2 ≤ radix) {motive : Nat → Prop}
    (single : ∀ digit < radix, motive digit)
    (further : ∀ n digit, 0 < n → digit < radix → motive n → motive (n * radix + digit))
    (n : Nat) : motive n := by
  induction n using Nat.strongRecOn with
  | ind n ih =>
      rcases Nat.lt_or_ge n radix with small | large
      · exact single n small
      · have positive : 0 < n / radix := Nat.div_pos large (by omega)
        have smaller : n / radix < n := Nat.div_lt_self (by omega) (by omega)
        have whole := further _ (n % radix) positive (Nat.mod_lt n (by omega)) (ih _ smaller)
        rwa [Nat.mul_comm, Nat.div_add_mod] at whole

theorem exists_digit_of_mem_write {radix : Nat} (base : 2 ≤ radix) (n : Nat) :
    ∀ c ∈ write radix n, ∃ digit < radix, c = digitChar digit := by
  induction n using digit_induction base with
  | single digit small =>
      intro c member
      rw [write_of_lt small, List.mem_singleton] at member
      exact ⟨digit, small, member⟩
  | further n digit positive small ih =>
      intro c member
      rw [write_snoc base positive small, List.mem_append, List.mem_singleton] at member
      rcases member with before | last
      · exact ih c before
      · exact ⟨digit, small, last⟩

theorem isDigitOf_of_mem_write {radix : Nat} (base : 2 ≤ radix) (bounded : radix ≤ 16) {n : Nat}
    {c : Char} (member : c ∈ write radix n) : isDigitOf radix c = true := by
  obtain ⟨digit, small, rfl⟩ := exists_digit_of_mem_write base n c member
  simp [isDigitOf, digitValue_digitChar (by omega : digit < 16),
    isAlphanum_digitChar (by omega : digit < 16), small]

theorem isDigit_of_mem_write {n : Nat} {c : Char} (member : c ∈ write 10 n) :
    c.isDigit = true := by
  obtain ⟨digit, small, rfl⟩ := exists_digit_of_mem_write (by omega) n c member
  exact isDigit_digitChar small

theorem write_ne_nil {radix : Nat} (base : 2 ≤ radix) (n : Nat) : write radix n ≠ [] := by
  induction n using digit_induction base with
  | single digit small => simp [write_of_lt small]
  | further n digit positive small _ => simp [write_snoc base positive small]

/-- A positive number is written without a leading zero. -/
theorem head?_write_ne_zero {radix : Nat} (base : 2 ≤ radix) (bounded : radix ≤ 16) {n : Nat}
    (positive : 0 < n) : (write radix n).head? ≠ some '0' := by
  induction n using digit_induction base with
  | single digit small =>
      rw [write_of_lt small, List.head?_cons, Ne, Option.some_inj]
      exact digitChar_ne_zero (by omega) positive
  | further n digit before small ih =>
      obtain ⟨first, rest, written⟩ := List.exists_cons_of_ne_nil (write_ne_nil base n)
      rw [written, List.head?_cons] at ih
      rw [write_snoc base before small, written, List.cons_append, List.head?_cons]
      exact ih before

/-! ## Values -/

theorem valueOf_snoc (radix : Nat) (digits : List Char) (c : Char) :
    valueOf radix (digits ++ [c]) = valueOf radix digits * radix + digitValue c := by
  simp [valueOf]

/-- Written digits have the number as their value. -/
theorem valueOf_write {radix : Nat} (base : 2 ≤ radix) (bounded : radix ≤ 16) (n : Nat) :
    valueOf radix (write radix n) = n := by
  induction n using digit_induction base with
  | single digit small =>
      rw [write_of_lt small, ← List.nil_append [digitChar digit], valueOf_snoc,
        digitValue_digitChar (by omega)]
      simp [valueOf]
  | further n digit positive small ih =>
      rw [write_snoc base positive small, valueOf_snoc, ih, digitValue_digitChar (by omega)]

/-- Leading zeros change no value. -/
theorem valueOf_zeros (radix count : Nat) (digits : List Char) :
    valueOf radix (List.replicate count '0' ++ digits) = valueOf radix digits := by
  induction count with
  | zero => rfl
  | succ count ih =>
      have zero : (0 * radix + digitValue '0') = 0 := by simp [show digitValue '0' = 0 from rfl]
      rw [← ih, List.replicate_succ, List.cons_append, valueOf, List.foldl_cons, zero, valueOf]

/-- A number is read back from its digits, also after leading zeros. -/
theorem read?_writePadded {radix : Nat} (base : 2 ≤ radix) (bounded : radix ≤ 16) (width n : Nat) :
    read? radix (writePadded radix width n) = some n := by
  have nonempty : writePadded radix width n ≠ [] := by simp [writePadded, write_ne_nil base n]
  have digits : ∀ c ∈ writePadded radix width n, isDigitOf radix c = true := by
    intro c member
    rcases List.mem_append.1 member with zeros | written
    · rw [(List.mem_replicate.1 zeros).2]
      simpa [isDigitOf, show digitValue '0' = 0 from rfl] using (by omega : 0 < radix)
    · exact isDigitOf_of_mem_write base bounded written
  rw [read?, if_neg (by simpa [nonempty] using digits), writePadded, valueOf_zeros,
    valueOf_write base bounded]

/-! ## Decimal length -/

theorem digitCount_zero : digitCount 0 = 0 := by rw [digitCount, if_pos rfl]

theorem digitCount_of_pos {n : Nat} (positive : 0 < n) :
    digitCount n = digitCount (n / 10) + 1 := by
  rw [digitCount, if_neg (by omega)]

theorem digitCount_ten_mul {n : Nat} (positive : 0 < n) :
    digitCount (10 * n) = digitCount n + 1 := by
  rw [digitCount_of_pos (by omega), Nat.mul_div_cancel_left n (by omega)]

/-- Numbers below a power of ten have at most as many digits as its exponent says. -/
theorem digitCount_le_iff (n k : Nat) : digitCount n ≤ k ↔ n < 10 ^ k := by
  induction k generalizing n with
  | zero =>
      rcases Nat.eq_zero_or_pos n with rfl | positive
      · simp [digitCount_zero]
      · rw [digitCount_of_pos positive]
        omega
  | succ k ih =>
      rcases Nat.eq_zero_or_pos n with rfl | positive
      · rw [digitCount_zero]
        exact iff_of_true (Nat.zero_le _) (Nat.pow_pos (by omega))
      · rw [digitCount_of_pos positive, Nat.succ_le_succ_iff, ih, Nat.pow_succ,
          Nat.div_lt_iff_lt_mul (by omega)]

theorem digitCount_mul_le {n bound factor k : Nat} (below : n < bound) (positive : 0 < factor)
    (enough : bound * factor ≤ 10 ^ k) : digitCount (n * factor) ≤ k :=
  (digitCount_le_iff _ _).2
    (Nat.lt_of_lt_of_le (Nat.mul_lt_mul_of_pos_right below positive) enough)

theorem lt_digitCount_mul {n factor k : Nat} (positive : 0 < n) (enough : 10 ^ k ≤ factor) :
    k < digitCount (n * factor) := by
  rw [← Nat.not_le, digitCount_le_iff, Nat.not_lt]
  exact Nat.le_trans enough (Nat.le_mul_of_pos_left factor positive)

end Calculator.Numeral
