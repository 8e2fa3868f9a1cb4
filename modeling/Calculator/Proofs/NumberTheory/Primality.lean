import Calculator.NumberTheory
import Calculator.Proofs.NumberTheory.Traps
import Calculator.Proofs.Outcome
import Mathlib

/-!
# Trial division

The loop tries the candidates 5 and 7, 11 and 13, and so on, up to the square root
of the number. What it keeps is that nothing from two to below the candidate
divides the number (`Sieved`). Six further numbers are ruled out by a round
(`Sieved.next`): the candidate and the one two above it are tried, two are even,
and one is divisible by three. Where the square of the candidate is past the
number, a sieved number is prime (`Sieved.prime`), so the answer is right for all
natural numbers (`isPrimeNat_iff`).

**In words.** `Trapping.isPrime` computes the same with words. Where the loop goes
on, the square of the candidate is not past the number, so the candidate is below
`2 ^ 32` and the sums fit. The candidate grows by six in every round, so there are
at most as many rounds as sixths of the square root, and one more
(`isPrime_exact`).
-/

set_option autoImplicit false

namespace Calculator.NumberTheory

/-! ## What a round rules out -/

/-- Nothing from two to below `i` divides `n`. -/
def Sieved (n i : Nat) : Prop := ∀ d, 2 ≤ d → d < i → ¬ d ∣ n

namespace Sieved

/-- A number that is odd and no multiple of three has no divisor from two to four. -/
theorem five {n : Nat} (odd : n % 2 ≠ 0) (three : n % 3 ≠ 0) : Sieved n 5 := by
  intro d low high divides
  obtain rfl | rfl | rfl : d = 2 ∨ d = 3 ∨ d = 4 := by omega
  · exact odd (Nat.mod_eq_zero_of_dvd divides)
  · exact three (Nat.mod_eq_zero_of_dvd divides)
  · have even : 2 ∣ n := Nat.dvd_trans (by decide) divides
    exact odd (Nat.mod_eq_zero_of_dvd even)

/-- A candidate is one below a multiple of six. If neither it nor the number two above it divides
`n`, then the next candidate is reached with nothing below it dividing `n`. -/
theorem next {n i : Nat} (sieved : Sieved n i) (low : 5 ≤ i) (place : i % 6 = 5)
    (first : ¬ i ∣ n) (second : ¬ (i + 2) ∣ n) : Sieved n (i + 6) := by
  have even : ∀ d, 2 ∣ d → ¬ d ∣ n := fun d two divides =>
    sieved 2 (by omega) (by omega) (Nat.dvd_trans two divides)
  have three : ∀ d, 3 ∣ d → ¬ d ∣ n := fun d three divides =>
    sieved 3 (by omega) (by omega) (Nat.dvd_trans three divides)
  intro d two high
  rcases Nat.lt_or_ge d i with below | above
  · exact sieved d two below
  · obtain rfl | rfl | rfl | rfl | rfl | rfl : d = i ∨ d = i + 1 ∨ d = i + 2 ∨ d = i + 3 ∨
        d = i + 4 ∨ d = i + 5 := by omega
    · exact first
    · exact even _ (by omega)
    · exact second
    · exact even _ (by omega)
    · exact three _ (by omega)
    · exact even _ (by omega)

/-- A number without a divisor up to its square root is prime. -/
theorem prime {n i : Nat} (sieved : Sieved n i) (two : 2 ≤ n) (past : n < i * i) : n.Prime := by
  rw [Nat.prime_def_le_sqrt]
  refine ⟨two, fun d low root => sieved d low ?_⟩
  have square : d * d ≤ n := Nat.le_sqrt.1 root
  by_contra above
  have larger : i * i ≤ d * d := Nat.mul_le_mul (by omega) (by omega)
  omega

end Sieved

/-- A number with a divisor that is neither one nor the number itself is not prime. -/
theorem not_prime_of_dvd {n d : Nat} (low : 2 ≤ d) (high : d < n) (divides : d ∣ n) :
    ¬ n.Prime := fun prime => by
  rcases prime.eq_one_or_self_of_dvd d divides with one | same
  · omega
  · omega

/-- From a candidate on, the loop finds out whether a sieved number is prime. -/
theorem noDivisorFrom_iff {n i : Nat} (two : 2 ≤ n) (sieved : Sieved n i) (low : 5 ≤ i)
    (place : i % 6 = 5) : noDivisorFrom n i = true ↔ n.Prime := by
  induction i using noDivisorFrom.induct n with
  | case1 i inside found =>
      rw [noDivisorFrom, dif_pos inside, if_pos found]
      have square : i * i ≤ n := (Nat.le_div_iff_mul_le inside.1).1 inside.2
      have room : 5 * i ≤ i * i := Nat.mul_le_mul_right i low
      rw [Bool.or_eq_true, beq_iff_eq, beq_iff_eq] at found
      have composite : ¬ n.Prime := by
        rcases found with first | second
        · exact not_prime_of_dvd (by omega) (by omega) (Nat.dvd_of_mod_eq_zero first)
        · exact not_prime_of_dvd (by omega) (by omega) (Nat.dvd_of_mod_eq_zero second)
      simp [composite]
  | case2 i inside missed ih =>
      rw [noDivisorFrom, dif_pos inside, if_neg missed]
      rw [Bool.or_eq_true, beq_iff_eq, beq_iff_eq, not_or] at missed
      refine ih (sieved.next low place ?_ ?_) (by omega) (by omega)
      · exact fun divides => missed.1 (Nat.mod_eq_zero_of_dvd divides)
      · exact fun divides => missed.2 (Nat.mod_eq_zero_of_dvd divides)
  | case3 i outside =>
      rw [noDivisorFrom, dif_neg outside]
      have past : n < i * i := by
        by_contra square
        exact outside ⟨by omega, (Nat.le_div_iff_mul_le (by omega)).2 (by omega)⟩
      simp [sieved.prime two past]

/-- The answer is right for every natural number. -/
theorem isPrimeNat_iff (n : Nat) : isPrimeNat n = true ↔ n.Prime := by
  rw [isPrimeNat]
  split
  case isTrue small =>
    have composite : ¬ n.Prime := fun prime => absurd prime.two_le (by omega)
    simp [composite]
  case isFalse two =>
    split
    case isTrue small =>
      obtain rfl | rfl : n = 2 ∨ n = 3 := by omega
      · simp [Nat.prime_two]
      · simp [Nat.prime_three]
    case isFalse four =>
      split
      case isTrue found =>
        rw [Bool.or_eq_true, beq_iff_eq, beq_iff_eq] at found
        have composite : ¬ n.Prime := by
          rcases found with even | three
          · exact not_prime_of_dvd (by decide) (by omega) (Nat.dvd_of_mod_eq_zero even)
          · exact not_prime_of_dvd (by decide) (by omega) (Nat.dvd_of_mod_eq_zero three)
        simp [composite]
      case isFalse missed =>
        rw [Bool.or_eq_true, beq_iff_eq, beq_iff_eq, not_or] at missed
        exact noDivisorFrom_iff (by omega) (.five missed.1 missed.2) (Nat.le_refl 5) rfl

/-- The only divisor of 529 that is tried is the last candidate, its square root 23. -/
example : isPrimeNat 529 = false ∧ isPrimeNat 541 = true := by decide +kernel

/-- A prime word, said with integers. -/
theorem toNat_prime_iff {n : Int} :
    n.toNat.Prime ↔ 2 ≤ n ∧ ∀ d, 1 < d → d < n → ¬ d ∣ n := by
  rw [Nat.prime_def_lt']
  constructor
  · rintro ⟨two, undivided⟩
    refine ⟨by omega, fun d low high divides => ?_⟩
    refine undivided d.toNat (by omega) (by omega) ?_
    rwa [← Int.natCast_dvd_natCast, Int.toNat_of_nonneg (by omega), Int.toNat_of_nonneg (by omega)]
  · rintro ⟨two, undivided⟩
    refine ⟨by omega, fun d low high divides => ?_⟩
    refine undivided d (by omega) (by omega) ?_
    rwa [← Int.natCast_dvd_natCast, Int.toNat_of_nonneg (by omega)] at divides

/-! ## In words -/

namespace Trapping

/-- Whether a word divides another. -/
def divides (d n : Int64) : Trapping Bool := do return (← remainder n d) == 0

/-- Whether `i` or `i + 2` divides `n`; the second is not tried if the first does. -/
def eitherDivides (n i : Int64) : Trapping Bool := do
  if ← divides i n then return true
  else divides (← add i 2) n

/-- The loop of trial division from a candidate on, in a number of rounds. -/
def noDivisorFrom (n : Int64) : Nat → Int64 → Trapping Bool
  | 0, _ => .error .unfinished
  | rounds + 1, i => do
    if i ≤ (← quotient n i) then
      if ← eitherDivides n i then return false
      else noDivisorFrom n rounds (← add i 6)
    else return true

/-- Whether a word is prime, with a limit on the rounds of the loop. -/
def isPrime (rounds : Nat) (n : Int64) : Trapping Bool := do
  if n < 2 then return false
  else if n < 4 then return true
  else if ← divides 2 n then return false
  else if ← divides 3 n then return false
  else noDivisorFrom n rounds 5

theorem divides_eq {a b : Int64} {n d : Nat} (dividend : a.toInt = n) (divisor : b.toInt = d)
    (positive : 0 < d) : divides b a = .ok (n % d == 0) := by
  obtain ⟨r, computed, value⟩ := remainder_eq dividend divisor positive
  have zero : r = 0 ↔ n % d = 0 := by
    rw [← Int64.toInt_inj, value]
    exact Int.ofNat_inj
  have same : (r == 0) = (n % d == 0) := by
    rw [Bool.eq_iff_iff, beq_iff_eq, beq_iff_eq, zero]
  rw [divides, computed, ← same]
  rfl

/-- What is computed after a trial depends on whether the number is divisible. -/
theorem if_divides {a b : Int64} {n d : Nat} (dividend : a.toInt = n) (divisor : b.toInt = d)
    (positive : 0 < d) (found missed : Trapping Bool) :
    (do if ← divides b a then found else missed) = if n % d = 0 then found else missed := by
  rw [divides_eq dividend divisor positive]
  change (if (n % d == 0) = true then found else missed) = _
  simp only [beq_iff_eq]

/-- Where the candidate is small enough, it and the one two above it are tried. -/
theorem eitherDivides_eq {a b : Int64} {n i : Nat} (number : a.toInt = n) (candidate : b.toInt = i)
    (positive : 0 < i) (small : i < 2 ^ 32) :
    eitherDivides a b = .ok (n % i == 0 || n % (i + 2) == 0) := by
  rw [eitherDivides, if_divides number candidate positive]
  by_cases first : n % i = 0
  · rw [if_pos first, beq_iff_eq.2 first, Bool.true_or]
    rfl
  · have two : (2 : Int64).toInt = 2 := rfl
    obtain ⟨c, sum, value⟩ := add_eq (a := b) (b := 2) (s := ((i + 2 : Nat) : Int))
      (by rw [candidate, two]; omega) (by omega) (by omega)
    have tried := divides_eq number value (by omega)
    rw [if_neg first, beq_false_of_ne first, Bool.false_or]
    exact bind_eq_ok_iff.2 ⟨c, sum, tried⟩

/-- Past the square root the loop is over. -/
theorem noDivisorFrom_past {a b : Int64} {n i : Nat} (number : a.toInt = n)
    (candidate : b.toInt = i) (positive : 0 < i) (past : ¬ i ≤ n / i) (rounds : Nat) :
    noDivisorFrom a (rounds + 1) b = .ok true := by
  obtain ⟨q, computed, value⟩ := quotient_eq number candidate positive
  have stop : ¬ b ≤ q := by
    rw [Int64.le_iff_toInt_le, candidate, value]
    exact fun within => past (Int.ofNat_le.1 within)
  rw [noDivisorFrom, computed]
  exact if_neg stop

/-- Up to the square root a round tries two numbers and goes on with the next candidate. -/
theorem noDivisorFrom_within {a b : Int64} {n i : Nat} (number : a.toInt = n)
    (candidate : b.toInt = i) (low : 5 ≤ i) (within : i ≤ n / i) (rounds : Nat) :
    ∃ c : Int64, c.toInt = (i + 6 : Nat) ∧ noDivisorFrom a (rounds + 1) b =
      if (n % i == 0 || n % (i + 2) == 0) = true then .ok false else noDivisorFrom a rounds c := by
  obtain ⟨q, computed, value⟩ := quotient_eq number candidate (by omega)
  have go : b ≤ q := by
    rw [Int64.le_iff_toInt_le, candidate, value]
    exact Int.ofNat_le.2 within
  -- The square of the candidate is a word, so the candidate fills half a word.
  have square : i * i ≤ n := (Nat.le_div_iff_mul_le (by omega)).1 within
  have limit := a.toInt_lt
  have small : i < 2 ^ 32 := by
    by_contra large
    have larger : 2 ^ 32 * 2 ^ 32 ≤ i * i := Nat.mul_le_mul (by omega) (by omega)
    omega
  have six : (6 : Int64).toInt = 6 := rfl
  obtain ⟨c, sum, next⟩ := add_eq (a := b) (b := 6) (s := ((i + 6 : Nat) : Int))
    (by rw [candidate, six]; omega) (by omega) (by omega)
  refine ⟨c, next, ?_⟩
  rw [noDivisorFrom, computed]
  change (if b ≤ q then _ else _) = _
  rw [if_pos go, eitherDivides_eq number candidate (by omega) small, sum]
  rfl

/-- The loop in words goes through the candidates of the model. It is over when the candidate has
passed the square root. -/
theorem noDivisorFrom_eq {a b : Int64} {n i rounds : Nat} (number : a.toInt = n)
    (candidate : b.toInt = i) (low : 5 ≤ i) (enough : n.sqrt < i + 6 * rounds) :
    noDivisorFrom a (rounds + 1) b = .ok (NumberTheory.noDivisorFrom n i) := by
  induction rounds generalizing b i with
  | zero =>
      have square : n < i * i := Nat.sqrt_lt.1 (by omega)
      have past : ¬ i ≤ n / i := Nat.not_le.2 (Nat.div_lt_of_lt_mul square)
      rw [noDivisorFrom_past number candidate (by omega) past, NumberTheory.noDivisorFrom,
        dif_neg fun inside => past inside.2]
  | succ rounds ih =>
      by_cases within : i ≤ n / i
      · obtain ⟨c, next, round⟩ := noDivisorFrom_within number candidate low within (rounds + 1)
        rw [NumberTheory.noDivisorFrom, dif_pos ⟨by omega, within⟩, round,
          ih next (by omega) (by omega)]
        split
        · rfl
        · rfl
      · rw [noDivisorFrom_past number candidate (by omega) within, NumberTheory.noDivisorFrom,
          dif_neg fun inside => within inside.2]

/-- From four on, two and three are tried before the candidates. -/
theorem isPrime_of_large {a : Int64} {n : Nat} (number : a.toInt = n) (large : 4 ≤ n) :
    isPrime ((n.sqrt + 1) / 6 + 1) a = .ok (isPrimeNat n) := by
  have notBelow : ∀ {b : Int64} {k : Nat}, b.toInt = k → k ≤ n → ¬ a < b := by
    intro b k value below
    rw [Int64.lt_iff_toInt_lt, number, value]
    omega
  have two : ¬ n < 2 := by omega
  have four : ¬ n < 4 := by omega
  rw [isPrime, if_neg (notBelow (k := 2) rfl (by omega)), if_neg (notBelow (k := 4) rfl large),
    if_divides (d := 2) number rfl (by decide), if_divides (d := 3) number rfl (by decide),
    isPrimeNat, if_neg two, if_neg four]
  by_cases even : n % 2 = 0
  · rw [if_pos even, beq_iff_eq.2 even, Bool.true_or]
    rfl
  · rw [if_neg even, beq_false_of_ne even, Bool.false_or]
    by_cases three : n % 3 = 0
    · rw [if_pos three, beq_iff_eq.2 three]
      rfl
    · rw [if_neg three, beq_false_of_ne three]
      exact noDivisorFrom_eq number rfl (Nat.le_refl 5) (by omega)

/-- Whether a word is prime is found out in words, in as many rounds as there are sixths of the
square root, and one more. -/
theorem isPrime_eq (n : Int64) :
    isPrime ((n.toInt.toNat.sqrt + 1) / 6 + 1) n = .ok (NumberTheory.isPrime n) := by
  rw [NumberTheory.isPrime]
  have two : n < 2 ↔ n.toInt < 2 := Int64.lt_iff_toInt_lt
  have four : n < 4 ↔ n.toInt < 4 := Int64.lt_iff_toInt_lt
  rcases lt_or_ge n.toInt 4 with few | large
  · by_cases small : n.toInt < 2
    · rw [isPrime, if_pos (two.2 small), isPrimeNat, if_pos (by omega)]
      rfl
    · rw [isPrime, if_neg (mt two.1 small), if_pos (four.2 few), isPrimeNat, if_neg (by omega),
        if_pos (by omega)]
      rfl
  · obtain ⟨m, number⟩ := Int.eq_ofNat_of_zero_le (a := n.toInt) (by omega)
    rw [number, Int.toNat_natCast]
    exact isPrime_of_large number (by omega)

end Trapping

/-- A word is found to be prime if it is prime: at least two, and without a divisor between one and
itself. In words the same is found out, so the loop ends, no sum is too large and no divisor is
zero. -/
theorem isPrime_exact (n : Int64) :
    (isPrime n = true ↔ n.toInt.toNat.Prime) ∧
    (isPrime n = true ↔ 2 ≤ n.toInt ∧ ∀ d, 1 < d → d < n.toInt → ¬ d ∣ n.toInt) ∧
    Trapping.isPrime ((n.toInt.toNat.sqrt + 1) / 6 + 1) n = .ok (isPrime n) := by
  have prime : isPrime n = true ↔ n.toInt.toNat.Prime := isPrimeNat_iff n.toInt.toNat
  exact ⟨prime, prime.trans toNat_prime_iff, Trapping.isPrime_eq n⟩

end Calculator.NumberTheory
