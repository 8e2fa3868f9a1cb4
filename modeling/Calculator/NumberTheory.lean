import Calculator.Error.Basic

/-!
# Number theory on 64-bit integers

Greatest common divisors by Euclid's algorithm, least common multiples, remainders in
`[0, |m|)`, modular powers by repeated squaring and primality by trial division. The arguments are
signed 64-bit words; the computations in between are on natural numbers and integers, where
nothing wraps around.
-/

set_option autoImplicit false

namespace Calculator.NumberTheory

/-! ## Divisors and multiples -/

/-- Euclid's algorithm. -/
def euclid (a b : Nat) : Nat :=
  if b = 0 then a else euclid b (a % b)
termination_by b
decreasing_by exact Nat.mod_lt _ (by omega)

/-- The greatest common divisor of the absolute values; zero for two zeros. -/
def gcd (a b : Int64) : Nat := euclid a.toInt.natAbs b.toInt.natAbs

/-- The least common multiple of the absolute values, if it fits an unsigned 64-bit word; zero if
either argument is. -/
def lcm (a b : Int64) : Except RuntimeError Nat :=
  if a = 0 ∨ b = 0 then .ok 0
  else
    let multiple := a.toInt.natAbs / gcd a b * b.toInt.natAbs
    if multiple ≤ largestCount then .ok multiple
    else .error (.overflow (.leastCommonMultiple a.toInt b.toInt))

/-! ## Remainders and powers -/

/-- The remainder of `a` in `[0, |m|)`. -/
def modulo (a m : Int64) : Except RuntimeError Int64 :=
  if m = 0 then .error (.divisionByZero (.modulus "mod"))
  else .ok (Int64.ofInt (a.toInt % m.toInt.natAbs))

/-- A stage of repeated squaring. The value sought is `result * base ^ exponent` modulo some
modulus. -/
structure Squaring where
  result : Nat
  base : Nat
  exponent : Nat
deriving DecidableEq, Repr

namespace Squaring

/-- The stage after the lowest binary digit of the exponent has been used. -/
def next (modulus : Nat) (stage : Squaring) : Squaring where
  result :=
    if stage.exponent % 2 = 1 then stage.result * stage.base % modulus else stage.result
  base := stage.base * stage.base % modulus
  exponent := stage.exponent / 2

/-- The result when no digit of the exponent is left. -/
def finish (modulus : Nat) (stage : Squaring) : Nat :=
  if stage.exponent = 0 then stage.result else finish modulus (stage.next modulus)
termination_by stage.exponent
decreasing_by simp only [next]; omega

end Squaring

/-- The remainder of `base ^ exponent` in `[0, |m|)`. -/
def modpow (base exponent m : Int64) : Except RuntimeError Int64 :=
  let modulus := m.toInt.natAbs
  if m = 0 then .error (.divisionByZero (.modulus "modpow"))
  else if modulus = 1 then .ok 0
  else if exponent < 0 then .error (.invalidArgument .negativeExponent)
  else
    let start : Squaring := ⟨1, (base.toInt % modulus).toNat, exponent.toInt.toNat⟩
    .ok (Int64.ofInt (start.finish modulus))

/-! ## Primality -/

/-- Whether neither `i` nor `i + 2`, `i + 6`, `i + 8` and so on divides `n`, up to the square root
of `n`. -/
def noDivisorFrom (n i : Nat) : Bool :=
  if _h : 0 < i ∧ i ≤ n / i then
    if n % i == 0 || n % (i + 2) == 0 then false else noDivisorFrom n (i + 6)
  else true
termination_by n + 1 - i
decreasing_by
  have := Nat.div_le_self n i
  omega

/-- Whether a natural number is prime. -/
def isPrimeNat (n : Nat) : Bool :=
  if n < 2 then false
  else if n < 4 then true
  else if n % 2 == 0 || n % 3 == 0 then false
  else noDivisorFrom n 5

/-- Whether a number is prime; a negative one is not. -/
def isPrime (n : Int64) : Bool := isPrimeNat n.toInt.toNat

end Calculator.NumberTheory
