import Calculator.Argument
import Calculator.Counting
import Calculator.NumberTheory

/-!
# Functions of integers

The functions of number theory, counting and discrete probability as functions of argument values.
Integer arguments are read with their fraction dropped, from the first argument to the last.
-/

set_option autoImplicit false

namespace Calculator.Handler

open Argument (integer number)

/-! ## Number theory -/

/-- The greatest common divisor of two integers. -/
def gcd (args : List Value) : Except RuntimeError Value := do
  let a ← integer "gcd" args 0
  let b ← integer "gcd" args 1
  return .number (Binary64.ofNat (NumberTheory.gcd a b))

/-- The least common multiple of two integers. -/
def lcm (args : List Value) : Except RuntimeError Value := do
  let a ← integer "lcm" args 0
  let b ← integer "lcm" args 1
  return .number (Binary64.ofNat (← NumberTheory.lcm a b))

/-- The non-negative remainder of an integer by a modulus. -/
def modulo (args : List Value) : Except RuntimeError Value := do
  let a ← integer "mod" args 0
  let m ← integer "mod" args 1
  return .number (Integer.toNumber (← NumberTheory.modulo a m))

/-- The non-negative remainder of a power by a modulus: base, exponent, modulus. -/
def modpow (args : List Value) : Except RuntimeError Value := do
  let base ← integer "modpow" args 0
  let exponent ← integer "modpow" args 1
  let m ← integer "modpow" args 2
  return .number (Integer.toNumber (← NumberTheory.modpow base exponent m))

/-- Whether an integer is prime, as a number. -/
def isPrime (args : List Value) : Except RuntimeError Value := do
  return .ofBool (NumberTheory.isPrime (← integer "is_prime" args 0))

/-! ## Counting and probability -/

/-- The number of ways to choose some of some things. -/
def combinations (args : List Value) : Except RuntimeError Value := do
  let n ← integer "ncr" args 0
  let r ← integer "ncr" args 1
  return .number (← Counting.combinations n r)

/-- The number of ways to line up some of some things. -/
def permutations (args : List Value) : Except RuntimeError Value := do
  let n ← integer "npr" args 0
  let r ← integer "npr" args 1
  return .number (← Counting.permutations n r)

/-- The factorial of an integer. -/
def factorial (args : List Value) : Except RuntimeError Value := do
  return .number (← Counting.factorial (← integer "fact" args 0))

/-- A binomial probability: trials, probability of success, successes. -/
def binomial (args : List Value) : Except RuntimeError Value := do
  let n ← integer "binomial" args 0
  let p ← number "binomial" args 1
  let k ← integer "binomial" args 2
  return .number (← Counting.binomial n p k)

/-- A geometric probability: probability of success, trial of the first success. -/
def geometric (args : List Value) : Except RuntimeError Value := do
  let p ← number "geometric" args 0
  let k ← integer "geometric" args 1
  return .number (← Counting.geometric p k)

end Calculator.Handler
