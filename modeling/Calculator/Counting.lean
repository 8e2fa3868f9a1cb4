import Calculator.Error.Basic
import Calculator.Scalar

/-!
# Counting and discrete distributions

Factorials, combinations and permutations are running products. They are generic over the
arithmetic they run in; a product that leaves its range is an error. Binomial and geometric
probabilities are computed with binary64 numbers.
-/

set_option autoImplicit false

namespace Calculator.Counting

variable {α : Type} [CountingScalar α]

open CountingScalar (ofInt isInfinite)

/-! ## Products -/

/-- The largest number whose factorial is a finite binary64 number. -/
def largestFactorial : Int := 170

/-- The product of the integers from two up to `n`. -/
def factorial (n : Int64) : Except RuntimeError α :=
  let n := n.toInt
  if n < 0 then .error (.invalidArgument (.negativeFactorial n))
  else if largestFactorial < n then .error (.overflow (.factorial n))
  else
    .ok ((List.range' 2 (n.toNat - 1)).foldl (fun product i => product * ofInt (Int.ofNat i))
      (ofInt 1))

/-- The running product of `factor first`, `factor (first + 1)` and so on, `count` factors in all;
nothing once it has left the finite numbers. -/
def runningProduct (factor : Int → α) : (count : Nat) → (first : Int) → (product : α) → Option α
  | 0, _, product => some product
  | count + 1, first, product =>
    let product := product * factor first
    if isInfinite product then none else runningProduct factor count (first + 1) product

/-- The check that `r` of `n` things can be selected. -/
def checkSelection (function : String) (n r : Int) : Except RuntimeError Unit :=
  if n < 0 ∨ r < 0 then .error (.invalidArgument (.negativeSelection function))
  else if n < r then .error (.invalidArgument (.selectionTooLarge function n r))
  else .ok ()

/-- The number of ways to choose `r` of `n` things: the product of `(n - i) / (i + 1)` for `i`
below the smaller of `r` and `n - r`. -/
def combinations (n r : Int64) : Except RuntimeError α := do
  let n := n.toInt
  checkSelection "nCr" n r.toInt
  let r := min r.toInt (n - r.toInt)
  match runningProduct (fun i => ofInt (n - i) / ofInt (i + 1)) r.toNat 0 (ofInt 1) with
  | some product => return product
  | none => throw (.overflow (.selection "nCr" n r))

/-- The number of ways to line up `r` of `n` things: the product of `n - i` for `i` below `r`. -/
def permutations (n r : Int64) : Except RuntimeError α := do
  let n := n.toInt
  let r := r.toInt
  checkSelection "nPr" n r
  match runningProduct (fun i => ofInt (n - i)) r.toNat 0 (ofInt 1) with
  | some product => return product
  | none => throw (.overflow (.selection "nPr" n r))

/-! ## Probabilities -/

/-- The probability of exactly `k` successes in `n` trials that each succeed with probability
`p`. -/
def binomial (n : Int64) (p : Float) (k : Int64) : Except RuntimeError Float := do
  if n < 0 ∨ k < 0 then throw (.invalidArgument .negativeTrials)
  if n < k then throw (.invalidArgument (.successesTooMany n.toInt k.toInt))
  if !(0.0 ≤ p && p ≤ 1.0) then throw (.invalidArgument (.probability p))
  let ways ← combinations n k
  return ways * p.pow (ofInt k.toInt) * (1.0 - p).pow (ofInt (n.toInt - k.toInt))

/-- The probability that the first success is at trial `k`, for trials that each succeed with
probability `p`. -/
def geometric (p : Float) (k : Int64) : Except RuntimeError Float := do
  if k < 1 then throw (.invalidArgument (.noTrials k.toInt))
  if !(0.0 < p && p ≤ 1.0) then throw (.invalidArgument (.positiveProbability p))
  return (1.0 - p).pow (ofInt (k.toInt - 1)) * p

end Calculator.Counting
