import Calculator.Error.Basic
import Calculator.Scalar

/-!
# Descriptive statistics

Measures of a non-empty list of binary64 numbers. Sums run from left to right. Median and mode
look at the sorted list; sorting is stable, takes the two zeros for equal and puts what is no
number last.
-/

set_option autoImplicit false

namespace Calculator.Statistics

/-- Samples closer than this count as one value. -/
def tolerance : Float := 1e-9

/-- The check that there is a sample at all. -/
def checkData (function : String) (data : List Float) : Except RuntimeError Unit :=
  if data.isEmpty then .error (.invalidArgument (.emptyDataset function)) else .ok ()

/-- The number of samples. -/
def size (data : List Float) : Float := Binary64.ofNat data.length

/-! ## Order -/

/-- Whether `x` may come before `y` in a sorted list. -/
def mayPrecede (x y : Float) : Bool := x ≤ y || Binary64.isNaN y

/-- The sorted list. -/
def sorted (data : List Float) : List Float := data.mergeSort mayPrecede

/-- The middle of the sorted list; of an even number of samples, the mean of the two in the
middle. -/
def median (data : List Float) : Except RuntimeError Float :=
  let ordered := sorted data
  let middle := ordered.length / 2
  if h : ordered.length = 0 then .error (.invalidArgument (.emptyDataset "median"))
  else
    have upper_lt : middle < ordered.length := by omega
    have lower_lt : middle - 1 < ordered.length := by omega
    if ordered.length % 2 = 0 then .ok ((ordered[middle - 1] + ordered[middle]) / 2.0)
    else .ok ordered[middle]

/-- A scan of a sorted list: the last sample, the length of its run of close samples, and the
length of the best run so far with the sample that made it the best. Lengths are 32-bit words. -/
structure RunScan where
  last : Float
  run : Int32
  best : Int32
  mode : Float
deriving DecidableEq

/-- The scan after one more sample. A length past the greatest word wraps around to the least. -/
def RunScan.step (scan : RunScan) (x : Float) : RunScan :=
  if (x - scan.last).abs < tolerance then
    let run := scan.run + 1
    if scan.best < run then ⟨x, run, run, x⟩ else ⟨x, run, scan.best, scan.mode⟩
  else ⟨x, 1, scan.best, scan.mode⟩

/-- The most frequent value, where neighbours in the sorted list that are closer than the
tolerance count as one. The first run of the greatest length counted wins, by the sample with
which it was reached; without a run of two the smallest sample does. -/
def mode (data : List Float) : Except RuntimeError Float :=
  match sorted data with
  | [] => .error (.invalidArgument (.emptyDataset "mode"))
  | first :: rest => .ok (rest.foldl RunScan.step ⟨first, 1, 1, first⟩).mode

/-! ## Moments -/

/-- The arithmetic mean. -/
def mean (data : List Float) : Except RuntimeError Float := do
  checkData "mean" data
  return sum data / size data

/-- The population variance. -/
def variance (data : List Float) : Except RuntimeError Float := do
  checkData "var" data
  let center ← mean data
  return sum (data.map fun x => (x - center) * (x - center)) / size data

/-- The population standard deviation. -/
def deviation (data : List Float) : Except RuntimeError Float := do
  checkData "stddev" data
  return (← variance data).sqrt

/-- How many standard deviations a value lies above the mean. -/
def zscore (value : Float) (data : List Float) : Except RuntimeError Float := do
  checkData "zscore" data
  let center ← mean data
  let spread ← deviation data
  if spread == 0.0 then throw (.divisionByZero .standardDeviation)
  return (value - center) / spread

/-- The sums that a correlation coefficient is made of: of the products of the deviations, and of
the squares of either. -/
structure Moments where
  product : Float
  left : Float
  right : Float
deriving DecidableEq

/-- The sums after one more pair of deviations. -/
def Moments.step (moments : Moments) (deviations : Float × Float) : Moments where
  product := moments.product + deviations.1 * deviations.2
  left := moments.left + deviations.1 * deviations.1
  right := moments.right + deviations.2 * deviations.2

/-- The correlation coefficient of two samples of equal size, by their moments about the means. -/
def correlation (x y : List Float) : Except RuntimeError Float := do
  checkData "correlation" x
  checkData "correlation" y
  if x.length ≠ y.length then
    throw (.dimensionMismatch (.sampleSizes x.length y.length))
  let centerX ← mean x
  let centerY ← mean y
  let deviations := List.zipWith (fun a b => (a - centerX, b - centerY)) x y
  let moments := deviations.foldl Moments.step ⟨0.0, 0.0, 0.0⟩
  let denominator := (moments.left * moments.right).sqrt
  if denominator == 0.0 then throw (.divisionByZero .variance)
  return moments.product / denominator

end Calculator.Statistics
