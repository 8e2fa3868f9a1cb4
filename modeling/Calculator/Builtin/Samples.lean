import Calculator.Argument
import Calculator.Statistics

/-!
# Functions of samples

The measures of statistics take the numbers in all their arguments as one sample. `zscore` takes
its first argument as the value to be scored and the others as the sample, and `correlation` takes
the two halves of its numbers as paired samples.
-/

set_option autoImplicit false

namespace Calculator

/-- A number that describes a sample. -/
inductive Measure where
  | mean
  | median
  | mode
  | variance
  | deviation
deriving DecidableEq, Repr

namespace Measure

/-- The name under which a measure is called. -/
def name : Measure → String
  | mean => "mean"
  | median => "median"
  | mode => "mode"
  | variance => "var"
  | deviation => "stddev"

/-- The measure of a sample. -/
def ofSample : Measure → List Float → Except RuntimeError Float
  | mean => Statistics.mean
  | median => Statistics.median
  | mode => Statistics.mode
  | variance => Statistics.variance
  | deviation => Statistics.deviation

end Measure

namespace Handler

/-- The measure of the numbers in all arguments, in the name of `function`. -/
def aggregate (function : String) (measure : Measure) (args : List Value) :
    Except RuntimeError Value := do
  return .number (← measure.ofSample (← Argument.flattenNonempty function args))

/-- The z-score of the first argument in the sample of the others. -/
def zscore (args : List Value) : Except RuntimeError Value := do
  let value ← Argument.number "zscore" args 0
  let data ← Argument.flattenNonempty "zscore" (args.drop 1)
  return .number (← Statistics.zscore value data)

/-- The correlation coefficient of the two halves of the numbers in the arguments. -/
def correlation (args : List Value) : Except RuntimeError Value := do
  let data := Argument.flatten args
  if data.isEmpty ∨ data.length % 2 ≠ 0 then
    throw (.invalidArgument (.unpairedSamples data.length))
  let (x, y) := Argument.halves data
  return .number (← Statistics.correlation x y)

end Handler

end Calculator
