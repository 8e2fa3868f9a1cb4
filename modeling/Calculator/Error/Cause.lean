import Calculator.Numeral.Shortest
import Calculator.Operator.Basic

/-!
# What can go wrong in a computation

Each type below lists the causes of one kind of failure, with the data that the message names,
and `details` puts a cause into words.
-/

set_option autoImplicit false

namespace Calculator

open Numeral (showShortest)

/-- The three types of value. -/
inductive ValueType where
  | number
  | vector
  | matrix
deriving DecidableEq, Repr

/-- The name of a type of value. -/
def ValueType.name : ValueType → String
  | number => "number"
  | vector => "vector"
  | matrix => "matrix"

/-- The numbers of rows and columns of a matrix. -/
structure Shape where
  rows : Nat
  cols : Nat
deriving DecidableEq, Repr

/-- A shape as rows times columns. -/
def Shape.text (shape : Shape) : String := s!"{shape.rows}x{shape.cols}"

/-- The largest count that fits a 64-bit word. -/
def largestCount : Nat := 2 ^ 64 - 1

/-- The largest number of elements that can be stored at once: an element takes eight bytes, and
the bytes are counted by a signed 64-bit word. -/
def largestStorage : Nat := (2 ^ 63 - 1) / 8

/-! ## Causes -/

/-- A division with a zero divisor. -/
inductive ZeroDivision where
  | quotient (dividend : Float)
  | modulus (function : String)
  | standardDeviation
  | variance
deriving DecidableEq

/-- A value outside the domain of an operation. -/
inductive DomainFault where
  | notFinite (what : String) (value : Float)
  | operation (left : Float) (op : BinaryOperator) (right : Float)
deriving DecidableEq

/-- A result that is too large. -/
inductive OverflowFault where
  | integer (value : Float) (what : String)
  | leastCommonMultiple (a b : Int)
  | factorial (n : Int)
  | selection (function : String) (n r : Int)
deriving DecidableEq

/-- An argument of the wrong number, type or range. -/
inductive ArgumentFault where
  | size (what : String) (value : Float)
  | noElements (function : String)
  | missing (function : String) (position : Nat)
  | unpaired (function : String) (count : Nat)
  | tooFewValues (function : String) (count : Nat)
  | unpairedSamples (count : Nat)
  | shiftAmount (amount : Int)
  | elementCount (shape : Shape) (count : Nat)
  | notVector (function : String) (found : ValueType)
  | negativeExponent
  | emptyDataset (function : String)
  | negativeFactorial (n : Int)
  | negativeSelection (function : String)
  | selectionTooLarge (function : String) (n r : Int)
  | negativeTrials
  | successesTooMany (n k : Int)
  | noTrials (k : Int)
  | probability (p : Float)
  | positiveProbability (p : Float)
deriving DecidableEq

/-- Operands whose sizes do not fit together. -/
inductive ShapeFault where
  | vectorSizes (function : String) (left right : Nat)
  | matrixShapes (function : String) (left right : Shape)
  | product (left right : Shape)
  | vectorProduct (left : Shape) (right : Nat)
  | notSquare (shape : Shape)
  | sampleSizes (left right : Nat)
deriving DecidableEq

/-- An operation that exists, but not for these inputs. -/
inductive UnsupportedFault where
  | notArithmetic (op : BinaryOperator)
  | notBitwise (op : BinaryOperator)
  | notBinary (op : BinaryOperator)
  | determinant (shape : Shape)
deriving DecidableEq

/-! ## Causes in words -/

/-- The division in words. -/
def ZeroDivision.details : ZeroDivision → String
  | quotient dividend => s!"{showShortest dividend} / 0"
  | modulus function => s!"{function} with modulus 0"
  | standardDeviation => "zscore of a dataset with zero standard deviation"
  | variance => "correlation of a sample with zero variance"

/-- The value and the operation in words. -/
def DomainFault.details : DomainFault → String
  | notFinite what value => s!"{what} cannot use non-finite value {showShortest value}"
  | operation left op right =>
    s!"{showShortest left} {op.symbol} {showShortest right} is not a finite number"

/-- The result in words, by the operands that it came from. -/
def OverflowFault.details : OverflowFault → String
  | integer value what => s!"{showShortest value} does not fit in a 64-bit integer for {what}"
  | leastCommonMultiple a b => s!"lcm({a}, {b}) exceeds 64 bits"
  | factorial n => s!"{n}! is too large"
  | selection function n r => s!"{function}({n}, {r}) is too large"

/-- What an argument should have been, and what it was. -/
def ArgumentFault.details : ArgumentFault → String
  | size what value => s!"{what} must be a non-negative integer, got {showShortest value}"
  | noElements function => s!"{function} needs at least one element"
  | missing function position => s!"{function} is missing argument {position}"
  | unpaired function count =>
    s!"{function} needs an even number of at least 2 elements, got {count}"
  | tooFewValues function count => s!"{function} needs at least 2 values, got {count}"
  | unpairedSamples count => s!"correlation needs an even number of values, got {count}"
  | shiftAmount amount => s!"shift amount {amount} is outside 0..=63"
  | elementCount shape count =>
    s!"a {shape.text} matrix needs {min (shape.rows * shape.cols) largestCount} elements, got {count}"
  | notVector function found => s!"{function} expects a vector, found a {found.name}"
  | negativeExponent => "modpow does not support negative exponents"
  | emptyDataset function => s!"empty dataset for {function}"
  | negativeFactorial n => s!"factorial of negative number {n}"
  | negativeSelection function => s!"{function} requires non-negative n and r"
  | selectionTooLarge function n r => s!"{function} requires r <= n, got r = {r}, n = {n}"
  | negativeTrials => "binomial requires non-negative n and k"
  | successesTooMany n k => s!"binomial requires k <= n, got k = {k}, n = {n}"
  | noTrials k => s!"geometric requires k >= 1, got {k}"
  | probability p => s!"probability {showShortest p} is outside [0, 1]"
  | positiveProbability p => s!"probability {showShortest p} is outside (0, 1]"

/-- The sizes in words. -/
def ShapeFault.details : ShapeFault → String
  | vectorSizes function left right =>
    s!"{function} needs vectors of equal size, got {left} and {right}"
  | matrixShapes function left right =>
    s!"{function} needs matrices of equal shape, got {left.text} and {right.text}"
  | product left right => s!"cannot multiply a {left.text} matrix by a {right.text} matrix"
  | vectorProduct left right =>
    s!"cannot multiply a {left.text} matrix by a vector of size {right}"
  | notSquare shape => s!"determinant needs a square matrix, got {shape.text}"
  | sampleSizes left right => s!"correlation samples have {left} and {right} values"

/-- The operation in words, and what there is instead. -/
def UnsupportedFault.details : UnsupportedFault → String
  | notArithmetic op => s!"'{op.symbol}' is not an arithmetic operator"
  | notBitwise op => s!"'{op.symbol}' is not a bitwise operator"
  | notBinary op => s!"'{op.symbol}' is not a binary operator; use bnot(x)"
  | determinant shape =>
    s!"determinant of a {shape.text} matrix; only 2x2 and 3x3 are supported"

end Calculator
