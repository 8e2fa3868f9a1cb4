import Calculator.Binary64.Conversion

/-!
# Arithmetic that computations are generic over

Matrix and vector operations use addition, subtraction and multiplication only, and the counting
functions also division and integers. They are written over the classes below, so that the same
definition computes with binary64 numbers and can be read over exact numbers.

The sum of no binary64 numbers is the negative zero, which is the number that addition leaves
every number unchanged with.
-/

set_option autoImplicit false

namespace Calculator

/-- Sums, differences and products, and the value of an empty sum. -/
class Scalar (α : Type) extends Add α, Sub α, Mul α where
  emptySum : α

/-- Scalars that also have quotients and integers, and that may leave their range. -/
class CountingScalar (α : Type) extends Scalar α, Div α where
  ofInt : Int → α
  isInfinite : α → Bool

instance : Scalar Float where
  emptySum := -0.0

instance : CountingScalar Float where
  ofInt := Binary64.ofInt
  isInfinite := Binary64.isInfinite

/-- The sum of a list, from left to right. -/
def sum {α : Type} [Scalar α] (xs : List α) : α := xs.foldl (· + ·) Scalar.emptySum

end Calculator
