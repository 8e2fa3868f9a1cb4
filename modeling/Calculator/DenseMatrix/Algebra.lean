import Calculator.DenseMatrix.Basic
import Calculator.Scalar

/-!
# The algebra of matrices

Sums, differences, products and scalings of matrices, products with vectors, transposes, and
determinants of two and of three rows. Operands whose shapes do not fit together are an error that
names both shapes. A product can have more elements than its operands together, and it fails if
they cannot be stored; every other result is of the size of an operand. Every sum runs from left to
right.
-/

set_option autoImplicit false

namespace Calculator.DenseMatrix

variable {α : Type}

/-- Combines two matrices of equal shape element by element. -/
def zip (function : String) (combine : α → α → α) (a b : DenseMatrix α) :
    Except RuntimeError (DenseMatrix α) :=
  if h : a.rows = b.rows ∧ a.cols = b.cols then
    .ok (ofFn a.rows a.cols fun r c => combine (a.get r c) (b.get (r.cast h.1) (c.cast h.2)))
  else .error (.dimensionMismatch (.matrixShapes function a.shape b.shape))

/-- Rows and columns exchanged. -/
def transpose (m : DenseMatrix α) : DenseMatrix α := ofFn m.cols m.rows fun r c => m.get c r

variable [Scalar α]

/-- The sum of two matrices of equal shape. -/
def add (a b : DenseMatrix α) : Except RuntimeError (DenseMatrix α) := zip "mat_add" (· + ·) a b

/-- The difference of two matrices of equal shape. -/
def sub (a b : DenseMatrix α) : Except RuntimeError (DenseMatrix α) := zip "mat_sub" (· - ·) a b

/-- The product of two matrices, the first with as many columns as the second has rows, if it can be
stored. -/
def mul (a b : DenseMatrix α) : Except RuntimeError (DenseMatrix α) :=
  if h : a.cols = b.rows then
    if a.rows * b.cols ≤ largestStorage then
      .ok (ofFn a.rows b.cols fun r c =>
        sum (List.ofFn fun k : Fin a.cols => a.get r k * b.get (k.cast h) c))
    else .error (.outOfStorage ⟨a.rows, b.cols⟩)
  else .error (.dimensionMismatch (.product a.shape b.shape))

/-- The product of a matrix with a vector of as many elements as it has columns, if it can be
stored. -/
def mulVector (m : DenseMatrix α) (v : List α) : Except RuntimeError (List α) :=
  if h : m.cols = v.length then
    if m.rows ≤ largestStorage then
      .ok (List.ofFn fun r : Fin m.rows =>
        sum (List.ofFn fun c : Fin m.cols => m.get r c * v.get (c.cast h)))
    else .error (.outOfStorage ⟨m.rows, 1⟩)
  else .error (.dimensionMismatch (.vectorProduct m.shape v.length))

/-- Every element times a number. -/
def scale (m : DenseMatrix α) (factor : α) : DenseMatrix α :=
  ofFn m.rows m.cols fun r c => m.get r c * factor

/-- The determinant of a matrix with two or three rows and as many columns. -/
def determinant (m : DenseMatrix α) : Except RuntimeError α :=
  if !m.isSquare then .error (.dimensionMismatch (.notSquare m.shape))
  else if h : m.rows = 2 ∧ m.cols = 2 then
    let e (r c : Fin 2) : α := m.get (r.cast h.1.symm) (c.cast h.2.symm)
    .ok (e 0 0 * e 1 1 - e 0 1 * e 1 0)
  else if h : m.rows = 3 ∧ m.cols = 3 then
    let e (r c : Fin 3) : α := m.get (r.cast h.1.symm) (c.cast h.2.symm)
    .ok (e 0 0 * e 1 1 * e 2 2 + e 0 1 * e 1 2 * e 2 0 + e 0 2 * e 1 0 * e 2 1
      - e 0 2 * e 1 1 * e 2 0 - e 0 1 * e 1 0 * e 2 2 - e 0 0 * e 1 2 * e 2 1)
  else .error (.unsupported (.determinant m.shape))

end Calculator.DenseMatrix
