import Calculator.Argument
import Calculator.Coordinates
import Calculator.DenseMatrix.Algebra

/-!
# Functions of vectors and matrices

Vectors and matrices are built from the numbers in the arguments. The pairwise vector operations
take two vectors or the two halves of their numbers; the matrix operations take matrices. A
family of operations can also be called by name, and a name outside the family is unknown only
after its operands have been read.
-/

set_option autoImplicit false

namespace Calculator

/-! ## Families of operations -/

/-- The operations on two vectors. -/
inductive VectorOp where
  | add
  | sub
  | dot
deriving DecidableEq, Repr

namespace VectorOp

/-- All operations on two vectors. -/
def all : List VectorOp := [add, sub, dot]

/-- The name under which an operation is called. -/
def name : VectorOp → String
  | add => "vec_add"
  | sub => "vec_sub"
  | dot => "vec_dot"

/-- The operation with a given name. -/
def ofName? (name : String) : Option VectorOp := all.find? fun op => op.name == name

/-- The result of an operation. -/
def apply (op : VectorOp) (a b : List Float) : Except RuntimeError Value :=
  match op with
  | add => (Coordinates.add a b).map .vector
  | sub => (Coordinates.sub a b).map .vector
  | dot => (Coordinates.dot a b).map .number

end VectorOp

/-- The operations on two matrices. -/
inductive MatrixOp where
  | add
  | sub
  | mul
deriving DecidableEq, Repr

namespace MatrixOp

/-- All operations on two matrices. -/
def all : List MatrixOp := [add, sub, mul]

/-- The name under which an operation is called. -/
def name : MatrixOp → String
  | add => "mat_add"
  | sub => "mat_sub"
  | mul => "mat_mul"

/-- The operation with a given name. -/
def ofName? (name : String) : Option MatrixOp := all.find? fun op => op.name == name

/-- The result of an operation. -/
def apply (op : MatrixOp) (a b : DenseMatrix Float) : Except RuntimeError Value :=
  match op with
  | add => (a.add b).map .matrix
  | sub => (a.sub b).map .matrix
  | mul => (a.mul b).map .matrix

end MatrixOp

namespace Handler

/-! ## Vectors -/

/-- The vector of the numbers in all arguments, of which there must be one. -/
def vector (args : List Value) : Except RuntimeError Value := do
  return .vector (← Argument.flattenNonempty "vector" args)

/-- An operation on two vectors, or on the two halves of the numbers in the arguments. -/
def vectorPair (op : VectorOp) (args : List Value) : Except RuntimeError Value := do
  let (a, b) ← Argument.splitPair op.name args
  op.apply a b

/-- A pairwise vector operation by name. -/
def vectorPairNamed (function : String) (args : List Value) : Except RuntimeError Value :=
  match VectorOp.ofName? function with
  | some op => vectorPair op args
  | none => do
    let _ ← Argument.splitPair function args
    throw (.unknownFunction function)

/-- The numbers in all arguments but the first, each times the first. -/
def scaleVector (args : List Value) : Except RuntimeError Value := do
  let factor ← Argument.number "vec_scale" args 0
  return .vector (Coordinates.scale (Argument.flatten (args.drop 1)) factor)

/-- The Euclidean norm of the numbers in all arguments. -/
def norm (args : List Value) : Except RuntimeError Value := do
  return .number (Coordinates.norm (← Argument.flattenNonempty "vec_mag" args))

/-! ## Matrices -/

/-- The matrix with the numbers of rows and columns that come first and the elements that follow. -/
def matrix (args : List Value) : Except RuntimeError Value := do
  let rows ← Integer.sizeOfNumber "matrix rows" (← Argument.number "matrix" args 0)
  let cols ← Integer.sizeOfNumber "matrix cols" (← Argument.number "matrix" args 1)
  return .matrix (← DenseMatrix.ofElements rows cols (Argument.flatten (args.drop 2)))

/-- An operation on two matrices. -/
def matrixPair (op : MatrixOp) (args : List Value) : Except RuntimeError Value := do
  let a ← Argument.matrix op.name args 0
  let b ← Argument.matrix op.name args 1
  op.apply a b

/-- An operation on two matrices by name. -/
def matrixPairNamed (function : String) (args : List Value) : Except RuntimeError Value :=
  match MatrixOp.ofName? function with
  | some op => matrixPair op args
  | none => do
    let _ ← Argument.matrix function args 0
    let _ ← Argument.matrix function args 1
    throw (.unknownFunction function)

/-- The product of a matrix with a vector. -/
def mulVector (args : List Value) : Except RuntimeError Value := do
  let m ← Argument.matrix "mat_vec_mul" args 0
  let second ← Argument.value "mat_vec_mul" args 1
  match second.vector? with
  | some v => return .vector (← m.mulVector v)
  | none => throw (.invalidArgument (.notVector "mat_vec_mul" second.type))

/-- A matrix times the number that comes before it. -/
def scaleMatrix (args : List Value) : Except RuntimeError Value := do
  let factor ← Argument.number "mat_scale" args 0
  let m ← Argument.matrix "mat_scale" args 1
  return .matrix (m.scale factor)

/-- The determinant of a matrix. -/
def determinant (args : List Value) : Except RuntimeError Value := do
  return .number (← (← Argument.matrix "mat_det" args 0).determinant)

/-- The transpose of a matrix. -/
def transpose (args : List Value) : Except RuntimeError Value := do
  return .matrix (← Argument.matrix "mat_transpose" args 0).transpose

end Handler

end Calculator
