import Calculator.Builtin.Table
import Calculator.Proofs.Guarded.Matrix
import Calculator.Proofs.Guarded.Samples

/-!
# Functions that look where they reach

The functions that read by index, split a list or build a matrix are given in
their guarded form, which takes any list of argument values and returns a bare
value: the measures of a sample, the correlation, the pairwise operations on
vectors and sets, and everything with a matrix. They read single arguments as
the model does, with an error where there is none. All other functions are
permitted as they are (`Builtin.guarded`).

A function of the model and its guarded form have the same outcome, the matrix
of a result without its proof (`settle`). So none of them misses, whatever the
arguments and however many (`Builtin.guarded_eq`), also when a family of
operations is called by a name, known or not.
-/

set_option autoImplicit false

namespace Calculator

open Guarded (permit permit_bind)

/-! ## Bare values -/

/-- A value whose matrix need not have the size of its shape. -/
inductive BareValue where
  | number (x : Float)
  | vector (xs : List Float)
  | matrix (m : BareMatrix Float)
deriving DecidableEq

/-- A value without the proof about the size of its matrix. -/
def Value.bare : Value → BareValue
  | number x => .number x
  | vector xs => .vector xs
  | matrix m => .matrix m.bare

/-- If the value is a matrix, its buffer has as many elements as its shape says. -/
def BareValue.Exact : BareValue → Prop
  | matrix m => m.Exact
  | _ => True

theorem Value.exact_bare (v : Value) : v.bare.Exact := by
  cases v with
  | number x => trivial
  | vector xs => trivial
  | matrix m => exact BareMatrix.exact_bare m

/-- The outcome of the model as that of a guarded computation. -/
def settle (plain : Except RuntimeError Value) : Guarded BareValue := permit (plain.map Value.bare)

/-- A guarded computation settles if its first step cannot miss and the rest settles on every result
of that step. -/
theorem settle_bind {α : Type} {first : Except RuntimeError α}
    {guarded : α → Guarded BareValue} {next : α → Except RuntimeError Value}
    (settles : ∀ result, first = .ok result → guarded result = settle (next result)) :
    permit first >>= guarded = settle (first >>= next) := by
  cases first with
  | error error => rfl
  | ok result => exact settles result rfl

namespace Guarded

/-! ## Samples -/

/-- The measure of a sample. -/
def ofSample : Measure → List Float → Guarded Float
  | .median => median
  | .mode => mode
  | m => fun data => permit (m.ofSample data)

/-- The measure of the numbers in all arguments, in the name of `function`. -/
def aggregate (function : String) (measure : Measure) (args : List Value) : Guarded BareValue := do
  let data ← permit (Argument.flattenNonempty function args)
  return .number (← ofSample measure data)

/-- The correlation coefficient of the two halves of the numbers in the arguments. -/
def correlation (args : List Value) : Guarded BareValue := do
  let data := Argument.flatten args
  if data.isEmpty ∨ data.length % 2 ≠ 0 then
    .error (.failure (.invalidArgument (.unpairedSamples data.length)))
  else
    let (x, y) ← splitOff data (data.length / 2)
    return .number (← permit (Statistics.correlation x y))

theorem ofSample_eq (measure : Measure) (data : List Float) :
    ofSample measure data = permit (measure.ofSample data) := by
  cases measure with
  | median => exact median_eq data
  | mode => exact mode_eq data
  | mean | variance | deviation => rfl

theorem aggregate_eq (function : String) (measure : Measure) (args : List Value) :
    aggregate function measure args = settle (Handler.aggregate function measure args) := by
  rw [aggregate, Handler.aggregate]
  refine settle_bind fun data _ => ?_
  rw [ofSample_eq]
  exact settle_bind fun result _ => rfl

theorem correlation_eq (args : List Value) :
    correlation args = settle (Handler.correlation args) := by
  rw [correlation, Handler.correlation]
  dsimp only
  split
  case isTrue => rfl
  case isFalse =>
    rw [splitOff_half]
    exact settle_bind fun result _ => rfl

/-! ## Pairs of vectors -/

/-- An operation on two vectors, or on the two halves of the numbers in the arguments. -/
def vectorPair (op : VectorOp) (args : List Value) : Guarded BareValue := do
  let (a, b) ← splitPair op.name args
  settle (op.apply a b)

/-- An operation on two sets, or on the two halves of the numbers in the arguments. -/
def setPair (op : SetOp) (args : List Value) : Guarded BareValue := do
  let (a, b) ← splitPair op.name args
  return .vector (op.apply a b)

theorem vectorPair_eq (op : VectorOp) (args : List Value) :
    vectorPair op args = settle (Handler.vectorPair op args) := by
  rw [vectorPair, Handler.vectorPair, splitPair_eq]
  exact settle_bind fun operands _ => rfl

theorem setPair_eq (op : SetOp) (args : List Value) :
    setPair op args = settle (Handler.setPair op args) := by
  rw [setPair, Handler.setPair, splitPair_eq]
  exact settle_bind fun operands _ => rfl

/-! ## Matrices -/

/-- The matrix with the numbers of rows and columns that come first and the elements that follow. -/
def matrix (args : List Value) : Guarded BareValue := do
  let height ← permit (Argument.number "matrix" args 0)
  let rows ← permit (Integer.sizeOfNumber "matrix rows" height)
  let width ← permit (Argument.number "matrix" args 1)
  let cols ← permit (Integer.sizeOfNumber "matrix cols" width)
  return .matrix (← BareMatrix.new (.ofNat rows) (.ofNat cols) (Argument.flatten (args.drop 2)))

/-- The result of an operation on two matrices. -/
def combine (op : MatrixOp) (a b : BareMatrix Float) : Guarded (BareMatrix Float) :=
  match op with
  | .add => a.zip "mat_add" (· + ·) b
  | .sub => a.zip "mat_sub" (· - ·) b
  | .mul => a.mul b

/-- An operation on two matrices. -/
def matrixPair (op : MatrixOp) (args : List Value) : Guarded BareValue := do
  let a ← permit (Argument.matrix op.name args 0)
  let b ← permit (Argument.matrix op.name args 1)
  return .matrix (← combine op a.bare b.bare)

/-- The product of a matrix with a vector. -/
def mulVector (args : List Value) : Guarded BareValue := do
  let m ← permit (Argument.matrix "mat_vec_mul" args 0)
  let second ← permit (Argument.value "mat_vec_mul" args 1)
  match second.vector? with
  | some v => return .vector (← m.bare.mulVector v)
  | none => .error (.failure (.invalidArgument (.notVector "mat_vec_mul" second.type)))

/-- A matrix times the number that comes before it. -/
def scaleMatrix (args : List Value) : Guarded BareValue := do
  let factor ← permit (Argument.number "mat_scale" args 0)
  let m ← permit (Argument.matrix "mat_scale" args 1)
  return .matrix (← m.bare.scale factor)

/-- The determinant of a matrix. -/
def determinant (args : List Value) : Guarded BareValue := do
  let m ← permit (Argument.matrix "mat_det" args 0)
  return .number (← m.bare.determinant)

/-- The transpose of a matrix. -/
def transpose (args : List Value) : Guarded BareValue := do
  let m ← permit (Argument.matrix "mat_transpose" args 0)
  return .matrix (← m.bare.transpose)

/-- A size fits a word. -/
theorem toNat_ofNat_size {what : String} {x : Float} {n : Nat}
    (size : Integer.sizeOfNumber what x = .ok n) : (UInt64.ofNat n).toNat = n := by
  rw [Integer.sizeOfNumber] at size
  split at size
  case h_1 whole integer =>
    split at size
    case isTrue fits =>
      have limit : largestCount + 1 = 2 ^ 64 := rfl
      cases size
      rw [UInt64.toNat_ofNat']
      exact Nat.mod_eq_of_lt (by omega)
    case isFalse => cases size
  case h_2 => cases size

/-- Settled matrices are those of the model without their proofs. -/
theorem settle_matrix (plain : Except RuntimeError (DenseMatrix Float)) :
    (do return .matrix (← permit (plain.map DenseMatrix.bare))) = settle (plain.map .matrix) := by
  cases plain with
  | error error => rfl
  | ok m => rfl

theorem matrix_eq (args : List Value) : matrix args = settle (Handler.matrix args) := by
  rw [matrix, Handler.matrix]
  refine settle_bind fun height _ => settle_bind fun rows readRows => ?_
  refine settle_bind fun width _ => settle_bind fun cols readCols => ?_
  rw [BareMatrix.new_eq, toNat_ofNat_size readRows, toNat_ofNat_size readCols]
  exact settle_matrix _

theorem combine_eq (op : MatrixOp) (a b : DenseMatrix Float) :
    (do return .matrix (← combine op a.bare b.bare)) = settle (op.apply a b) := by
  cases op with
  | add =>
      rw [combine, BareMatrix.zip_bare]
      exact settle_matrix (a.add b)
  | sub =>
      rw [combine, BareMatrix.zip_bare]
      exact settle_matrix (a.sub b)
  | mul =>
      rw [combine, BareMatrix.mul_bare]
      exact settle_matrix (a.mul b)

theorem matrixPair_eq (op : MatrixOp) (args : List Value) :
    matrixPair op args = settle (Handler.matrixPair op args) := by
  rw [matrixPair, Handler.matrixPair]
  exact settle_bind fun a _ => settle_bind fun b _ => combine_eq op a b

theorem mulVector_eq (args : List Value) : mulVector args = settle (Handler.mulVector args) := by
  rw [mulVector, Handler.mulVector]
  refine settle_bind fun m _ => settle_bind fun second _ => ?_
  cases second.vector? with
  | none => rfl
  | some v =>
      dsimp only
      rw [BareMatrix.mulVector_bare]
      exact settle_bind fun product _ => rfl

theorem scaleMatrix_eq (args : List Value) :
    scaleMatrix args = settle (Handler.scaleMatrix args) := by
  rw [scaleMatrix, Handler.scaleMatrix]
  refine settle_bind fun factor _ => settle_bind fun m _ => ?_
  rw [BareMatrix.scale_bare]
  rfl

theorem determinant_eq (args : List Value) :
    determinant args = settle (Handler.determinant args) := by
  rw [determinant, Handler.determinant]
  refine settle_bind fun m _ => ?_
  rw [BareMatrix.determinant_bare]
  exact settle_bind fun result _ => rfl

theorem transpose_eq (args : List Value) : transpose args = settle (Handler.transpose args) := by
  rw [transpose, Handler.transpose]
  refine settle_bind fun m _ => ?_
  rw [BareMatrix.transpose_bare]
  rfl

/-! ## Families by name -/

/-- An operation of a family by its name; an unknown name is an error only after the operands are
read. -/
def byName {ι ω : Type} (member? : Option ι) (call : ι → Guarded BareValue)
    (operands : Guarded ω) (function : String) : Guarded BareValue :=
  match member? with
  | some op => call op
  | none => do
    let _ ← operands
    .error (.failure (.unknownFunction function))

/-- A pairwise vector operation by name. -/
def vectorPairNamed (function : String) (args : List Value) : Guarded BareValue :=
  byName (VectorOp.ofName? function) (vectorPair · args) (splitPair function args) function

/-- A set operation by name. -/
def setPairNamed (function : String) (args : List Value) : Guarded BareValue :=
  byName (SetOp.ofName? function) (setPair · args) (splitPair function args) function

/-- An operation on two matrices by name. -/
def matrixPairNamed (function : String) (args : List Value) : Guarded BareValue :=
  byName (MatrixOp.ofName? function) (matrixPair · args)
    (do
      let _ ← permit (Argument.matrix function args 0)
      permit (Argument.matrix function args 1)) function

theorem settle_unknown {ω : Type} (operands : Except RuntimeError ω) (function : String) :
    (do
      let _ ← permit operands
      .error (.failure (.unknownFunction function))) =
    settle (do
      let _ ← operands
      throw (.unknownFunction function)) :=
  settle_bind fun _ _ => rfl

theorem vectorPairNamed_eq (function : String) (args : List Value) :
    vectorPairNamed function args = settle (Handler.vectorPairNamed function args) := by
  rw [vectorPairNamed, Handler.vectorPairNamed, splitPair_eq]
  cases VectorOp.ofName? function with
  | some op => exact vectorPair_eq op args
  | none => exact settle_unknown (Argument.splitPair function args) function

theorem setPairNamed_eq (function : String) (args : List Value) :
    setPairNamed function args = settle (Handler.setPairNamed function args) := by
  rw [setPairNamed, Handler.setPairNamed, splitPair_eq]
  cases SetOp.ofName? function with
  | some op => exact setPair_eq op args
  | none => exact settle_unknown (Argument.splitPair function args) function

theorem matrixPairNamed_eq (function : String) (args : List Value) :
    matrixPairNamed function args = settle (Handler.matrixPairNamed function args) := by
  rw [matrixPairNamed, Handler.matrixPairNamed, ← permit_bind]
  cases MatrixOp.ofName? function with
  | some op => exact matrixPair_eq op args
  | none =>
      refine (settle_unknown _ function).trans ?_
      rw [bind_assoc]

end Guarded

/-! ## All functions -/

/-- The guarded form of a function. -/
def Builtin.guarded : Builtin → List Value → Guarded BareValue
  | measure m => Guarded.aggregate m.name m
  | correlation => Guarded.correlation
  | matrix => Guarded.matrix
  | vectorPair op => Guarded.vectorPair op
  | matrixPair op => Guarded.matrixPair op
  | mulVector => Guarded.mulVector
  | scaleMatrix => Guarded.scaleMatrix
  | determinant => Guarded.determinant
  | transpose => Guarded.transpose
  | setPair op => Guarded.setPair op
  | function => fun args => settle (function.apply args)

/-- A function and its guarded form have the same outcome on any arguments. -/
theorem Builtin.guarded_eq (function : Builtin) (args : List Value) :
    function.guarded args = settle (function.apply args) := by
  cases function with
  | measure m => exact Guarded.aggregate_eq m.name m args
  | correlation => exact Guarded.correlation_eq args
  | matrix => exact Guarded.matrix_eq args
  | vectorPair op => exact Guarded.vectorPair_eq op args
  | matrixPair op => exact Guarded.matrixPair_eq op args
  | mulVector => exact Guarded.mulVector_eq args
  | scaleMatrix => exact Guarded.scaleMatrix_eq args
  | determinant => exact Guarded.determinant_eq args
  | transpose => exact Guarded.transpose_eq args
  | setPair op => exact Guarded.setPair_eq op args
  | _ => rfl

end Calculator
