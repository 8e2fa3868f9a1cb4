import Calculator.Error.Basic

/-!
# Matrices

A matrix holds its elements row by row, as many as its shape says. That invariant is part of the
type, and positions are bounded by the shape, so no access can miss. A size that does not fit a
64-bit word is no size of a matrix that is built from given elements.

A matrix is determined by its shape and its entries (`ext_get`), and `get_ofFn` says what the
entries of a matrix are that is built from a function of row and column.
-/

set_option autoImplicit false

namespace Calculator

/-- A matrix of any shape, with its elements in row-major order. -/
structure DenseMatrix (α : Type) where
  rows : Nat
  cols : Nat
  data : Array α
  size_eq : data.size = rows * cols
deriving DecidableEq

/-- A position that is outside a matrix of some shape. -/
structure PositionError where
  row : Nat
  col : Nat
  shape : Shape
deriving DecidableEq, Repr

/-- The error in words. -/
def PositionError.message (error : PositionError) : String :=
  s!"({error.row}, {error.col}) is outside a {error.shape.text} matrix"

namespace DenseMatrix

variable {α : Type}

/-! ## Contents -/

/-- The numbers of rows and columns. -/
def shape (m : DenseMatrix α) : Shape := ⟨m.rows, m.cols⟩

/-- Whether there are as many rows as columns. -/
def isSquare (m : DenseMatrix α) : Bool := m.rows == m.cols

/-- The elements in row-major order. -/
def elements (m : DenseMatrix α) : List α := m.data.toList

/-- A position within a shape, counted in row-major order, is within the size. -/
theorem index_lt {rows cols r c : Nat} (hr : r < rows) (hc : c < cols) :
    r * cols + c < rows * cols :=
  calc r * cols + c < r * cols + cols := by omega
    _ = (r + 1) * cols := by rw [Nat.add_mul, Nat.one_mul]
    _ ≤ rows * cols := Nat.mul_le_mul_right cols hr

/-- The element at a position. -/
def get (m : DenseMatrix α) (r : Fin m.rows) (c : Fin m.cols) : α :=
  have : r.val * m.cols + c.val < m.data.size := by
    rw [m.size_eq]; exact index_lt r.isLt c.isLt
  m.data[r.val * m.cols + c.val]

/-- The element at a row and a column, if both are within the matrix. -/
def get? (m : DenseMatrix α) (row col : Nat) : Option α :=
  if h : row < m.rows ∧ col < m.cols then some (m.get ⟨row, h.1⟩ ⟨col, h.2⟩) else none

/-- The element at a row and a column, or the error that there is none. -/
def entry (m : DenseMatrix α) (row col : Nat) : Except PositionError α :=
  match m.get? row col with
  | some x => .ok x
  | none => .error ⟨row, col, m.shape⟩

/-! ## Construction -/

/-- The matrix of a shape with the elements of a function of row and column. -/
def ofFn (rows cols : Nat) (element : Fin rows → Fin cols → α) : DenseMatrix α where
  rows := rows
  cols := cols
  data := Array.ofFn fun k : Fin (rows * cols) =>
    have positive : 0 < cols := Nat.pos_of_ne_zero fun h => by
      have := k.isLt; simp [h] at this
    element
      ⟨k.val / cols, Nat.div_lt_of_lt_mul (Nat.lt_of_lt_of_eq k.isLt (Nat.mul_comm rows cols))⟩
      ⟨k.val % cols, Nat.mod_lt _ positive⟩
  size_eq := Array.size_ofFn

/-- The matrix of a shape with given elements in row-major order, if they are as many as the shape
says and their number fits a 64-bit word. -/
def ofElements (rows cols : Nat) (elements : List α) : Except RuntimeError (DenseMatrix α) :=
  if h : rows * cols ≤ largestCount ∧ elements.length = rows * cols then
    .ok ⟨rows, cols, elements.toArray, by simp [h.2]⟩
  else .error (.invalidArgument (.elementCount ⟨rows, cols⟩ elements.length))

/-! ## Small laws -/

theorem length_elements (m : DenseMatrix α) : m.elements.length = m.rows * m.cols := by
  simp [elements, m.size_eq]

theorem get?_of_lt (m : DenseMatrix α) {r c : Nat} (hr : r < m.rows) (hc : c < m.cols) :
    m.get? r c = some (m.get ⟨r, hr⟩ ⟨c, hc⟩) := by
  simp [get?, hr, hc]

/-- The entries of a matrix built from a function are the values of the function. -/
theorem get_ofFn {rows cols : Nat} (element : Fin rows → Fin cols → α) (r : Fin rows)
    (c : Fin cols) : (ofFn rows cols element).get r c = element r c := by
  have positive : 0 < cols := Nat.lt_of_le_of_lt (Nat.zero_le _) c.isLt
  have row : (r.val * cols + c.val) / cols = r.val := by
    rw [Nat.mul_comm, Nat.mul_add_div positive, Nat.div_eq_of_lt c.isLt, Nat.add_zero]
  have col : (r.val * cols + c.val) % cols = c.val := by
    rw [Nat.mul_comm, Nat.mul_add_mod, Nat.mod_eq_of_lt c.isLt]
  simp [get, ofFn, row, col]

/-- Two matrices of the same shape with the same entries are the same. -/
theorem ext_get {m n : DenseMatrix α} (rows : m.rows = n.rows) (cols : m.cols = n.cols)
    (entries : ∀ (r : Fin m.rows) (c : Fin m.cols), m.get r c = n.get (r.cast rows) (c.cast cols)) :
    m = n := by
  obtain ⟨rowsM, colsM, dataM, sizeM⟩ := m
  obtain ⟨rowsN, colsN, dataN, sizeN⟩ := n
  simp only at rows cols
  subst rows cols
  have : dataM = dataN := by
    apply Array.ext
    · rw [sizeM, sizeN]
    · intro i hi _
      rw [sizeM] at hi
      have positive : 0 < colsM := Nat.pos_of_ne_zero fun h => by simp [h] at hi
      have row : i / colsM < rowsM := Nat.div_lt_of_lt_mul (by rwa [Nat.mul_comm] at hi)
      have whole : i / colsM * colsM + i % colsM = i := Nat.div_add_mod' i colsM
      simpa [get, whole] using entries ⟨i / colsM, row⟩ ⟨i % colsM, Nat.mod_lt _ positive⟩
  subst this
  rfl

end DenseMatrix

end Calculator
