import Calculator.Proofs.DenseMatrix.Rows
import Calculator.Proofs.Guarded.Access

/-!
# Matrices whose size is not taken for granted

A bare matrix is a shape and a buffer with nothing known about the two. It is
`Exact` if the buffer has as many elements as the shape says, which every matrix
of the model has by its type (`exact_bare`).

**Building.** The size of a shape is computed in 64-bit words. Where that product
would wrap around there is no size, so a shape is accepted only if the numbers of
rows and columns themselves have it as their product (`exact_of_new`), and the
model accepts the same shapes (`new_eq`).

**Reading.** A position is tested against the shape, as `entry` does it
(`get_bare_eq_entry`), and then its place is tested against the buffer. Every
operation below reads its operands that way and builds its result row by row.
Applied to exact matrices it never misses, and its result is that of the model:
`zip_bare`, `mul_bare`, `mulVector_bare`, `scale_bare`, `transpose_bare` and
`determinant_bare`, the last with fixed places in the buffer.
-/

set_option autoImplicit false

namespace Calculator

open Guarded (permit element element_of_lt mapM_range)

/-- A shape and a buffer. -/
structure BareMatrix (α : Type) where
  rows : Nat
  cols : Nat
  buffer : List α
deriving DecidableEq

/-- A matrix without the proof about its size. -/
def DenseMatrix.bare {α : Type} (m : DenseMatrix α) : BareMatrix α := ⟨m.rows, m.cols, m.elements⟩

namespace BareMatrix

variable {α : Type}

/-- The buffer has as many elements as the shape says. -/
def Exact (m : BareMatrix α) : Prop := m.buffer.length = m.rows * m.cols

instance (m : BareMatrix α) : Decidable m.Exact := inferInstanceAs (Decidable (_ = _))

/-- The numbers of rows and columns. -/
def shape (m : BareMatrix α) : Shape := ⟨m.rows, m.cols⟩

theorem exact_bare (m : DenseMatrix α) : m.bare.Exact := m.length_elements

/-! ## Building -/

/-- The product of two words, unless it wraps around. -/
def checkedMul (a b : UInt64) : Option UInt64 :=
  if BitVec.umulOverflow a.toBitVec b.toBitVec then none else some (a * b)

/-- The matrix of a shape with given elements, if they are as many as the shape says. -/
def new (rows cols : UInt64) (data : List α) : Guarded (BareMatrix α) :=
  match checkedMul rows cols with
  | some expected =>
    if expected.toNat = data.length then .ok ⟨rows.toNat, cols.toNat, data⟩
    else .error (.failure (.invalidArgument
      (.elementCount ⟨rows.toNat, cols.toNat⟩ data.length)))
  | none => .error (.failure (.invalidArgument
      (.elementCount ⟨rows.toNat, cols.toNat⟩ data.length)))

/-- The matrix of a shape whose elements are computed row by row. -/
def fromFn (rows cols : Nat) (entry : Nat → Nat → Guarded α) : Guarded (BareMatrix α) := do
  let lines ← (List.range rows).mapM fun r => (List.range cols).mapM fun c => entry r c
  return ⟨rows, cols, lines.flatten⟩

/-- The product of two words is that of their numbers where that fits a word, and is missing
elsewhere. -/
theorem checkedMul_eq (a b : UInt64) :
    (checkedMul a b).map UInt64.toNat =
      if a.toNat * b.toNat ≤ largestCount then some (a.toNat * b.toNat) else none := by
  have limit : largestCount + 1 = 2 ^ 64 := rfl
  rw [checkedMul, BitVec.umulOverflow]
  by_cases fits : a.toNat * b.toNat ≤ largestCount
  · have small : ¬ a.toBitVec.toNat * b.toBitVec.toNat ≥ 2 ^ 64 := by
      simp only [UInt64.toNat_toBitVec]
      omega
    rw [if_pos fits, if_neg (by simpa using small), Option.map_some, UInt64.toNat_mul,
      Nat.mod_eq_of_lt (by omega)]
  · have large : a.toBitVec.toNat * b.toBitVec.toNat ≥ 2 ^ 64 := by
      simp only [UInt64.toNat_toBitVec]
      omega
    rw [if_neg fits, if_pos (by simpa using large), Option.map_none]

/-- The model accepts the same shapes for the same elements. -/
theorem new_eq (rows cols : UInt64) (data : List α) :
    new rows cols data =
      permit ((DenseMatrix.ofElements rows.toNat cols.toNat data).map DenseMatrix.bare) := by
  have product := checkedMul_eq rows cols
  rw [new, DenseMatrix.ofElements]
  cases expected : checkedMul rows cols with
  | none =>
      rw [expected] at product
      split at product
      case isTrue => cases product
      case isFalse large =>
        rw [dif_neg fun h => large h.1]
        rfl
  | some count =>
      rw [expected] at product
      split at product
      case isFalse => cases product
      case isTrue fits =>
        have value : count.toNat = rows.toNat * cols.toNat := Option.some.inj product
        simp only [value]
        by_cases same : data.length = rows.toNat * cols.toNat
        · rw [if_pos same.symm, dif_pos ⟨fits, same⟩]
          simp [permit, Except.map, Except.mapError, DenseMatrix.bare, DenseMatrix.elements]
        · rw [if_neg fun h => same h.symm, dif_neg fun h => same h.2]
          rfl

/-- A shape that is accepted has its size without any wrapping around. -/
theorem exact_of_new {rows cols : UInt64} {data : List α} {m : BareMatrix α}
    (built : new rows cols data = .ok m) :
    data.length = rows.toNat * cols.toNat ∧ m = ⟨rows.toNat, cols.toNat, data⟩ := by
  rw [new_eq, DenseMatrix.ofElements] at built
  split at built
  case isTrue accepted =>
    refine ⟨accepted.2, ?_⟩
    simpa [permit, Except.map, Except.mapError, DenseMatrix.bare, DenseMatrix.elements,
      eq_comm] using built
  case isFalse => cases built

/-- The product of these sizes wraps around to zero, and they are refused without any elements. -/
example : (4294967296 * 4294967296 : UInt64) = 0 ∧
    new 4294967296 4294967296 ([] : List Nat) = .error (.failure (.invalidArgument
      (.elementCount ⟨4294967296, 4294967296⟩ 0))) := by decide +kernel

/-- Built from a function that has a value at every position, a matrix is that of the values. -/
theorem fromFn_eq {rows cols : Nat} {entry : Nat → Nat → Guarded α}
    {value : Fin rows → Fin cols → α}
    (found : ∀ (r : Fin rows) (c : Fin cols), entry r c = .ok (value r c)) :
    fromFn rows cols entry = .ok (DenseMatrix.ofFn rows cols value).bare := by
  have lines : ((List.range rows).mapM fun r => (List.range cols).mapM fun c => entry r c) =
      .ok (List.ofFn fun r => List.ofFn fun c => value r c) :=
    mapM_range fun r => mapM_range fun c => found r c
  rw [fromFn, lines, DenseMatrix.bare, DenseMatrix.elements_ofFn]
  rfl

/-! ## Reading -/

/-- The element at a position: first the position is tested, then its place in the buffer. -/
def get (m : BareMatrix α) (r c : Nat) : Guarded α :=
  if r < m.rows ∧ c < m.cols then element m.buffer (r * m.cols + c)
  else .error (.miss (.position ⟨r, c, m.shape⟩))

/-- The entry at a position stands in its place in the buffer. -/
theorem element_place (m : DenseMatrix α) (r : Fin m.rows) (c : Fin m.cols) :
    element m.elements (r * m.cols + c) = .ok (m.get r c) := by
  have inside : r.val * m.cols + c.val < m.elements.length := by
    rw [m.length_elements]
    exact DenseMatrix.index_lt r.isLt c.isLt
  exact element_of_lt inside

theorem get_bare (m : DenseMatrix α) (r : Fin m.rows) (c : Fin m.cols) :
    m.bare.get r c = .ok (m.get r c) := by
  rw [get, if_pos ⟨r.isLt, c.isLt⟩]
  exact element_place m r c

/-- A position misses an exact matrix exactly if there is no entry of the model. -/
theorem get_bare_eq_entry (m : DenseMatrix α) (r c : Nat) :
    m.bare.get r c = (m.entry r c).mapError fun error => .miss (.position error) := by
  by_cases inside : r < m.rows ∧ c < m.cols
  · rw [DenseMatrix.entry, m.get?_of_lt inside.1 inside.2]
    exact get_bare m ⟨r, inside.1⟩ ⟨c, inside.2⟩
  · rw [DenseMatrix.entry, DenseMatrix.get?, dif_neg inside]
    exact if_neg inside

/-- A buffer that is too short for its shape is missed. -/
example : get ⟨2, 3, [1, 2, 3, 4, 5]⟩ 1 2 = .error (.miss (.index 5 5)) := rfl

/-! ## Operations -/

/-- Combines two matrices of equal shape element by element. -/
def zip (function : String) (combine : α → α → α) (a b : BareMatrix α) :
    Guarded (BareMatrix α) :=
  if a.rows = b.rows ∧ a.cols = b.cols then
    fromFn a.rows a.cols fun r c => do return combine (← a.get r c) (← b.get r c)
  else .error (.failure (.dimensionMismatch (.matrixShapes function a.shape b.shape)))

/-- Rows and columns exchanged. -/
def transpose (m : BareMatrix α) : Guarded (BareMatrix α) :=
  fromFn m.cols m.rows fun r c => m.get c r

theorem zip_bare (function : String) (combine : α → α → α) (a b : DenseMatrix α) :
    a.bare.zip function combine b.bare =
      permit ((a.zip function combine b).map DenseMatrix.bare) := by
  rw [zip, DenseMatrix.zip]
  by_cases shapes : a.rows = b.rows ∧ a.cols = b.cols
  · rw [dif_pos shapes]
    refine (if_pos shapes).trans (fromFn_eq fun r c => ?_)
    have left : a.bare.get r c = _ := get_bare a r c
    have right : b.bare.get r c = _ := get_bare b (r.cast shapes.1) (c.cast shapes.2)
    rw [left, right]
    rfl
  · rw [dif_neg shapes]
    exact if_neg shapes

theorem transpose_bare (m : DenseMatrix α) : m.bare.transpose = .ok m.transpose.bare :=
  fromFn_eq fun r c => get_bare m c r

variable [Scalar α]

/-- The product of two matrices, the first with as many columns as the second has rows, if it can be
stored. -/
def mul (a b : BareMatrix α) : Guarded (BareMatrix α) :=
  if a.cols = b.rows then
    if a.rows * b.cols ≤ largestStorage then
      fromFn a.rows b.cols fun r c => do
        let products ← (List.range a.cols).mapM fun k => do
          return (← a.get r k) * (← b.get k c)
        return sum products
    else .error (.failure (.outOfStorage ⟨a.rows, b.cols⟩))
  else .error (.failure (.dimensionMismatch (.product a.shape b.shape)))

/-- The product of a matrix with a vector of as many elements as it has columns, if it can be
stored. -/
def mulVector (m : BareMatrix α) (v : List α) : Guarded (List α) :=
  if m.cols = v.length then
    if m.rows ≤ largestStorage then
      (List.range m.rows).mapM fun r => do
        let products ← (List.range m.cols).mapM fun c => do
          return (← m.get r c) * (← element v c)
        return sum products
    else .error (.failure (.outOfStorage ⟨m.rows, 1⟩))
  else .error (.failure (.dimensionMismatch (.vectorProduct m.shape v.length)))

/-- Every element times a number. -/
def scale (m : BareMatrix α) (factor : α) : Guarded (BareMatrix α) :=
  fromFn m.rows m.cols fun r c => do return (← m.get r c) * factor

/-- The determinant of a matrix with two or three rows and as many columns, by the places of its
elements in the buffer. -/
def determinant (m : BareMatrix α) : Guarded α :=
  let d := element m.buffer
  if m.rows ≠ m.cols then .error (.failure (.dimensionMismatch (.notSquare m.shape)))
  else match m.rows with
  | 2 => do return (← d 0) * (← d 3) - (← d 1) * (← d 2)
  | 3 => do
    return (← d 0) * (← d 4) * (← d 8) + (← d 1) * (← d 5) * (← d 6)
      + (← d 2) * (← d 3) * (← d 7) - (← d 2) * (← d 4) * (← d 6)
      - (← d 1) * (← d 3) * (← d 8) - (← d 0) * (← d 5) * (← d 7)
  | _ => .error (.failure (.unsupported (.determinant m.shape)))

theorem mul_bare (a b : DenseMatrix α) :
    a.bare.mul b.bare = permit ((a.mul b).map DenseMatrix.bare) := by
  rw [mul, DenseMatrix.mul]
  by_cases inner : a.cols = b.rows
  · rw [dif_pos inner]
    refine (if_pos inner).trans ?_
    by_cases stored : a.rows * b.cols ≤ largestStorage
    · rw [if_pos stored]
      refine (if_pos stored).trans (fromFn_eq fun r c => ?_)
      have products : ((List.range a.bare.cols).mapM fun k => do
          return (← a.bare.get r k) * (← b.bare.get k c)) =
          .ok (List.ofFn fun k : Fin a.cols => a.get r k * b.get (k.cast inner) c) := by
        refine mapM_range fun k => ?_
        have left : a.bare.get r k = _ := get_bare a r k
        have right : b.bare.get k c = _ := get_bare b (k.cast inner) c
        rw [left, right]
        rfl
      rw [products]
      rfl
    · rw [if_neg stored]
      exact if_neg stored
  · rw [dif_neg inner]
    exact if_neg inner

theorem mulVector_bare (m : DenseMatrix α) (v : List α) :
    m.bare.mulVector v = permit (m.mulVector v) := by
  rw [mulVector, DenseMatrix.mulVector]
  by_cases size : m.cols = v.length
  · rw [dif_pos size]
    refine (if_pos size).trans ?_
    by_cases stored : m.rows ≤ largestStorage
    · rw [if_pos stored]
      refine (if_pos stored).trans (mapM_range fun r => ?_)
      have products : ((List.range m.bare.cols).mapM fun c => do
          return (← m.bare.get r c) * (← element v c)) =
          .ok (List.ofFn fun c : Fin m.cols => m.get r c * v.get (c.cast size)) := by
        refine mapM_range fun c => ?_
        have left : m.bare.get r c = _ := get_bare m r c
        have right : element v c = _ := element_of_lt (c.cast size).isLt
        rw [left, right]
        rfl
      rw [products]
      rfl
    · rw [if_neg stored]
      exact if_neg stored
  · rw [dif_neg size]
    exact if_neg size

theorem scale_bare (m : DenseMatrix α) (factor : α) :
    m.bare.scale factor = .ok (m.scale factor).bare := by
  refine fromFn_eq fun r c => ?_
  have entry : m.bare.get r c = _ := get_bare m r c
  rw [entry]
  rfl

/-- The fixed places are within a square matrix of two or three rows. -/
theorem determinant_bare (m : DenseMatrix α) : m.bare.determinant = permit m.determinant := by
  by_cases square : m.rows = m.cols
  · obtain ⟨rows, cols, data, size⟩ := m
    obtain rfl : rows = cols := square
    have place := element_place ⟨rows, rows, data, size⟩
    match rows with
    | 0 => rfl
    | 1 => rfl
    | 2 =>
        have d0 : element data.toList 0 = _ := place 0 0
        have d1 : element data.toList 1 = _ := place 0 1
        have d2 : element data.toList 2 = _ := place 1 0
        have d3 : element data.toList 3 = _ := place 1 1
        simp only [determinant, DenseMatrix.bare, DenseMatrix.elements, d0, d1, d2, d3]
        rfl
    | 3 =>
        have d0 : element data.toList 0 = _ := place 0 0
        have d1 : element data.toList 1 = _ := place 0 1
        have d2 : element data.toList 2 = _ := place 0 2
        have d3 : element data.toList 3 = _ := place 1 0
        have d4 : element data.toList 4 = _ := place 1 1
        have d5 : element data.toList 5 = _ := place 1 2
        have d6 : element data.toList 6 = _ := place 2 0
        have d7 : element data.toList 7 = _ := place 2 1
        have d8 : element data.toList 8 = _ := place 2 2
        simp only [determinant, DenseMatrix.bare, DenseMatrix.elements, d0, d1, d2, d3, d4, d5, d6,
          d7, d8]
        rfl
    | rows + 4 =>
        simp [determinant, DenseMatrix.determinant, DenseMatrix.isSquare, DenseMatrix.bare, permit]
        rfl
  · have notSquare : (!m.isSquare) = true := by simpa [DenseMatrix.isSquare] using square
    rw [determinant, DenseMatrix.determinant, if_pos notSquare]
    exact if_pos square

end BareMatrix

end Calculator
