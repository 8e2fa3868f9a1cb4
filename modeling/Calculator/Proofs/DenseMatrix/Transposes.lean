import Calculator.Proofs.Binary64.Arithmetic
import Calculator.Proofs.DenseMatrix.Rows

/-!
# Transposes

The entry of a transpose in a row and a column is that of the matrix in the column
and the row (`get_transpose`), so the rows of a transpose are the columns of the
matrix and the columns are its rows (`row_transpose`, `column_transpose`). To
transpose twice is to do nothing (`transpose_transpose`), for every shape: where
there are no rows there are no entries to lose, and the number of columns is kept.

An entry of a product is a sum of products over a row of the first matrix and a
column of the second. The transposes multiply in the opposite order along the same
row and column, with the factors of every product exchanged and the terms of every
sum in the same order. So the product of the transposes is the transpose of the
product if multiplication commutes (`transpose_product`), whatever addition does.
That it can be computed does not depend on multiplication
(`exists_mul_transpose_iff`).
-/

set_option autoImplicit false

namespace Calculator.DenseMatrix

variable {α : Type}

/-! ## Rows and columns exchanged -/

theorem get_transpose (m : DenseMatrix α) (r : Fin m.rows) (c : Fin m.cols) :
    m.transpose.get c r = m.get r c :=
  get_ofFn (fun c r => m.get r c) c r

theorem transpose_ofFn {rows cols : Nat} (value : Fin rows → Fin cols → α) :
    (ofFn rows cols value).transpose = ofFn cols rows fun c r => value r c :=
  congrArg (ofFn cols rows) (funext₂ fun c r => get_ofFn value r c)

theorem row_transpose (m : DenseMatrix α) (c : Fin m.cols) : m.transpose.row c = m.column c :=
  congrArg List.ofFn (funext fun r => m.get_transpose r c)

theorem column_transpose (m : DenseMatrix α) (r : Fin m.rows) :
    m.transpose.column r = m.row r :=
  congrArg List.ofFn (funext fun c => m.get_transpose r c)

/-- To transpose twice is to do nothing. -/
theorem transpose_transpose (m : DenseMatrix α) : m.transpose.transpose = m :=
  ext_get rfl rfl fun r c => (m.transpose.get_transpose c r).trans (m.get_transpose r c)

/-! ## Products -/

variable [Scalar α] {a b : DenseMatrix α}

/-- The transpose of a product is the product of the transposes in the opposite order. -/
theorem transpose_product (comm : ∀ x y : α, x * y = y * x) (a b : DenseMatrix α) :
    (a.product b).transpose = b.transpose.product a.transpose := by
  have swapped : (fun y x : α => x * y) = fun y x => y * x := funext₂ fun y x => comm x y
  have terms (c : Fin b.cols) (r : Fin a.rows) :
      List.zipWith (· * ·) (a.row r) (b.column c) =
        List.zipWith (· * ·) (b.transpose.row c) (a.transpose.column r) := by
    rw [row_transpose, column_transpose, List.zipWith_comm, swapped]
  calc (a.product b).transpose
    _ = ofFn b.cols a.rows fun c r => sum (List.zipWith (· * ·) (a.row r) (b.column c)) :=
        transpose_ofFn _
    _ = b.transpose.product a.transpose :=
        congrArg (ofFn b.cols a.rows) (funext₂ fun c r => congrArg sum (terms c r))

theorem exists_mul_iff :
    (∃ p, a.mul b = .ok p) ↔ a.cols = b.rows ∧ a.rows * b.cols ≤ largestStorage := by
  simp [mul_eq_ok_iff]

/-- The transposes can be multiplied in the opposite order exactly if the matrices can be
multiplied. -/
theorem exists_mul_transpose_iff :
    (∃ p, a.mul b = .ok p) ↔ ∃ q, b.transpose.mul a.transpose = .ok q := by
  rw [exists_mul_iff, exists_mul_iff]
  have size : a.rows * b.cols = b.transpose.rows * a.transpose.cols := Nat.mul_comm _ _
  rw [size]
  exact and_congr_left' eq_comm

/-! ## The laws -/

/-- A transpose has the shape turned around and the same entries in the opposite positions, and to
transpose twice is to do nothing. Matrices can be multiplied exactly if their transposes can be in
the opposite order, and if multiplication commutes that product is the transpose of theirs. -/
theorem transpose_laws (m a b : DenseMatrix α) :
    m.transpose.shape = ⟨m.cols, m.rows⟩ ∧
    (∀ (r : Fin m.rows) (c : Fin m.cols), m.transpose.get c r = m.get r c) ∧
    m.transpose.transpose = m ∧
    ((∃ p, a.mul b = .ok p) ↔ ∃ q, b.transpose.mul a.transpose = .ok q) ∧
    ((∀ x y : α, x * y = y * x) →
      ∀ p, a.mul b = .ok p → b.transpose.mul a.transpose = .ok p.transpose) := by
  refine ⟨rfl, m.get_transpose, m.transpose_transpose, exists_mul_transpose_iff, ?_⟩
  intro comm p multiplied
  obtain ⟨q, again⟩ := exists_mul_transpose_iff.1 ⟨p, multiplied⟩
  obtain ⟨-, -, rfl⟩ := mul_eq_ok_iff.1 multiplied
  obtain ⟨-, -, rfl⟩ := mul_eq_ok_iff.1 again
  rw [transpose_product comm, again]

/-- A row of two and a matrix of two rows of three have a product, and their transposes have its
transpose. -/
theorem transpose_laws_row :
    ∃ a b p : DenseMatrix Float, a = ⟨1, 2, #[1, 2], rfl⟩ ∧
      b = ⟨2, 3, #[3, 4, 5, 6, 7, 8], rfl⟩ ∧ p = ⟨1, 3, #[15, 18, 21], rfl⟩ ∧
      (∀ x y : Float, x * y = y * x) ∧ a.mul b = .ok p ∧
      b.transpose.mul a.transpose = .ok p.transpose ∧ b.transpose.transpose = b := by
  obtain ⟨-, -, twice, -, products⟩ := transpose_laws
    (⟨2, 3, #[3, 4, 5, 6, 7, 8], rfl⟩ : DenseMatrix Float) ⟨1, 2, #[1, 2], rfl⟩
    ⟨2, 3, #[3, 4, 5, 6, 7, 8], rfl⟩
  have multiplied : (⟨1, 2, #[1, 2], rfl⟩ : DenseMatrix Float).mul
      ⟨2, 3, #[3, 4, 5, 6, 7, 8], rfl⟩ = .ok ⟨1, 3, #[15, 18, 21], rfl⟩ := by decide +kernel
  exact ⟨_, _, _, rfl, rfl, rfl, Binary64.mul_comm, multiplied,
    products Binary64.mul_comm _ multiplied, twice⟩

end Calculator.DenseMatrix
