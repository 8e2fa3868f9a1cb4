import Calculator.Proofs.DenseMatrix.Transposes
import Calculator.Proofs.ExactArithmetic

/-!
# Determinants

**Entries.** A matrix with as many rows as columns is a square of entries, read from its
elements row by row (`square`, `getElem?_elements`). Over a commutative ring a product
of matrices has the square that the squares multiply to (`square_product`), and a
transpose the transposed square (`square_transpose`).

**Determinants.** With two or three rows, what is computed is the determinant of the
square by the formula of Leibniz (`determinant_eq_det`). So determinants of products and
of transposes are what they are for squares, although products and transposes are
computed from other positions than determinants.

**Errors.** The shape alone decides which determinants are computed, whatever the
arithmetic (`determinant_eq_dimensionMismatch_iff`, `determinant_eq_unsupported_iff`).
-/

set_option autoImplicit false

namespace Calculator.DenseMatrix

/-! ## Entries -/

section Entries

variable {α : Type} {n : Nat}

theorem shape_eq_iff {m : DenseMatrix α} {rows cols : Nat} :
    m.shape = ⟨rows, cols⟩ ↔ m.rows = rows ∧ m.cols = cols := by
  rw [shape, Shape.mk.injEq]

/-- The entries of a matrix with `n` rows and `n` columns. -/
def square (m : DenseMatrix α) (shape : m.shape = ⟨n, n⟩) : Matrix (Fin n) (Fin n) α :=
  Matrix.of fun r c =>
    m.get (r.cast (shape_eq_iff.1 shape).1.symm) (c.cast (shape_eq_iff.1 shape).2.symm)

theorem exists_data {m : DenseMatrix α} (shape : m.shape = ⟨n, n⟩) :
    ∃ data size, m = ⟨n, n, data, size⟩ := by
  obtain ⟨rows, cols, data, size⟩ := m
  obtain ⟨⟩ := shape
  exact ⟨data, size, rfl⟩

/-- The elements are the entries row by row. -/
theorem getElem?_elements (m : DenseMatrix α) (shape : m.shape = ⟨n, n⟩) (r c : Fin n) :
    m.elements[r.val * n + c.val]? = some (m.square shape r c) := by
  obtain ⟨data, size, rfl⟩ := exists_data shape
  have within : r.val * n + c.val < data.toList.length := by
    rw [Array.length_toList, size]
    exact index_lt r.isLt c.isLt
  rw [elements, List.getElem?_eq_getElem within]
  rfl

theorem square_transpose (m : DenseMatrix α) (shape : m.shape = ⟨n, n⟩)
    (turned : m.transpose.shape = ⟨n, n⟩) :
    m.transpose.square turned = (m.square shape).transpose := by
  obtain ⟨data, size, rfl⟩ := exists_data shape
  ext r c
  exact get_transpose ⟨n, n, data, size⟩ c r

end Entries

/-! ## Exact determinants -/

section Exact

open scoped Exact

-- The operations written below are those of the ring, not those of its scalars.
attribute [-instance] Scalar.toAdd Scalar.toSub Scalar.toMul

variable {R : Type} [CommRing R] {n : Nat}

/-- The square of a product is the product of the squares. -/
theorem square_product {a b : DenseMatrix R} (shapeA : a.shape = ⟨n, n⟩)
    (shapeB : b.shape = ⟨n, n⟩) (shape : (a.product b).shape = ⟨n, n⟩) :
    (a.product b).square shape = a.square shapeA * b.square shapeB := by
  obtain ⟨dataA, sizeA, rfl⟩ := exists_data shapeA
  obtain ⟨dataB, sizeB, rfl⟩ := exists_data shapeB
  ext r c
  rw [Matrix.mul_apply]
  refine (get_product (a := ⟨n, n, dataA, sizeA⟩) (b := ⟨n, n, dataB, sizeB⟩) r c).trans ?_
  rw [Exact.sum_eq, row, column, zipWith_ofFn _ rfl, List.sum_ofFn]
  rfl

/-- With two or three rows, the determinant of the entries is computed. -/
theorem determinant_eq_det (supported : n = 2 ∨ n = 3) (m : DenseMatrix R)
    (shape : m.shape = ⟨n, n⟩) : m.determinant = .ok (m.square shape).det := by
  obtain ⟨data, size, rfl⟩ := exists_data shape
  rcases supported with rfl | rfl
  · rw [Matrix.det_fin_two]
    rfl
  · let e := (⟨3, 3, data, size⟩ : DenseMatrix R).square shape
    have computed : (⟨3, 3, data, size⟩ : DenseMatrix R).determinant =
        .ok (e 0 0 * e 1 1 * e 2 2 + e 0 1 * e 1 2 * e 2 0 + e 0 2 * e 1 0 * e 2 1
          - e 0 2 * e 1 1 * e 2 0 - e 0 1 * e 1 0 * e 2 2 - e 0 0 * e 1 2 * e 2 1) := rfl
    rw [computed, Matrix.det_fin_three]
    -- The same six products, in another order.
    exact congrArg Except.ok (by ring)

/-- Matrices of the same supported size have a product, and its determinant is that of the
determinants. -/
theorem determinant_product (supported : n = 2 ∨ n = 3) {a b : DenseMatrix R}
    (shapeA : a.shape = ⟨n, n⟩) (shapeB : b.shape = ⟨n, n⟩) :
    ∃ p, a.mul b = .ok p ∧
      p.determinant = .ok ((a.square shapeA).det * (b.square shapeB).det) := by
  obtain ⟨rowsA, colsA⟩ := shape_eq_iff.1 shapeA
  obtain ⟨rowsB, colsB⟩ := shape_eq_iff.1 shapeB
  have stored : a.rows * b.cols ≤ largestStorage := by
    rw [rowsA, colsB]
    rcases supported with rfl | rfl
    · decide
    · decide
  have shape : (a.product b).shape = ⟨n, n⟩ := shape_eq_iff.2 ⟨rowsA, colsB⟩
  refine ⟨a.product b, mul_eq_ok_iff.2 ⟨colsA.trans rowsB.symm, stored, rfl⟩, ?_⟩
  rw [determinant_eq_det supported _ shape, square_product shapeA shapeB, Matrix.det_mul]

/-- A transpose has the determinant of the matrix. -/
theorem determinant_transpose (supported : n = 2 ∨ n = 3) {m : DenseMatrix R}
    (shape : m.shape = ⟨n, n⟩) : m.transpose.determinant = m.determinant := by
  obtain ⟨rows, cols⟩ := shape_eq_iff.1 shape
  have turned : m.transpose.shape = ⟨n, n⟩ := shape_eq_iff.2 ⟨cols, rows⟩
  rw [determinant_eq_det supported _ turned, determinant_eq_det supported _ shape,
    square_transpose m shape, Matrix.det_transpose]

end Exact

/-! ## Determinants that are not computed -/

section Errors

variable {α : Type} [Scalar α] {m : DenseMatrix α}

theorem determinant_of_not_square (apart : m.rows ≠ m.cols) :
    m.determinant = .error (.dimensionMismatch (.notSquare m.shape)) := by
  have notSquare : (!m.isSquare) = true := by simpa [isSquare] using apart
  rw [determinant, if_pos notSquare]

theorem determinant_of_other_size (same : m.rows = m.cols) (notTwo : m.rows ≠ 2)
    (notThree : m.rows ≠ 3) : m.determinant = .error (.unsupported (.determinant m.shape)) := by
  have isSquare : ¬ (!m.isSquare) = true := by simpa [isSquare] using same
  rw [determinant, if_neg isSquare, dif_neg fun two => notTwo two.1,
    dif_neg fun three => notThree three.1]

theorem exists_determinant (same : m.rows = m.cols) (supported : m.rows = 2 ∨ m.rows = 3) :
    ∃ x, m.determinant = .ok x := by
  have isSquare : ¬ (!m.isSquare) = true := by simpa [isSquare] using same
  rw [determinant, if_neg isSquare]
  split
  case isTrue => exact ⟨_, rfl⟩
  case isFalse notTwo =>
    rw [dif_pos (by omega)]
    exact ⟨_, rfl⟩

/-- The outcome of a determinant by the shape. -/
theorem determinant_cases (m : DenseMatrix α) :
    (m.rows ≠ m.cols ∧ m.determinant = .error (.dimensionMismatch (.notSquare m.shape))) ∨
    (m.rows = m.cols ∧ m.rows ≠ 2 ∧ m.rows ≠ 3 ∧
      m.determinant = .error (.unsupported (.determinant m.shape))) ∨
    (m.rows = m.cols ∧ (m.rows = 2 ∨ m.rows = 3) ∧ ∃ x, m.determinant = .ok x) := by
  by_cases same : m.rows = m.cols
  · by_cases supported : m.rows = 2 ∨ m.rows = 3
    · exact .inr (.inr ⟨same, supported, exists_determinant same supported⟩)
    · obtain ⟨notTwo, notThree⟩ := not_or.1 supported
      exact .inr (.inl ⟨same, notTwo, notThree, determinant_of_other_size same notTwo notThree⟩)
  · exact .inl ⟨same, determinant_of_not_square same⟩

theorem determinant_eq_dimensionMismatch_iff {cause : ShapeFault} :
    m.determinant = .error (.dimensionMismatch cause) ↔
      m.rows ≠ m.cols ∧ cause = .notSquare m.shape := by
  rcases determinant_cases m with ⟨apart, outcome⟩ | ⟨same, -, -, outcome⟩ | ⟨same, -, x, outcome⟩
  · rw [outcome]
    simp [apart, eq_comm]
  · rw [outcome]
    simp [same]
  · rw [outcome]
    simp [same]

theorem determinant_eq_unsupported_iff {cause : UnsupportedFault} :
    m.determinant = .error (.unsupported cause) ↔
      m.rows = m.cols ∧ m.rows ≠ 2 ∧ m.rows ≠ 3 ∧ cause = .determinant m.shape := by
  rcases determinant_cases m with ⟨apart, outcome⟩ | ⟨same, notTwo, notThree, outcome⟩ |
    ⟨-, supported, x, outcome⟩
  · rw [outcome]
    simp [apart]
  · rw [outcome]
    constructor
    · rintro ⟨⟩
      exact ⟨same, notTwo, notThree, rfl⟩
    · rintro ⟨-, -, -, rfl⟩
      rfl
  · rw [outcome]
    constructor
    · rintro ⟨⟩
    · rintro ⟨-, notTwo, notThree, -⟩
      exact absurd supported (not_or.2 ⟨notTwo, notThree⟩)

end Errors

/-! ## The laws -/

section Laws

open scoped Exact

attribute [-instance] Scalar.toMul

/-- In exact arithmetic, matrices of two or three rows and columns have the determinant of their
entries, read row by row, by the formula of Leibniz; the determinant of a product is the product of
the determinants, and that of a transpose is that of the matrix. In any arithmetic, the determinant
of a matrix that is not square is an error that names its shape, and so is that of every square
matrix of another size. -/
theorem determinant_laws :
    (∀ (R : Type) [CommRing R] (n : Nat), n = 2 ∨ n = 3 → ∀ a b : DenseMatrix R,
      ∀ (shapeA : a.shape = ⟨n, n⟩) (shapeB : b.shape = ⟨n, n⟩),
        (∀ r c : Fin n, a.elements[r.val * n + c.val]? = some (a.square shapeA r c)) ∧
        a.determinant = .ok (a.square shapeA).det ∧
        b.determinant = .ok (b.square shapeB).det ∧
        (∃ p, a.mul b = .ok p ∧
          p.determinant = .ok ((a.square shapeA).det * (b.square shapeB).det)) ∧
        a.transpose.determinant = a.determinant) ∧
    ∀ (α : Type) [Scalar α] (m : DenseMatrix α),
      (∀ cause, m.determinant = .error (.dimensionMismatch cause) ↔
        m.rows ≠ m.cols ∧ cause = .notSquare m.shape) ∧
      ∀ cause, m.determinant = .error (.unsupported cause) ↔
        m.rows = m.cols ∧ m.rows ≠ 2 ∧ m.rows ≠ 3 ∧ cause = .determinant m.shape := by
  constructor
  · intro R _ n supported a b shapeA shapeB
    exact ⟨a.getElem?_elements shapeA, determinant_eq_det supported a shapeA,
      determinant_eq_det supported b shapeB, determinant_product supported shapeA shapeB,
      determinant_transpose supported shapeA⟩
  · intro α _ m
    exact ⟨fun cause => determinant_eq_dimensionMismatch_iff,
      fun cause => determinant_eq_unsupported_iff⟩

/-- Two matrices of three rows with the determinants -306 and 2 have a product with the determinant
-612, and there is no determinant of one row, of none, or of two rows of three. -/
theorem determinant_laws_three :
    ∃ a b : DenseMatrix Int, a = ⟨3, 3, #[6, 1, 1, 4, -2, 5, 2, 8, 7], rfl⟩ ∧
      b = ⟨3, 3, #[0, 0, 1, 2, 5, 0, 0, 1, 3], rfl⟩ ∧
      (∃ p, a.mul b = .ok p ∧ p.determinant = .ok (-612)) ∧
      a.transpose.determinant = .ok (-306) ∧
      (⟨1, 1, #[5], rfl⟩ : DenseMatrix Float).determinant =
        .error (.unsupported (.determinant ⟨1, 1⟩)) ∧
      (⟨0, 0, #[], rfl⟩ : DenseMatrix Float).determinant =
        .error (.unsupported (.determinant ⟨0, 0⟩)) ∧
      (⟨2, 3, #[1, 2, 3, 4, 5, 6], rfl⟩ : DenseMatrix Float).determinant =
        .error (.dimensionMismatch (.notSquare ⟨2, 3⟩)) := by
  let a : DenseMatrix Int := ⟨3, 3, #[6, 1, 1, 4, -2, 5, 2, 8, 7], rfl⟩
  let b : DenseMatrix Int := ⟨3, 3, #[0, 0, 1, 2, 5, 0, 0, 1, 3], rfl⟩
  have computedA : a.determinant = .ok (-306) := by decide
  have computedB : b.determinant = .ok 2 := by decide
  obtain ⟨exact, errors⟩ := determinant_laws
  obtain ⟨-, detA, detB, ⟨p, multiplied, detP⟩, turned⟩ := exact Int 3 (.inr rfl) a b rfl rfl
  have valueA := Except.ok.inj (detA.symm.trans computedA)
  have valueB := Except.ok.inj (detB.symm.trans computedB)
  rw [valueA, valueB] at detP
  refine ⟨a, b, rfl, rfl, ⟨p, multiplied, detP⟩, turned.trans computedA, ?_, ?_, ?_⟩
  · exact ((errors Float _).2 _).2 ⟨rfl, by decide, by decide, rfl⟩
  · exact ((errors Float _).2 _).2 ⟨rfl, by decide, by decide, rfl⟩
  · exact ((errors Float _).1 _).2 ⟨by decide, rfl⟩

end Laws

end Calculator.DenseMatrix
