import Calculator.Coordinates
import Calculator.DenseMatrix.Algebra
import Mathlib

/-!
# Matrices and vectors

**Elements.** The elements of a matrix are its rows, one after the other
(`elements_eq_flatten`), and the element at a place stands in the row and the column
that division by the number of columns gives (`elements_eq_ofFn`). So to combine two
matrices of equal shape position by position is to combine their elements
(`map_elements_zip`), and sums, differences and scalings are those of vectors.

**Products.** An entry of a product is the scalar product of a row and a column
(`mul_eq_ok_iff`, `dot_row_column`). A vector is a matrix with a single column
(`ofVector`), and the product with a vector is the product with that matrix
(`mulVector_eq_ok_iff_mul`).

The scalars are of any type. Nothing is used of their arithmetic: both sides compute
with the same scalars in the same order.
-/

set_option autoImplicit false

namespace Calculator

/-- To combine two functions value by value is to combine the lists of their values. -/
theorem zipWith_ofFn {α β γ : Type} (combine : α → β → γ) {m n : Nat} (same : m = n)
    (left : Fin m → α) (right : Fin n → β) :
    List.zipWith combine (List.ofFn left) (List.ofFn right) =
      List.ofFn fun k => combine (left k) (right (k.cast same)) := by
  subst same
  exact List.ext_getElem (by simp) (by simp)

/-- Two vectors of equal size have a scalar product. -/
theorem Coordinates.dot_of_length_eq {α : Type} [Scalar α] {a b : List α}
    (same : a.length = b.length) : dot a b = .ok (sum (List.zipWith (· * ·) a b)) := by
  rw [dot, zip, if_pos same]
  rfl

/-- The norm is the square root of the scalar product of a vector with itself. -/
theorem Coordinates.map_sqrt_dot (v : List Float) : (dot v v).map Float.sqrt = .ok (norm v) := by
  rw [dot_of_length_eq rfl, List.zipWith_self]
  rfl

namespace DenseMatrix

variable {α : Type}

/-! ## Elements -/

/-- The elements of a matrix are its entries, row after row. -/
theorem elements_eq_flatten (m : DenseMatrix α) :
    m.elements = (List.ofFn fun r => List.ofFn fun c => m.get r c).flatten := by
  obtain ⟨rows, cols, data, size⟩ := m
  have listed : data.toList = List.ofFn fun k : Fin (rows * cols) => data[k.val] :=
    List.ext_getElem (by simp [size]) (by simp)
  rw [elements, listed, List.ofFn_mul]
  rfl

theorem elements_ofFn {rows cols : Nat} (value : Fin rows → Fin cols → α) :
    (ofFn rows cols value).elements =
      (List.ofFn fun r => List.ofFn fun c => value r c).flatten := by
  rw [elements_eq_flatten]
  exact congrArg List.flatten (congrArg List.ofFn (funext fun r =>
    congrArg List.ofFn (funext fun c => get_ofFn value r c)))

/-- The element at a place is the entry in the row and the column of the place. -/
theorem elements_eq_ofFn (m : DenseMatrix α) :
    m.elements = List.ofFn fun k : Fin (m.rows * m.cols) => m.get k.divNat k.modNat := by
  refine List.ext_getElem (by simp [length_elements]) fun i _ _ => ?_
  have whole : i / m.cols * m.cols + i % m.cols = i := Nat.div_add_mod' i m.cols
  simp [elements, get, whole]

theorem elements_ofFn_place {rows cols : Nat} (value : Fin rows → Fin cols → α) :
    (ofFn rows cols value).elements =
      List.ofFn fun k : Fin (rows * cols) => value k.divNat k.modNat :=
  (elements_eq_ofFn _).trans (congrArg List.ofFn (funext fun _ => get_ofFn value _ _))

/-- Two matrices can be combined exactly if they have the same shape. -/
theorem exists_zip_iff {function : String} {combine : α → α → α} {a b : DenseMatrix α} :
    (∃ m, a.zip function combine b = .ok m) ↔ a.shape = b.shape := by
  rw [zip, shape, shape, Shape.mk.injEq]
  split
  case isTrue same => exact iff_of_true ⟨_, rfl⟩ same
  case isFalse apart => exact iff_of_false nofun apart

/-- Matrices of the same shape are combined as the vectors of their elements. -/
theorem map_elements_zip {function : String} {combine : α → α → α} {a b : DenseMatrix α}
    (same : a.shape = b.shape) :
    (a.zip function combine b).map elements =
      .ok (List.zipWith combine a.elements b.elements) := by
  obtain ⟨rows, cols, left, leftSize⟩ := a
  obtain ⟨_, _, right, rightSize⟩ := b
  obtain ⟨⟩ := same
  rw [zip, dif_pos ⟨rfl, rfl⟩, elements_eq_ofFn, elements_eq_ofFn, zipWith_ofFn combine rfl]
  exact congrArg Except.ok (elements_ofFn_place _)

theorem map_elements_zip_eq_coordinates {function name : String} {combine : α → α → α}
    {a b : DenseMatrix α} (same : a.shape = b.shape) :
    (a.zip function combine b).map elements =
      Coordinates.zip name combine a.elements b.elements := by
  obtain ⟨rows, cols⟩ := Shape.mk.inj same
  have size : a.elements.length = b.elements.length := by
    rw [length_elements, length_elements, rows, cols]
  rw [map_elements_zip same, Coordinates.zip, if_pos size]

/-! ## Rows and columns -/

/-- A row as a vector. -/
def row (m : DenseMatrix α) (r : Fin m.rows) : List α := List.ofFn fun c => m.get r c

/-- A column as a vector. -/
def column (m : DenseMatrix α) (c : Fin m.cols) : List α := List.ofFn fun r => m.get r c

/-- A vector as a matrix with one column. -/
def ofVector (v : List α) : DenseMatrix α := ⟨v.length, 1, v.toArray, by simp⟩

theorem column_ofVector (v : List α) : (ofVector v).column (0 : Fin 1) = v := by
  refine List.ext_getElem (by simp [column, ofVector]) fun i _ _ => ?_
  simp [column, ofVector, get]

/-- The elements of a single column. -/
theorem elements_ofFn_one {rows : Nat} (value : Fin rows → Fin 1 → α) :
    (ofFn rows 1 value).elements = List.ofFn fun r => value r 0 := by
  calc (ofFn rows 1 value).elements
    _ = ((List.ofFn fun r => value r 0).map fun x => [x]).flatten := by
        rw [elements_ofFn, List.map_ofFn]
        exact congrArg List.flatten (congrArg List.ofFn (funext fun r => List.ofFn_succ))
    _ = List.ofFn fun r => value r 0 := by
        rw [← List.flatMap_def, List.flatMap_singleton']

/-! ## Products -/

variable [Scalar α]

theorem elements_scale (m : DenseMatrix α) (factor : α) :
    (m.scale factor).elements = Coordinates.scale m.elements factor := by
  rw [elements_eq_ofFn m, Coordinates.scale, List.map_ofFn]
  exact elements_ofFn_place _

/-- The matrix of what the rows of one matrix and the columns of another one multiply to. -/
def product (a b : DenseMatrix α) : DenseMatrix α :=
  ofFn a.rows b.cols fun r c => sum (List.zipWith (· * ·) (a.row r) (b.column c))

variable {a b p : DenseMatrix α}

/-- Matrices that fit together have their product, if it can be stored. -/
theorem mul_eq_ok_iff :
    a.mul b = .ok p ↔ a.cols = b.rows ∧ a.rows * b.cols ≤ largestStorage ∧ p = a.product b := by
  rw [mul]
  split
  case isFalse apart => exact ⟨nofun, fun fits => absurd fits.1 apart⟩
  case isTrue inner =>
    have products (r : Fin a.rows) (c : Fin b.cols) :
        List.zipWith (· * ·) (a.row r) (b.column c) =
          List.ofFn fun k : Fin a.cols => a.get r k * b.get (k.cast inner) c :=
      zipWith_ofFn _ inner _ _
    simp only [product, products]
    split
    case isTrue stored => simp [inner, stored, eq_comm]
    case isFalse large => simp [large]

theorem get_product (r : Fin a.rows) (c : Fin b.cols) :
    (a.product b).get r c = sum (List.zipWith (· * ·) (a.row r) (b.column c)) :=
  get_ofFn (fun r c => sum (List.zipWith (· * ·) (a.row r) (b.column c))) r c

/-- The entries of a product are scalar products. -/
theorem dot_row_column (inner : a.cols = b.rows) (r : Fin a.rows) (c : Fin b.cols) :
    Coordinates.dot (a.row r) (b.column c) = .ok ((a.product b).get r c) := by
  have same : (a.row r).length = (b.column c).length := by simp [row, column, inner]
  rw [Coordinates.dot_of_length_eq same, get_product]

/-- The product with a vector has the scalar products of the rows with the vector. -/
theorem mulVector_eq_ok_iff {m : DenseMatrix α} {v w : List α} :
    m.mulVector v = .ok w ↔ m.cols = v.length ∧ m.rows ≤ largestStorage ∧
      w = List.ofFn fun r => sum (List.zipWith (· * ·) (m.row r) v) := by
  rw [mulVector]
  split
  case isFalse apart => exact ⟨nofun, fun fits => absurd fits.1 apart⟩
  case isTrue size =>
    have products (r : Fin m.rows) : List.zipWith (· * ·) (m.row r) v =
        List.ofFn fun c : Fin m.cols => m.get r c * v.get (c.cast size) := by
      have combined := zipWith_ofFn (· * ·) size (m.get r) v.get
      rwa [List.ofFn_get] at combined
    simp only [products]
    split
    case isTrue stored => simp [size, stored, eq_comm]
    case isFalse large => simp [large]

/-- The product with a vector is the product with the matrix of one column. -/
theorem mulVector_eq_ok_iff_mul {m : DenseMatrix α} {v w : List α} :
    m.mulVector v = .ok w ↔ ∃ p, m.mul (ofVector v) = .ok p ∧ w = p.elements := by
  have elements : (m.product (ofVector v)).elements =
      List.ofFn fun r => sum (List.zipWith (· * ·) (m.row r) v) := by
    rw [product]
    refine (elements_ofFn_one _).trans ?_
    rw [column_ofVector]
  have cells : m.rows * (ofVector v).cols = m.rows := Nat.mul_one m.rows
  simp only [mul_eq_ok_iff, mulVector_eq_ok_iff, cells]
  constructor
  · rintro ⟨size, stored, rfl⟩
    exact ⟨_, ⟨size, stored, rfl⟩, elements.symm⟩
  · rintro ⟨_, ⟨size, stored, rfl⟩, rfl⟩
    exact ⟨size, stored, elements⟩

/-! ## Agreement -/

/-- Operations on matrices are operations on vectors. Sums and differences exist exactly for equal
shapes, and their elements, like those of a scaling, are computed as for vectors. The product with a
vector is that with a matrix of one column, the entries of a product are scalar products of rows and
columns, and the norm is the square root of the scalar product of a vector with itself. -/
theorem vectors_agree (a b m : DenseMatrix α) (v : List α) (factor : α) :
    ((∃ s, a.add b = .ok s) ↔ a.shape = b.shape) ∧
    ((∃ d, a.sub b = .ok d) ↔ a.shape = b.shape) ∧
    (a.shape = b.shape →
      (a.add b).map elements = Coordinates.add a.elements b.elements ∧
      (a.sub b).map elements = Coordinates.sub a.elements b.elements) ∧
    (m.scale factor).elements = Coordinates.scale m.elements factor ∧
    (∀ w, m.mulVector v = .ok w ↔ ∃ p, m.mul (ofVector v) = .ok p ∧ w = p.elements) ∧
    (∀ p, a.mul b = .ok p → p.shape = ⟨a.rows, b.cols⟩ ∧
      ∀ (r : Fin a.rows) (c : Fin b.cols), ∃ x, p.get? r c = some x ∧
        Coordinates.dot (a.row r) (b.column c) = .ok x) ∧
    ∀ u : List Float, (Coordinates.dot u u).map Float.sqrt = .ok (Coordinates.norm u) := by
  refine ⟨exists_zip_iff, exists_zip_iff, fun same => ⟨?_, ?_⟩, elements_scale m factor,
    fun w => mulVector_eq_ok_iff_mul, ?_, Coordinates.map_sqrt_dot⟩
  · exact map_elements_zip_eq_coordinates same
  · exact map_elements_zip_eq_coordinates same
  · intro p multiplied
    obtain ⟨inner, -, rfl⟩ := mul_eq_ok_iff.1 multiplied
    refine ⟨rfl, fun r c => ⟨_, ?_, dot_row_column inner r c⟩⟩
    exact get?_of_lt (a.product b) r.isLt c.isLt

/-- Two matrices of two rows have a sum and a product. -/
theorem vectors_agree_square :
    ∃ a b p : DenseMatrix Float, a = ⟨2, 2, #[1, 2, 3, 4], rfl⟩ ∧ b = ⟨2, 2, #[5, 6, 7, 8], rfl⟩ ∧
      p = ⟨2, 2, #[19, 22, 43, 50], rfl⟩ ∧ a.shape = b.shape ∧ a.mul b = .ok p ∧
      (a.add b).map elements = Coordinates.add a.elements b.elements ∧
      ∀ (r : Fin a.rows) (c : Fin b.cols), ∃ x, p.get? r c = some x ∧
        Coordinates.dot (a.row r) (b.column c) = .ok x := by
  obtain ⟨-, -, sums, -, -, products, -⟩ := vectors_agree
    (⟨2, 2, #[1, 2, 3, 4], rfl⟩ : DenseMatrix Float) ⟨2, 2, #[5, 6, 7, 8], rfl⟩ (ofVector []) [] 0
  have same : (⟨2, 2, #[1, 2, 3, 4], rfl⟩ : DenseMatrix Float).shape =
      (⟨2, 2, #[5, 6, 7, 8], rfl⟩ : DenseMatrix Float).shape := Eq.refl (Shape.mk 2 2)
  have multiplied : (⟨2, 2, #[1, 2, 3, 4], rfl⟩ : DenseMatrix Float).mul
      ⟨2, 2, #[5, 6, 7, 8], rfl⟩ = .ok ⟨2, 2, #[19, 22, 43, 50], rfl⟩ := by decide +kernel
  exact ⟨_, _, _, rfl, rfl, rfl, same, multiplied, (sums same).1, (products _ multiplied).2⟩

end DenseMatrix

end Calculator
