import Calculator.Evaluation
import Calculator.Proofs.Builtin.Outcomes
import Calculator.Proofs.Expr.Checks
import Calculator.Proofs.Guarded.Matrix

/-!
# The sizes of matrices

A matrix fits words if its numbers of rows and columns and the product of the
two are below `2 ^ 64`. These are the matrices that can be built from given
elements (`fits_iff_new`).

**Operations.** Sums, differences and scalings have the shape of an operand and
transposes have it turned around, so they fit if their operands do. Products do
not follow: if `k` is the inner dimension, the sizes of the operands multiply to
`k ^ 2` times the size of the product (`size_mul`), and for `k = 0` they say
nothing about it. Two matrices without any elements can have a product with more
elements than words count (`product_outgrows_words`). A product that is returned
has been stored and fits.

**Expressions.** So every matrix that an expression evaluates to fits
(`fits_eval`), and an expression that breaks off for lack of storage has a call
that multiplies two matrices, or a matrix and a vector, whose product is too
large (`exists_call_of_outOfStorage`).
-/

set_option autoImplicit false

namespace Calculator

namespace DenseMatrix

variable {α : Type} {a b m : DenseMatrix α}

/-- The numbers of rows, of columns and of elements fit words. -/
structure Fits (m : DenseMatrix α) : Prop where
  rows : m.rows ≤ largestCount
  cols : m.cols ≤ largestCount
  size : m.rows * m.cols ≤ largestCount

/-- The matrices that fit are those that are accepted with their shape in words. -/
theorem fits_iff_new :
    m.Fits ↔ BareMatrix.new (.ofNat m.rows) (.ofNat m.cols) m.elements = .ok m.bare := by
  have limit : largestCount < UInt64.size := by decide
  constructor
  · rintro ⟨rows, cols, size⟩
    rw [BareMatrix.new_eq, UInt64.toNat_ofNat_of_lt' (rows.trans_lt limit),
      UInt64.toNat_ofNat_of_lt' (cols.trans_lt limit), ofElements,
      dif_pos ⟨size, m.length_elements⟩]
    simp [Guarded.permit, Except.map, Except.mapError, bare, elements]
  · intro built
    obtain ⟨-, same⟩ := BareMatrix.exact_of_new built
    have sameRows : m.rows = (UInt64.ofNat m.rows).toNat := congrArg BareMatrix.rows same
    have sameCols : m.cols = (UInt64.ofNat m.cols).toNat := congrArg BareMatrix.cols same
    rw [BareMatrix.new_eq, ← sameRows, ← sameCols, ofElements] at built
    split at built
    case isTrue accepted =>
      have rows := Nat.le_pred_of_lt (UInt64.ofNat m.rows).toNat_lt
      have cols := Nat.le_pred_of_lt (UInt64.ofNat m.cols).toNat_lt
      exact ⟨sameRows.trans_le rows, sameCols.trans_le cols, accepted.1⟩
    case isFalse => cases built

theorem fits_ofElements {rows cols : Nat} {elements : List α} (fitRows : rows ≤ largestCount)
    (fitCols : cols ≤ largestCount) (built : ofElements rows cols elements = .ok m) : m.Fits := by
  rw [ofElements] at built
  split at built
  case isTrue accepted =>
    cases built
    exact ⟨fitRows, fitCols, accepted.1⟩
  case isFalse => cases built

/-! ## Operations -/

theorem shape_zip {function : String} {combine : α → α → α}
    (combined : a.zip function combine b = .ok m) : m.shape = a.shape := by
  rw [zip] at combined
  split at combined
  case isTrue =>
    cases combined
    rfl
  case isFalse => cases combined

theorem Fits.zip {function : String} {combine : α → α → α} (fits : a.Fits)
    (combined : a.zip function combine b = .ok m) : m.Fits := by
  obtain ⟨rows, cols⟩ := Shape.mk.inj (shape_zip combined)
  exact ⟨rows.trans_le fits.rows, cols.trans_le fits.cols, by rw [rows, cols]; exact fits.size⟩

theorem Fits.transpose (fits : m.Fits) : m.transpose.Fits :=
  ⟨fits.cols, fits.rows, (Nat.mul_comm _ _).trans_le fits.size⟩

/-- The sizes of two matrices multiply to the square of the inner dimension times the size of the
product. -/
theorem size_mul (inner : a.cols = b.rows) :
    (a.rows * a.cols) * (b.rows * b.cols) = a.rows * b.cols * a.cols ^ 2 := by
  rw [← inner]
  ring

/-- With a positive inner dimension the operands bound the size of the product. -/
theorem size_mul_le_iff (inner : a.cols = b.rows) (positive : 0 < a.cols) (limit : Nat) :
    a.rows * b.cols ≤ limit ↔
      (a.rows * a.cols) * (b.rows * b.cols) ≤ limit * a.cols ^ 2 := by
  rw [size_mul inner, Nat.mul_le_mul_right_iff (Nat.pow_pos positive)]

variable [Scalar α]

theorem Fits.scale (fits : m.Fits) (factor : α) : (m.scale factor).Fits :=
  ⟨fits.rows, fits.cols, fits.size⟩

/-- A product that is returned has been stored. -/
theorem stored_mul (product : a.mul b = .ok m) :
    m.shape = ⟨a.rows, b.cols⟩ ∧ a.rows * b.cols ≤ largestStorage := by
  obtain ⟨-, stored, rfl⟩ := mul_eq_ok_iff.1 product
  exact ⟨rfl, stored⟩

theorem Fits.mul (left : a.Fits) (right : b.Fits) (product : a.mul b = .ok m) : m.Fits := by
  obtain ⟨shape, stored⟩ := stored_mul product
  obtain ⟨rows, cols⟩ := Shape.mk.inj shape
  refine ⟨rows.trans_le left.rows, cols.trans_le right.cols, ?_⟩
  rw [rows, cols]
  exact stored.trans (by decide)

end DenseMatrix

/-! ## Functions -/

/-- If a value is a matrix, it fits. -/
def Value.Fits : Value → Prop
  | .matrix m => m.Fits
  | _ => True

theorem Value.fits_of_type_ne {value : Value} (other : value.type ≠ .matrix) : value.Fits := by
  cases value with
  | number x => trivial
  | vector xs => trivial
  | matrix m => exact absurd rfl other

theorem Value.fits_map {outcome : Except RuntimeError (DenseMatrix Float)} {value : Value}
    (fits : ∀ m, outcome = .ok m → m.Fits) (returned : outcome.map .matrix = .ok value) :
    value.Fits := by
  cases outcome with
  | error error => cases returned
  | ok m =>
      cases returned
      exact fits m rfl

theorem Argument.fits_matrix {function : String} {args : List Value} {index : Nat}
    {m : DenseMatrix Float} (fits : ∀ value ∈ args, value.Fits)
    (read : matrix function args index = .ok m) : m.Fits :=
  fits (.matrix m) (List.mem_of_getElem? ((ends_matrix function args index).result read))

/-- On arguments that fit, a function returns what fits. -/
theorem Builtin.fits_apply {function : Builtin} {args : List Value} {value : Value}
    (fits : ∀ value ∈ args, value.Fits) (returned : function.apply args = .ok value) :
    value.Fits := by
  -- Four kinds of function return matrices; of the others the type of the result says enough.
  have type : value.type = function.resultType := (ends_apply function args).result returned
  cases function with
  | matrix =>
      obtain ⟨height, -, returned⟩ := bind_eq_ok_iff.1 returned
      obtain ⟨rows, fitRows, returned⟩ := bind_eq_ok_iff.1 returned
      obtain ⟨width, -, returned⟩ := bind_eq_ok_iff.1 returned
      obtain ⟨cols, fitCols, returned⟩ := bind_eq_ok_iff.1 returned
      obtain ⟨m, built, returned⟩ := bind_eq_ok_iff.1 returned
      cases returned
      exact DenseMatrix.fits_ofElements ((Argument.ends_size _ _).result fitRows)
        ((Argument.ends_size _ _).result fitCols) built
  | matrixPair op =>
      obtain ⟨a, first, returned⟩ := bind_eq_ok_iff.1 returned
      obtain ⟨b, second, returned⟩ := bind_eq_ok_iff.1 returned
      have left := Argument.fits_matrix fits first
      have right := Argument.fits_matrix fits second
      cases op with
      | add => exact Value.fits_map (fun m => left.zip) returned
      | sub => exact Value.fits_map (fun m => left.zip) returned
      | mul => exact Value.fits_map (fun m => left.mul right) returned
  | scaleMatrix =>
      obtain ⟨factor, -, returned⟩ := bind_eq_ok_iff.1 returned
      obtain ⟨m, read, returned⟩ := bind_eq_ok_iff.1 returned
      cases returned
      exact (Argument.fits_matrix fits read).scale factor
  | transpose =>
      obtain ⟨m, read, returned⟩ := bind_eq_ok_iff.1 returned
      cases returned
      exact (Argument.fits_matrix fits read).transpose
  | vectorPair op =>
      cases op <;> exact Value.fits_of_type_ne (by rw [type]; decide)
  | _ => exact Value.fits_of_type_ne (by rw [type]; exact nofun)

namespace Expr

/-! ## Expressions -/

mutual
/-- Every matrix that an expression evaluates to fits. -/
theorem fits_eval {e : Expr} {value : Value} (evaluated : e.eval = .ok value) : value.Fits := by
  cases e with
  | number x offset =>
      cases evaluated
      trivial
  | binary op left right offset =>
      rw [eval] at evaluated
      obtain ⟨a, -, evaluated⟩ := bind_eq_ok_iff.1 evaluated
      obtain ⟨b, -, evaluated⟩ := bind_eq_ok_iff.1 evaluated
      exact Value.fits_of_type_ne (by rw [(op.ends_apply a b).result evaluated]; exact nofun)
  | call name arguments offset =>
      rw [eval] at evaluated
      split at evaluated
      case h_1 => cases evaluated
      case h_2 function known =>
        split at evaluated
        case isFalse => cases evaluated
        case isTrue =>
          obtain ⟨values, all, evaluated⟩ := bind_eq_ok_iff.1 evaluated
          exact Builtin.fits_apply (fits_evalAll all) evaluated

theorem fits_evalAll {es : List Expr} {values : List Value} (evaluated : evalAll es = .ok values) :
    ∀ value ∈ values, value.Fits := by
  cases es with
  | nil =>
      cases evaluated
      exact nofun
  | cons e others =>
      rw [evalAll] at evaluated
      obtain ⟨first, head, evaluated⟩ := bind_eq_ok_iff.1 evaluated
      obtain ⟨rest, tail, evaluated⟩ := bind_eq_ok_iff.1 evaluated
      cases evaluated
      exact List.forall_mem_cons.2 ⟨fits_eval head, fits_evalAll tail⟩
end

mutual
/-- The check of a function belongs to a call. -/
theorem call_mem_of_check {e : Expr} {name : String} {arguments : List Expr}
    (member : .function name arguments ∈ e.checks) :
    ∃ offset, .call name arguments offset ∈ e.parts := by
  cases e with
  | number x place => simp [checks] at member
  | binary op left right place =>
      simp only [checks, List.mem_append, List.mem_singleton] at member
      rcases member with inLeft | inRight | isOperator
      · obtain ⟨offset, part⟩ := call_mem_of_check inLeft
        exact ⟨offset, by simp [parts, part]⟩
      · obtain ⟨offset, part⟩ := call_mem_of_check inRight
        exact ⟨offset, by simp [parts, part]⟩
      · cases isOperator
  | call function operands place =>
      simp only [checks, List.mem_cons, List.mem_append, List.not_mem_nil, or_false] at member
      rcases member with isName | isCount | inside | isFunction
      · cases isName
      · cases isCount
      · obtain ⟨offset, part⟩ := call_mem_of_checkAll inside
        exact ⟨offset, by simp [parts, part]⟩
      · cases isFunction
        exact ⟨place, by simp [parts]⟩

theorem call_mem_of_checkAll {es : List Expr} {name : String} {arguments : List Expr}
    (member : .function name arguments ∈ checksAll es) :
    ∃ offset, .call name arguments offset ∈ partsAll es := by
  cases es with
  | nil => simp [checksAll] at member
  | cons e others =>
      rw [checksAll, List.mem_append] at member
      rcases member with inFirst | inOthers
      · obtain ⟨offset, part⟩ := call_mem_of_check inFirst
        exact ⟨offset, by simp [partsAll, part]⟩
      · obtain ⟨offset, part⟩ := call_mem_of_checkAll inOthers
        exact ⟨offset, by simp [partsAll, part]⟩
end

/-- A call whose function is to multiply operands with a product that cannot be stored. -/
def Exceeds (shape : Shape) : Expr → Prop
  | call name arguments _ => ∃ function values, Builtin.ofName? name = some function ∧
      evalAll arguments = .ok values ∧ function.Exceeds values shape
  | _ => False

/-- An expression that breaks off has a call that is to blame. -/
theorem exists_call_of_outOfStorage {e : Expr} {shape : Shape}
    (broken : e.eval = .error (.outOfStorage shape)) : ∃ part ∈ e.parts, part.Exceeds shape := by
  -- The check that fails first is one of a function, because all others report what they find.
  obtain ⟨earlier, check, first⟩ := eval_eq_error_iff.1 broken
  have due : check ∈ e.checks := first.due.subset (by simp)
  have failed := first.failed
  cases check with
  | name text =>
      simp only [Check.fault?] at failed
      split at failed <;> simp at failed
  | count text arguments =>
      simp only [Check.fault?] at failed
      split at failed
      case h_1 => cases failed
      case h_2 => split at failed <;> simp at failed
  | operator op left right =>
      simp only [Check.fault?] at failed
      split at failed
      case h_1 a b _ _ =>
        exact ((op.ends_apply a b).error (failure?_eq_some_iff.1 failed)).elim
      case h_2 => cases failed
  | function name arguments =>
      obtain ⟨offset, part⟩ := call_mem_of_check due
      refine ⟨_, part, ?_⟩
      simp only [Check.fault?] at failed
      split at failed
      case h_1 callee values known all =>
        exact ⟨callee, values, known, all,
          Builtin.apply_eq_outOfStorage_iff.1 (failure?_eq_some_iff.1 failed)⟩
      case h_2 => cases failed

end Expr

/-! ## Sizes -/

/-- Of matrices that fit, the sums, differences, scalings and transposes fit, and so does a product
that is returned. A product is missing exactly if it cannot be stored. With a positive inner
dimension its size is bounded through those of the operands. Every matrix that an expression
evaluates to fits, and an expression breaks off only for a call with too large a product. -/
theorem matrix_sizes (a b : DenseMatrix Float) (e : Expr) (left : a.Fits) (right : b.Fits) :
    (∀ m, a.add b = .ok m ∨ a.sub b = .ok m → m.shape = a.shape ∧ m.Fits) ∧
    (∀ factor, (a.scale factor).shape = a.shape ∧ (a.scale factor).Fits) ∧
    (a.transpose.shape = ⟨a.cols, a.rows⟩ ∧ a.transpose.Fits) ∧
    (a.cols = b.rows →
      (∀ shape, a.mul b = .error (.outOfStorage shape) ↔
        largestStorage < a.rows * b.cols ∧ shape = ⟨a.rows, b.cols⟩) ∧
      (∀ m, a.mul b = .ok m → m.shape = ⟨a.rows, b.cols⟩ ∧ m.Fits) ∧
      (0 < a.cols → ∀ limit, a.rows * b.cols ≤ limit ↔
        (a.rows * a.cols) * (b.rows * b.cols) ≤ limit * a.cols ^ 2)) ∧
    (∀ m, e.eval = .ok (.matrix m) → m.Fits) ∧
    ∀ shape, e.eval = .error (.outOfStorage shape) → ∃ part ∈ e.parts, part.Exceeds shape := by
  refine ⟨?_, fun factor => ⟨rfl, left.scale factor⟩, ⟨rfl, left.transpose⟩, fun inner => ⟨?_, ?_, ?_⟩,
    fun m evaluated => Expr.fits_eval evaluated, fun shape => Expr.exists_call_of_outOfStorage⟩
  · rintro m (sum | difference)
    · exact ⟨DenseMatrix.shape_zip sum, left.zip sum⟩
    · exact ⟨DenseMatrix.shape_zip difference, left.zip difference⟩
  · intro shape
    rw [DenseMatrix.mul_eq_outOfStorage_iff]
    exact and_iff_right inner
  · exact fun m product => ⟨(DenseMatrix.stored_mul product).1, left.mul right product⟩
  · exact fun positive limit => DenseMatrix.size_mul_le_iff inner positive limit

/-- A column of three and a row of two have a product of six elements. -/
theorem matrix_sizes_column :
    (⟨3, 1, #[1, 2, 3], rfl⟩ : DenseMatrix Float).Fits ∧
    (⟨1, 2, #[4, 5], rfl⟩ : DenseMatrix Float).Fits ∧
    (∀ m, (⟨3, 1, #[1, 2, 3], rfl⟩ : DenseMatrix Float).mul ⟨1, 2, #[4, 5], rfl⟩ = .ok m →
      m.shape = ⟨3, 2⟩ ∧ m.Fits) ∧
    ∀ limit, 3 * 2 ≤ limit ↔ (3 * 1) * (1 * 2) ≤ limit * 1 ^ 2 := by
  have column : (⟨3, 1, #[1, 2, 3], rfl⟩ : DenseMatrix Float).Fits :=
    ⟨by decide, by decide, by decide⟩
  have row : (⟨1, 2, #[4, 5], rfl⟩ : DenseMatrix Float).Fits := ⟨by decide, by decide, by decide⟩
  obtain ⟨-, -, -, product, -⟩ := matrix_sizes _ _ (.number 1 0) column row
  obtain ⟨-, returned, bound⟩ := product rfl
  exact ⟨column, row, returned, bound (by decide)⟩

/-- Two matrices without elements fit and can be multiplied, but words do not count the elements of
their product. An expression can build them, and it breaks off also where words count the elements
and only the storage does not hold them. -/
theorem product_outgrows_words :
    (⟨2 ^ 63, 0, #[], rfl⟩ : DenseMatrix Float).Fits ∧ (⟨0, 3, #[], rfl⟩ : DenseMatrix Float).Fits ∧
    BareMatrix.checkedMul (2 ^ 63) 3 = none ∧
    (⟨2 ^ 63, 0, #[], rfl⟩ : DenseMatrix Float).mul ⟨0, 3, #[], rfl⟩ =
      .error (.outOfStorage ⟨2 ^ 63, 3⟩) ∧
    evaluate "mat_mul(matrix(9223372036854775808, 0, set_diff(1, 1)), matrix(0, 3, set_diff(1, 1)))" =
      .error (.runtime (.outOfStorage ⟨2 ^ 63, 3⟩)) ∧
    evaluate "mat_det(mat_mul(matrix(2147483648, 0, set_diff(1, 1)), matrix(0, 2147483648, set_diff(1, 1))))" =
      .error (.runtime (.outOfStorage ⟨2 ^ 31, 2 ^ 31⟩)) := by
  refine ⟨⟨by decide, by decide, by decide⟩, ⟨by decide, by decide, by decide⟩, ?_⟩
  decide +kernel

end Calculator
