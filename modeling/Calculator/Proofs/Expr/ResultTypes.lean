import Calculator.Proofs.Builtin.Outcomes
import Calculator.Proofs.Expr.Strictness

/-!
# Types of results

The type of what an expression evaluates to can be read off its root, without looking
at the parts: an operation is a number, and a call returns what the function of that
name returns (`Expr.type`). The names of the functions that return vectors and matrices
are listed here apart from the functions. Every name of the table stands for a function
that returns values of the listed type (`returnType_eq`), so a value is of the type of
its expression (`Expr.type_of_eval`).

An operator has a result only for two numbers, and the result is finite
(`BinaryOperator.numbers_of_apply`). So an operand that is a vector or a matrix by its
root can be refused before anything is computed: nothing has a value that has such an
operation among its parts (`result_types`).
-/

set_option autoImplicit false

namespace Calculator

/-! ## The type of an expression -/

/-- The names of the functions that return a vector. -/
def vectorNames : List String :=
  ["vector", "vec_add", "vec_sub", "vec_scale", "mat_vec_mul", "set_union", "set_intersect",
    "set_diff"]

/-- The names of the functions that return a matrix. -/
def matrixNames : List String :=
  ["matrix", "mat_add", "mat_sub", "mat_mul", "mat_scale", "mat_transpose"]

/-- The type of what the function of a name returns. -/
def returnType (name : String) : ValueType :=
  if name ∈ vectorNames then .vector else if name ∈ matrixNames then .matrix else .number

/-- The type of what an expression evaluates to, by its root. -/
def Expr.type : Expr → ValueType
  | number _ _ | binary _ _ _ _ => .number
  | call name _ _ => returnType name

/-- Every name of the table stands for a function of its type. -/
theorem returnType_of_mem : ∀ entry ∈ Builtin.table, returnType entry.1 = entry.2.resultType := by
  decide

theorem returnType_eq {name : String} {function : Builtin}
    (known : Builtin.ofName? name = some function) : returnType name = function.resultType := by
  obtain ⟨before, after, listed, -⟩ := List.lookup_eq_some_iff.1 known
  have member : (name, function) ∈ Builtin.table := by
    rw [listed]
    exact List.mem_append_right before List.mem_cons_self
  exact returnType_of_mem _ member

/-! ## Operators -/

namespace BinaryOperator

variable {op : BinaryOperator} {a b v : Value}

/-- An operator with a result has two numbers, and a finite number is its result. -/
theorem numbers_of_apply (computed : op.apply a b = .ok v) :
    a.type = .number ∧ b.type = .number ∧ ∃ z, v = .number z ∧ Binary64.isFinite z = true := by
  rw [apply.eq_def] at computed
  split at computed
  case h_1 x y =>
    cases result : op.onNumbers x y with
    | error error =>
        rw [result] at computed
        cases computed
    | ok z =>
        rw [result] at computed
        cases computed
        exact ⟨rfl, rfl, z, rfl, (op.ends_onNumbers x y).result result⟩
  case h_2 => cases computed

/-- An operator refuses operands that are not both numbers. -/
theorem apply_of_type_ne (apart : a.type ≠ .number ∨ b.type ≠ .number) :
    op.apply a b = .error (.nonNumericOperands op) := by
  rw [apply.eq_def]
  split
  case h_1 x y => exact absurd apart (not_or.2 ⟨not_not.2 rfl, not_not.2 rfl⟩)
  case h_2 => rfl

end BinaryOperator

/-! ## Expressions -/

namespace Expr

/-- A value is of the type of its expression. -/
theorem type_of_eval {e : Expr} {v : Value} (evaluated : e.eval = .ok v) : v.type = e.type := by
  cases e with
  | number x offset =>
      cases evaluated
      rfl
  | binary op left right offset =>
      rw [eval] at evaluated
      obtain ⟨a, -, evaluated⟩ := bind_eq_ok_iff.1 evaluated
      obtain ⟨b, -, evaluated⟩ := bind_eq_ok_iff.1 evaluated
      exact (op.ends_apply a b).result evaluated
  | call name arguments offset =>
      rw [eval] at evaluated
      split at evaluated
      case h_1 => cases evaluated
      case h_2 function known =>
        split at evaluated
        case isFalse => cases evaluated
        case isTrue =>
          obtain ⟨values, -, evaluated⟩ := bind_eq_ok_iff.1 evaluated
          exact ((function.ends_apply values).result evaluated).trans (returnType_eq known).symm

/-- An operation has a value only if its operands are numbers, and it is a finite number. -/
theorem numbers_of_eval {op : BinaryOperator} {left right : Expr} {offset : Nat} {v : Value}
    (evaluated : (binary op left right offset).eval = .ok v) :
    left.type = .number ∧ right.type = .number ∧
      ∃ z, v = .number z ∧ Binary64.isFinite z = true := by
  rw [eval] at evaluated
  obtain ⟨a, first, evaluated⟩ := bind_eq_ok_iff.1 evaluated
  obtain ⟨b, second, evaluated⟩ := bind_eq_ok_iff.1 evaluated
  obtain ⟨numberA, numberB, finite⟩ := BinaryOperator.numbers_of_apply evaluated
  exact ⟨(type_of_eval first).symm.trans numberA, (type_of_eval second).symm.trans numberB, finite⟩

theorem eval_of_type_ne {op : BinaryOperator} {left right : Expr} {offset : Nat} {a b : Value}
    (first : left.eval = .ok a) (second : right.eval = .ok b)
    (apart : left.type ≠ .number ∨ right.type ≠ .number) :
    (binary op left right offset).eval = .error (.nonNumericOperands op) := by
  rw [← type_of_eval first, ← type_of_eval second] at apart
  rw [eval, first, second]
  exact BinaryOperator.apply_of_type_ne apart

end Expr

/-- A value is of the type that the root of its expression has, and the value of an operation is a
finite number. No expression has a value if an operation among its parts has an operand that is a
vector or a matrix; if both operands of that operation have values, it refuses them. -/
theorem result_types (e : Expr) :
    (∀ v, e.eval = .ok v → v.type = e.type) ∧
    (∀ op left right offset v, e = .binary op left right offset → e.eval = .ok v →
      ∃ z, v = .number z ∧ Binary64.isFinite z = true) ∧
    ∀ op left right offset, .binary op left right offset ∈ e.parts →
      left.type ≠ .number ∨ right.type ≠ .number →
      (∀ v, e.eval ≠ .ok v) ∧
      ∀ a b, left.eval = .ok a → right.eval = .ok b →
        (Expr.binary op left right offset).eval = .error (.nonNumericOperands op) := by
  refine ⟨fun v => Expr.type_of_eval, ?_, ?_⟩
  · rintro op left right offset v rfl evaluated
    exact (Expr.numbers_of_eval evaluated).2.2
  · intro op left right offset member apart
    refine ⟨fun v evaluated => ?_, fun a b first second => Expr.eval_of_type_ne first second apart⟩
    obtain ⟨own, evaluated⟩ := Expr.eval_parts evaluated member
    obtain ⟨numberL, numberR, -⟩ := Expr.numbers_of_eval evaluated
    exact apart.elim (absurd numberL) (absurd numberR)

/-- The transpose of a matrix is a matrix, `1 + 2` is a finite number, and `neg(vector(1, 2) * 3)`
has no value because of the vector. -/
theorem result_types_vector :
    (∃ v, (Expr.call "mat_transpose" [.call "matrix" [.number 1 0, .number 1 0, .number 7 0] 0]
        0).eval = .ok v ∧ v.type = .matrix) ∧
    (∃ v z, (Expr.binary .add (.number 1 0) (.number 2 0) 0).eval = .ok v ∧ v = .number z ∧
      Binary64.isFinite z = true) ∧
    ∃ product, product = Expr.binary .mul (.call "vector" [.number 1 0, .number 2 0] 0)
        (.number 3 0) 0 ∧
      (∀ v, (Expr.call "neg" [product] 0).eval ≠ .ok v) ∧
      product.eval = .error (.nonNumericOperands .mul) := by
  refine ⟨?_, ?_, ?_⟩
  · have shown : (Expr.call "mat_transpose"
        [.call "matrix" [.number 1 0, .number 1 0, .number 7 0] 0] 0).eval =
          .ok (.matrix ⟨1, 1, #[7], rfl⟩) := by decide +kernel
    exact ⟨_, shown, (result_types _).1 _ shown⟩
  · have shown : (Expr.binary .add (.number 1 0) (.number 2 0) 0).eval = .ok (.number 3) := by
      decide +kernel
    obtain ⟨z, value, finite⟩ := (result_types _).2.1 _ _ _ _ _ rfl shown
    exact ⟨_, z, shown, value, finite⟩
  · have operand : (Expr.call "vector" [.number 1 0, .number 2 0] 0).eval =
        .ok (.vector [1, 2]) := by decide +kernel
    have part : Expr.binary .mul (.call "vector" [.number 1 0, .number 2 0] 0) (.number 3 0) 0 ∈
        (Expr.call "neg" [.binary .mul (.call "vector" [.number 1 0, .number 2 0] 0)
          (.number 3 0) 0] 0).parts := by simp [Expr.parts, Expr.partsAll]
    obtain ⟨never, refused⟩ := (result_types _).2.2 _ _ _ _ part (.inl (by decide))
    exact ⟨_, rfl, never, refused _ _ operand rfl⟩

end Calculator
