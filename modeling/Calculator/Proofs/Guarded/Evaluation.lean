import Calculator.Expr.Evaluation
import Calculator.Proofs.Guarded.Handlers

/-!
# Evaluation reaches nothing out of range

Guarded evaluation computes with bare values. Where a value goes into a function
or an operator, its matrix is tested for having the size of its shape, and what
the function reaches for is tested inside it. So an intermediate matrix of the
wrong size is a miss, and so is a position that is out of range anywhere in the
expression.

**Whole expressions.** A settled value passes its test (`checked_bare`), and every
function settles (`Builtin.guarded_eq`), so by induction over the expression
guarded evaluation is the evaluation of the model without the proofs
(`Expr.guarded_eq`).

**Single functions.** The same holds for each function called with any values,
and for the families that are called by name. All of them, together with the
condition under which a shape is accepted, are in `evaluation_in_range`.
-/

set_option autoImplicit false

namespace Calculator

open Guarded (permit permit_bind)

/-- The value with the proof about the size of its matrix, which is tested. -/
def BareValue.checked : BareValue → Guarded Value
  | number x => .ok (.number x)
  | vector xs => .ok (.vector xs)
  | matrix m =>
    if exact : m.Exact then .ok (.matrix ⟨m.rows, m.cols, m.buffer.toArray, exact⟩)
    else .error (.miss (.size m.shape m.buffer.length))

theorem BareValue.checked_bare (v : Value) : v.bare.checked = .ok v := by
  cases v with
  | number x => rfl
  | vector xs => rfl
  | matrix m => exact dif_pos (BareMatrix.exact_bare m)

theorem BareValue.mapM_checked_bare (vs : List Value) :
    (vs.map Value.bare).mapM checked = .ok vs := by
  induction vs with
  | nil => rfl
  | cons v vs ih =>
      rw [List.map_cons, List.mapM_cons, checked_bare, ih]
      rfl

namespace Expr

mutual
/-- The value of an expression, with everything tested that is reached for. -/
def guarded : Expr → Guarded BareValue
  | number x _ => .ok (.number x)
  | binary op left right _ => do
    let a ← left.guarded
    let b ← right.guarded
    settle (op.apply (← a.checked) (← b.checked))
  | call name arguments _ =>
    match Builtin.ofName? name with
    | none => .error (.failure (.unknownFunction name))
    | some function =>
      if function.arity.accepts arguments.length then do
        let values ← guardedAll arguments
        function.guarded (← values.mapM BareValue.checked)
      else .error (.failure (.argumentCount name function.arity))

/-- The values of several expressions, in order. -/
def guardedAll : List Expr → Guarded (List BareValue)
  | [] => .ok []
  | e :: others => do
    let v ← e.guarded
    let vs ← guardedAll others
    return v :: vs
end

mutual
/-- Guarded evaluation has the outcome of the model. -/
theorem guarded_eq (e : Expr) : e.guarded = settle e.eval := by
  cases e with
  | number x offset => rfl
  | binary op left right offset =>
      rw [guarded, eval, guarded_eq left, guarded_eq right]
      cases left.eval with
      | error error => rfl
      | ok a =>
          cases right.eval with
          | error error => rfl
          | ok b =>
              change (do settle (op.apply (← a.bare.checked) (← b.bare.checked))) = _
              rw [BareValue.checked_bare, BareValue.checked_bare]
              rfl
  | call name arguments offset =>
      rw [guarded, eval]
      cases Builtin.ofName? name with
      | none => rfl
      | some function =>
          dsimp only
          split
          case isFalse => rfl
          case isTrue =>
            rw [guardedAll_eq arguments]
            cases evalAll arguments with
            | error error => rfl
            | ok values =>
                change (do function.guarded (← (values.map Value.bare).mapM BareValue.checked)) = _
                rw [BareValue.mapM_checked_bare]
                exact function.guarded_eq values

theorem guardedAll_eq (es : List Expr) :
    guardedAll es = permit ((evalAll es).map (List.map Value.bare)) := by
  cases es with
  | nil => rfl
  | cons e others =>
      rw [guardedAll, evalAll, guarded_eq e, guardedAll_eq others]
      cases e.eval with
      | error error => rfl
      | ok v =>
          cases evalAll others with
          | error error => rfl
          | ok vs => rfl
end

end Expr

/-! ## In range -/

/-- A guarded computation reaches nothing out of range, has an exact result if any, and has the
outcome of the model. -/
structure InRange (guarded : Guarded BareValue) (plain : Except RuntimeError Value) : Prop where
  reached : ∀ what, guarded ≠ .error (.miss what)
  exact : ∀ v, guarded = .ok v → v.Exact
  same : guarded = settle plain

theorem inRange_of_eq {guarded : Guarded BareValue} {plain : Except RuntimeError Value}
    (same : guarded = settle plain) : InRange guarded plain := by
  refine ⟨fun what => ?_, fun v result => ?_, same⟩
  · rw [same]
    exact Guarded.permit_ne_miss _ what
  · rw [same] at result
    cases plain with
    | error error => cases result
    | ok value =>
        cases result
        exact value.exact_bare

/-- A shape is accepted only for as many elements as the product of its numbers, which is never
taken around the limit of words. No evaluation and no function called with any values reaches out
of range, and their matrices have the sizes of their shapes. -/
theorem evaluation_in_range :
    (∀ (rows cols : UInt64) (data : List Float) (m : BareMatrix Float),
      BareMatrix.new rows cols data = .ok m →
        data.length = rows.toNat * cols.toNat ∧ m = ⟨rows.toNat, cols.toNat, data⟩) ∧
    (∀ e : Expr, InRange e.guarded e.eval) ∧
    (∀ (function : Builtin) (args : List Value),
      InRange (function.guarded args) (function.apply args)) ∧
    ∀ (name : String) (args : List Value),
      (∀ measure, InRange (Guarded.aggregate name measure args)
        (Handler.aggregate name measure args)) ∧
      InRange (Guarded.vectorPairNamed name args) (Handler.vectorPairNamed name args) ∧
      InRange (Guarded.setPairNamed name args) (Handler.setPairNamed name args) ∧
      InRange (Guarded.matrixPairNamed name args) (Handler.matrixPairNamed name args) := by
  refine ⟨fun rows cols data m built => BareMatrix.exact_of_new built,
    fun e => inRange_of_eq e.guarded_eq,
    fun function args => inRange_of_eq (function.guarded_eq args), fun name args => ?_⟩
  exact ⟨fun measure => inRange_of_eq (Guarded.aggregate_eq name measure args),
    inRange_of_eq (Guarded.vectorPairNamed_eq name args),
    inRange_of_eq (Guarded.setPairNamed_eq name args),
    inRange_of_eq (Guarded.matrixPairNamed_eq name args)⟩

/-- Six elements are accepted for two rows of three, and a determinant of a product is computed from
the elements that are there. -/
theorem evaluation_in_range_determinant :
    (∃ m : BareMatrix Float, BareMatrix.new 2 3 [1, 2, 3, 4, 5, 6] = .ok m ∧
      m = ⟨2, 3, [1, 2, 3, 4, 5, 6]⟩) ∧
    ∃ e : Expr, e = .call "mat_det" [.call "mat_mul"
        [.call "matrix" [.number 2 0, .number 1 0, .number 3 0, .number 4 0] 0,
          .call "matrix" [.number 1 0, .number 2 0, .number 5 0, .number 6 0] 0] 0] 0 ∧
      InRange e.guarded e.eval ∧ e.guarded = .ok (.number 0) := by
  constructor
  · have built : BareMatrix.new 2 3 [(1 : Float), 2, 3, 4, 5, 6] =
        .ok ⟨2, 3, [1, 2, 3, 4, 5, 6]⟩ := by decide +kernel
    exact ⟨_, built, (evaluation_in_range.1 2 3 _ _ built).2⟩
  · exact ⟨_, rfl, evaluation_in_range.2.1 _, by decide +kernel⟩

end Calculator
