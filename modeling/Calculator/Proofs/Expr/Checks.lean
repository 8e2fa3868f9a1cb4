import Calculator.Proofs.Expr.Strictness

/-!
# The first failing check

**Checks.** Evaluation consists of checks, and `Expr.checks` lists those of an
expression by its shape alone, in the order in which they are due: for a call
the name, the number of arguments, the checks of the arguments from left to
right and the function itself; for an operation the checks of the left operand,
those of the right one and the operator itself. What a check finds
(`Check.fault?`) depends on nothing but its own operands. An operator or a
function whose operands lack a value finds nothing, because one of their checks
is to blame, and those come before.

**The error.** An expression fails exactly if one of its checks does, with the
error of the first one (`eval_eq_error_iff`): errors travel outwards unchanged.

**Replacements.** A subexpression is what stands in the hole of a `Context`, and
every part stands in one (`exists_fill_of_mem`). The checks before those of the
hole, `Context.before`, are the same whatever stands in it (`checks_fill`). So
the first failing check stays the first and its error the error of the
expression if a subexpression is replaced that comes after it
(`first_fault_wins`).
-/

set_option autoImplicit false

namespace Calculator

/-- The error of an outcome, if it is one. -/
def failure? {α : Type} : Except RuntimeError α → Option RuntimeError
  | .error error => some error
  | .ok _ => none

@[simp] theorem failure?_error {α : Type} (error : RuntimeError) :
    failure? (.error error : Except RuntimeError α) = some error := rfl

@[simp] theorem failure?_ok {α : Type} (result : α) :
    failure? (.ok result : Except RuntimeError α) = none := rfl

theorem failure?_eq_some_iff {α : Type} {outcome : Except RuntimeError α} {error : RuntimeError} :
    failure? outcome = some error ↔ outcome = .error error := by
  cases outcome with
  | error other => simp
  | ok result => simp

/-! ## Checks -/

/-- Something that evaluation checks: that a name is known, that the function of a name accepts a
number of arguments, that an operator has a value on its operands, that a function has one on its
arguments. -/
inductive Check where
  | name (name : String)
  | count (name : String) (arguments : Nat)
  | operator (op : BinaryOperator) (left right : Expr)
  | function (name : String) (arguments : List Expr)

/-- The error of a check that fails. Each kind of check leaves to the checks before it what these
find: an unknown name is no fault of the number of arguments, and operands without a value are none
of the operator. -/
def Check.fault? : Check → Option RuntimeError
  | name text =>
    match Builtin.ofName? text with
    | none => some (.unknownFunction text)
    | some _ => none
  | count text arguments =>
    match Builtin.ofName? text with
    | none => none
    | some callee =>
      if callee.arity.accepts arguments then none else some (.argumentCount text callee.arity)
  | operator op left right =>
    match left.eval, right.eval with
    | .ok a, .ok b => failure? (op.apply a b)
    | _, _ => none
  | function text arguments =>
    match Builtin.ofName? text, Expr.evalAll arguments with
    | some callee, .ok values => failure? (callee.apply values)
    | _, _ => none

namespace Expr

mutual
/-- The checks of an expression, in the order in which they are due. -/
def checks : Expr → List Check
  | number _ _ => []
  | binary op left right _ => left.checks ++ (right.checks ++ [.operator op left right])
  | call name arguments _ =>
    .name name :: .count name arguments.length ::
      (checksAll arguments ++ [.function name arguments])

/-- The checks of several expressions, one expression after the other. -/
def checksAll : List Expr → List Check
  | [] => []
  | e :: others => e.checks ++ checksAll others
end

theorem checksAll_append (first second : List Expr) :
    checksAll (first ++ second) = checksAll first ++ checksAll second := by
  induction first with
  | nil => rfl
  | cons e others ih => rw [List.cons_append, checksAll, checksAll, ih, List.append_assoc]

/-! ## The error of an expression -/

mutual
/-- The first fault among the checks of an expression is its error, if it has one. -/
theorem findSome?_checks (e : Expr) : e.checks.findSome? Check.fault? = failure? e.eval := by
  cases e with
  | number x offset => rfl
  | binary op left right offset =>
      rw [checks, List.findSome?_append, List.findSome?_append, findSome?_checks left,
        findSome?_checks right, eval]
      -- The operator is reached if and only if both operands have a value.
      cases first : left.eval with
      | error error => rfl
      | ok a =>
          cases second : right.eval with
          | error error => rfl
          | ok b => simp [Check.fault?, first, second, bind, Except.bind]
  | call name arguments offset =>
      rw [checks, List.findSome?_cons, List.findSome?_cons, List.findSome?_append,
        findSome?_checksAll arguments, eval]
      cases known : Builtin.ofName? name with
      | none => simp [Check.fault?, known]
      | some function =>
          cases accepted : function.arity.accepts arguments.length with
          | false => simp [Check.fault?, known, accepted]
          | true =>
              cases all : evalAll arguments with
              | error error => simp [Check.fault?, known, accepted, bind, Except.bind]
              | ok values => simp [Check.fault?, known, accepted, all, bind, Except.bind]

theorem findSome?_checksAll (es : List Expr) :
    (checksAll es).findSome? Check.fault? = failure? (evalAll es) := by
  cases es with
  | nil => rfl
  | cons e others =>
      rw [checksAll, List.findSome?_append, findSome?_checks e, findSome?_checksAll others, evalAll]
      cases first : e.eval with
      | error error => rfl
      | ok value =>
          cases rest : evalAll others with
          | error error => rfl
          | ok values => rfl
end

/-- A check is the first one of an expression that fails, after some that pass. -/
structure FirstFault (e : Expr) (earlier : List Check) (check : Check) (error : RuntimeError) :
    Prop where
  due : earlier ++ [check] <+: e.checks
  passed : ∀ other ∈ earlier, other.fault? = none
  failed : check.fault? = some error

/-- An expression fails exactly if a check of it is the first to fail, and with its error. -/
theorem eval_eq_error_iff {e : Expr} {error : RuntimeError} :
    e.eval = .error error ↔ ∃ earlier check, FirstFault e earlier check error := by
  rw [← failure?_eq_some_iff, ← findSome?_checks, List.findSome?_eq_some_iff]
  constructor
  · rintro ⟨earlier, check, later, split, failed, passed⟩
    exact ⟨earlier, check, ⟨later, by simp [split]⟩, passed, failed⟩
  · rintro ⟨earlier, check, ⟨later, split⟩, passed, failed⟩
    exact ⟨earlier, check, later, by simp [← split], failed, passed⟩

/-! ## Subexpressions in their context -/

/-- An expression with a hole in place of one subexpression. -/
inductive Context where
  | hole
  | left (op : BinaryOperator) (context : Context) (right : Expr) (offset : Nat)
  | right (op : BinaryOperator) (left : Expr) (context : Context) (offset : Nat)
  | argument (name : String) (before : List Expr) (context : Context) (after : List Expr)
      (offset : Nat)

namespace Context

/-- The expression with a subexpression in the hole. -/
def fill : Context → Expr → Expr
  | hole, e => e
  | left op context second offset, e => .binary op (context.fill e) second offset
  | right op first context offset, e => .binary op first (context.fill e) offset
  | argument name earlier context later offset, e =>
    .call name (earlier ++ context.fill e :: later) offset

/-- The checks that are due before those of the hole. -/
def before : Context → List Check
  | hole => []
  | left _ context _ _ => context.before
  | right _ first context _ => first.checks ++ context.before
  | argument name earlier context later _ =>
    .name name :: .count name (earlier.length + (later.length + 1)) ::
      (checksAll earlier ++ context.before)

/-- The checks before the hole come first and those of the subexpression in the hole come next. -/
theorem checks_fill (context : Context) (e : Expr) :
    context.before ++ e.checks <+: (context.fill e).checks := by
  induction context with
  | hole => exact List.prefix_rfl
  | left op context second offset ih => exact ih.trans (List.prefix_append _ _)
  | right op first context offset ih =>
      rw [before, fill, checks, List.append_assoc, List.prefix_append_right_inj]
      exact ih.trans (List.prefix_append _ _)
  | argument name earlier context later offset ih =>
      simp only [before, fill, checks, checksAll_append, checksAll, List.length_append,
        List.length_cons, List.cons_append, List.append_assoc, List.cons_prefix_cons, true_and,
        List.prefix_append_right_inj]
      exact ih.trans (List.prefix_append _ _)

end Context

mutual
/-- Every part of an expression stands in the hole of a context. -/
theorem exists_fill_of_mem {e part : Expr} (member : part ∈ e.parts) :
    ∃ context : Context, context.fill part = e := by
  cases e with
  | number x offset =>
      obtain rfl := List.mem_singleton.1 member
      exact ⟨.hole, rfl⟩
  | binary op left right offset =>
      rw [parts, List.mem_cons, List.mem_append] at member
      rcases member with rfl | inLeft | inRight
      · exact ⟨.hole, rfl⟩
      · obtain ⟨context, rfl⟩ := exists_fill_of_mem inLeft
        exact ⟨.left op context right offset, rfl⟩
      · obtain ⟨context, rfl⟩ := exists_fill_of_mem inRight
        exact ⟨.right op left context offset, rfl⟩
  | call name arguments offset =>
      rw [parts, List.mem_cons] at member
      rcases member with rfl | inside
      · exact ⟨.hole, rfl⟩
      · obtain ⟨before, context, after, rfl⟩ := exists_fill_of_mem_partsAll inside
        exact ⟨.argument name before context after offset, rfl⟩

theorem exists_fill_of_mem_partsAll {es : List Expr} {part : Expr} (member : part ∈ partsAll es) :
    ∃ (before : List Expr) (context : Context) (after : List Expr),
      before ++ context.fill part :: after = es := by
  cases es with
  | nil => cases member
  | cons e others =>
      rw [partsAll, List.mem_append] at member
      rcases member with inFirst | inOthers
      · obtain ⟨context, rfl⟩ := exists_fill_of_mem inFirst
        exact ⟨[], context, others, rfl⟩
      · obtain ⟨before, context, after, rfl⟩ := exists_fill_of_mem_partsAll inOthers
        exact ⟨e :: before, context, after, rfl⟩
end

/-! ## Replacing what comes later -/

/-- The first failing check stays the first if a subexpression after it is replaced. -/
theorem FirstFault.replace {context : Context} {part : Expr} {earlier : List Check} {check : Check}
    {error : RuntimeError} (first : FirstFault (context.fill part) earlier check error)
    (sooner : earlier.length < context.before.length) (other : Expr) :
    FirstFault (context.fill other) earlier check error := by
  have untouched : earlier ++ [check] <+: context.before := by
    refine List.prefix_of_prefix_length_le first.due
      ((List.prefix_append _ _).trans (context.checks_fill part)) ?_
    rw [List.length_append, List.length_singleton]
    exact sooner
  exact ⟨untouched.trans ((List.prefix_append _ _).trans (context.checks_fill other)),
    first.passed, first.failed⟩

/-- The error of an expression is that of its first failing check, and it stays the error if any
subexpression that lies wholly after this check is replaced by any other expression. The check is
`earlier.length` places from the first one, and those of the subexpression begin after
`context.before.length` places. -/
theorem first_fault_wins {e : Expr} {error : RuntimeError} (fails : e.eval = .error error) :
    ∃ earlier check, FirstFault e earlier check error ∧
      ∀ (context : Context) (part other : Expr), context.fill part = e →
        earlier.length < context.before.length → (context.fill other).eval = .error error := by
  obtain ⟨earlier, check, first⟩ := eval_eq_error_iff.1 fails
  refine ⟨earlier, check, first, ?_⟩
  rintro context part other rfl sooner
  exact eval_eq_error_iff.2 ⟨earlier, check, first.replace sooner other⟩

/-- In `gcd(1 / 0, nope(1))` the division is the first to fail, whatever the second argument is. -/
theorem first_fault_wins_gcd :
    (call "gcd" [.binary .div (.number 1 4) (.number 0 8) 6, .call "nope" [.number 1 16] 11] 0).eval =
        .error (.divisionByZero (.quotient 1)) ∧
      ∃ earlier check,
        FirstFault
          (call "gcd" [.binary .div (.number 1 4) (.number 0 8) 6, .call "nope" [.number 1 16] 11] 0)
          earlier check (.divisionByZero (.quotient 1)) ∧
        ∀ (context : Context) (part other : Expr),
          context.fill part = call "gcd"
            [.binary .div (.number 1 4) (.number 0 8) 6, .call "nope" [.number 1 16] 11] 0 →
          earlier.length < context.before.length →
          (context.fill other).eval = .error (.divisionByZero (.quotient 1)) :=
  have fails : (call "gcd"
      [.binary .div (.number 1 4) (.number 0 8) 6, .call "nope" [.number 1 16] 11] 0).eval =
      .error (.divisionByZero (.quotient 1)) := by decide +kernel
  ⟨fails, first_fault_wins fails⟩

end Expr

end Calculator
