import Calculator.Builtin.Table
import Calculator.Expr.Basic
import Calculator.Operator.Apply

/-!
# The value of an expression

Evaluation is strict and goes from left to right, and the first error ends it. Of an operation,
the left operand is evaluated before the right one. Of a call, first the name must be known, then
the number of arguments must be accepted, and only then the arguments are evaluated in order.
-/

set_option autoImplicit false

namespace Calculator.Expr

mutual
/-- The value of an expression. -/
def eval : Expr → Except RuntimeError Value
  | number x _ => .ok (.number x)
  | binary op left right _ => do
    let a ← left.eval
    let b ← right.eval
    op.apply a b
  | call name arguments _ =>
    match Builtin.ofName? name with
    | none => .error (.unknownFunction name)
    | some function =>
      if function.arity.accepts arguments.length then do
        function.apply (← evalAll arguments)
      else .error (.argumentCount name function.arity)

/-- The values of several expressions, in order. -/
def evalAll : List Expr → Except RuntimeError (List Value)
  | [] => .ok []
  | e :: others => do
    let v ← e.eval
    let vs ← evalAll others
    return v :: vs
end

end Calculator.Expr
