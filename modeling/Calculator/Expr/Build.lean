import Calculator.Error.Basic
import Calculator.Expr.Basic

/-!
# Expressions from their nodes in postorder

The nodes are read onto a stack of finished expressions. An operator takes its right operand from
the top and its left operand from below it; a call takes as many expressions as its arity says, the
last argument from the top. Exactly one expression has to remain.

Reading the nodes of an expression in postorder puts that expression on the stack
(`pushAll_postorder`), so it is read back from them (`ofPostorder_postorder`), and expressions are
compared by their nodes.
-/

set_option autoImplicit false

namespace Calculator.Expr

/-- Reads one node onto a stack of expressions, whose head is its top. -/
def push (stack : List Expr) : Node → Except ParseError (List Expr)
  | .number value offset => .ok (.number value offset :: stack)
  | .operator op offset =>
    match stack with
    | right :: left :: rest => .ok (.binary op left right offset :: rest)
    | _ => .error (.notEnoughOperands op offset)
  | .call name arity offset =>
    if stack.length < arity then
      .error (.notEnoughArguments name arity stack.length offset)
    else .ok (.call name (stack.take arity).reverse offset :: stack.drop arity)

/-- Reads nodes onto a stack of expressions, up to the first that lacks operands. -/
def pushAll (stack : List Expr) : List Node → Except ParseError (List Expr)
  | [] => .ok stack
  | node :: rest => do
    let stack ← push stack node
    pushAll stack rest

/-- The single expression of a stack; the error points at the second expression from the bottom. -/
def single (stack : List Expr) : Except ParseError Expr :=
  match stack.reverse with
  | [] => .error .emptyExpression
  | [e] => .ok e
  | _ :: second :: _ => .error (.invalidExpression second.offset)

/-- The expression whose nodes in postorder are given. -/
def ofPostorder (nodes : List Node) : Except ParseError Expr := do
  single (← pushAll [] nodes)

/-! ## Reading back -/

theorem pushAll_append (stack : List Expr) (nodes later : List Node) :
    pushAll stack (nodes ++ later) = (pushAll stack nodes >>= fun s => pushAll s later) := by
  induction nodes generalizing stack with
  | nil => rfl
  | cons node rest ih =>
    rw [List.cons_append, pushAll, pushAll]
    cases push stack node with
    | error e => rfl
    | ok next => exact ih next

mutual
/-- The nodes of an expression leave that expression on top of the stack. -/
theorem pushAll_postorder (e : Expr) (stack : List Expr) :
    pushAll stack e.postorder = .ok (e :: stack) := by
  cases e with
  | number value offset => rfl
  | binary op left right offset =>
    rw [postorder, pushAll_append, pushAll_append, pushAll_postorder left stack]
    change (pushAll (left :: stack) right.postorder >>= _) = _
    rw [pushAll_postorder right (left :: stack)]
    rfl
  | call name arguments offset =>
    rw [postorder, pushAll_append, pushAll_postorderAll arguments stack]
    change pushAll (arguments.reverse ++ stack) [.call name arguments.length offset] = _
    have enough : ¬ (arguments.reverse ++ stack).length < arguments.length := by simp
    have taken : (arguments.reverse ++ stack).take arguments.length = arguments.reverse :=
      List.take_left' arguments.length_reverse
    have left : (arguments.reverse ++ stack).drop arguments.length = stack :=
      List.drop_left' arguments.length_reverse
    simp only [pushAll, push, if_neg enough, taken, left, List.reverse_reverse]
    rfl

/-- The nodes of several expressions leave them on the stack, the last one on top. -/
theorem pushAll_postorderAll (es : List Expr) (stack : List Expr) :
    pushAll stack (postorderAll es) = .ok (es.reverse ++ stack) := by
  cases es with
  | nil => rfl
  | cons e others =>
    rw [postorderAll, pushAll_append, pushAll_postorder e stack]
    change pushAll (e :: stack) (postorderAll others) = _
    rw [pushAll_postorderAll others (e :: stack), List.reverse_cons, List.append_assoc]
    rfl
end

/-- An expression is read back from its nodes. -/
theorem ofPostorder_postorder (e : Expr) : ofPostorder e.postorder = .ok e := by
  rw [ofPostorder, pushAll_postorder e []]
  rfl

/-- Different expressions have different nodes. -/
theorem postorder_injective {a b : Expr} (h : a.postorder = b.postorder) : a = b :=
  Except.ok.inj ((ofPostorder_postorder a).symm.trans (h ▸ ofPostorder_postorder b))

instance : DecidableEq Expr := fun a b =>
  decidable_of_iff (a.postorder = b.postorder) ⟨postorder_injective, congrArg postorder⟩

end Calculator.Expr
