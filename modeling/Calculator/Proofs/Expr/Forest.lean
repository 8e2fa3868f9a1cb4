import Calculator.Proofs.Expr.Worth
import Calculator.Proofs.Outcome

/-!
# Nodes that list an expression, and nodes that do not

Reading nodes onto a stack loses nothing: the expressions on the stack, taken
from the bottom, list the nodes that were read (`pushAll_eq_ok_iff`). So nodes
are read as an expression exactly if they are its postorder.

A node needs operands, and what the nodes before it leave is their worth. Nodes
of which each finds its operands (`Supplied`) list a forest, that is several
expressions one after the other, and every forest is listed by such nodes
(`supplied_iff`).

**Failures.** `Fault` says which nodes list no expression, and why: there are
none, or a node is the first that finds too few operands, or the nodes list a
forest of two or more expressions. These are the errors of reading, each exactly
where it applies (`ofPostorder_eq_iff`).
-/

set_option autoImplicit false

namespace Calculator

/-! ## Operands of a node -/

namespace Node

/-- How many operands a node takes. -/
def operands : Node → Nat
  | number _ _ => 0
  | operator _ _ => 2
  | call _ arity _ => arity

/-- The error for a node that finds fewer operands than it takes. -/
inductive Lacks : Node → Nat → ParseError → Prop where
  | operator {found : Nat} (op : BinaryOperator) (offset : Nat) :
      found < 2 → Lacks (.operator op offset) found (.notEnoughOperands op offset)
  | call {found arity : Nat} (name : String) (offset : Nat) :
      found < arity →
        Lacks (.call name arity offset) found (.notEnoughArguments name arity found offset)

theorem exists_lacks_iff {node : Node} {found : Nat} :
    (∃ error, node.Lacks found error) ↔ found < node.operands := by
  constructor
  · rintro ⟨error, lacks⟩
    cases lacks with
    | operator op offset few => exact few
    | call name offset few => exact few
  · intro few
    cases node with
    | number value offset => cases few
    | operator op offset => exact ⟨_, .operator op offset few⟩
    | call name arity offset => exact ⟨_, .call name offset few⟩

end Node

namespace Expr

/-! ## One node -/

/-- A node is refused exactly if it finds too few operands on the stack. -/
theorem push_eq_error_iff {stack : List Expr} {node : Node} {error : ParseError} :
    push stack node = .error error ↔ node.Lacks stack.length error := by
  constructor
  · intro refused
    cases node with
    | number value offset => cases refused
    | operator op offset =>
        rcases stack with _ | ⟨right, _ | ⟨left, rest⟩⟩
        · cases refused
          exact .operator op offset (by simp)
        · cases refused
          exact .operator op offset (by simp)
        · cases refused
    | call name arity offset =>
        rw [push] at refused
        split at refused
        case isTrue few =>
          cases refused
          exact .call name offset few
        case isFalse => cases refused
  · intro lacks
    cases lacks with
    | operator op offset few =>
        rcases stack with _ | ⟨right, _ | ⟨left, rest⟩⟩
        · rfl
        · rfl
        · simp at few
    | call name offset few => rw [push, if_pos few]

theorem postorderAll_append (first second : List Expr) :
    postorderAll (first ++ second) = postorderAll first ++ postorderAll second := by
  induction first with
  | nil => rfl
  | cons e others ih => rw [List.cons_append, postorderAll, postorderAll, ih, List.append_assoc]

theorem postorderAll_singleton (e : Expr) : postorderAll [e] = e.postorder := by
  rw [postorderAll, postorderAll, List.append_nil]

/-- A node that is read comes after the nodes of the stack. -/
theorem postorderAll_push {stack next : List Expr} {node : Node}
    (pushed : push stack node = .ok next) :
    postorderAll next.reverse = postorderAll stack.reverse ++ [node] := by
  cases node with
  | number value offset =>
      cases pushed
      rw [List.reverse_cons, postorderAll_append]
      rfl
  | operator op offset =>
      rcases stack with _ | ⟨right, _ | ⟨left, rest⟩⟩
      · cases pushed
      · cases pushed
      · cases pushed
        simp only [List.reverse_cons, postorderAll_append, postorderAll_singleton, postorder,
          List.append_assoc]
  | call name arity offset =>
      rw [push] at pushed
      split at pushed
      case isTrue => cases pushed
      case isFalse enough =>
        cases pushed
        -- The arguments are the top of the stack, so their nodes are the last of its nodes.
        have count : (stack.take arity).reverse.length = arity := by
          rw [List.length_reverse, List.length_take]
          omega
        have split : stack.reverse = (stack.drop arity).reverse ++ (stack.take arity).reverse := by
          rw [← List.reverse_append, List.take_append_drop]
        rw [List.reverse_cons, postorderAll_append, postorderAll_singleton, postorder, count, split,
          postorderAll_append, List.append_assoc]

/-! ## Nodes one after the other -/

/-- Nodes that are read come after the nodes of the stack. -/
theorem postorderAll_pushAll {nodes : List Node} {stack last : List Expr}
    (pushed : pushAll stack nodes = .ok last) :
    postorderAll last.reverse = postorderAll stack.reverse ++ nodes := by
  induction nodes generalizing stack with
  | nil =>
      cases pushed
      rw [List.append_nil]
  | cons node rest ih =>
      rw [pushAll] at pushed
      obtain ⟨next, first, others⟩ := bind_eq_ok_iff.1 pushed
      rw [ih others, postorderAll_push first, List.append_assoc, List.singleton_append]

/-- A stack is built from the nodes of its expressions and from no others. -/
theorem pushAll_eq_ok_iff {nodes : List Node} {stack : List Expr} :
    pushAll [] nodes = .ok stack ↔ nodes = postorderAll stack.reverse := by
  constructor
  · intro pushed
    exact (postorderAll_pushAll pushed).symm
  · rintro rfl
    rw [pushAll_postorderAll, List.reverse_reverse, List.append_nil]

/-- Reading nodes fails exactly at a node that finds too few operands, after those before it have
been read. -/
theorem pushAll_eq_error_iff {nodes : List Node} {stack : List Expr} {error : ParseError} :
    pushAll stack nodes = .error error ↔
      ∃ before node after left, nodes = before ++ node :: after ∧
        pushAll stack before = .ok left ∧ node.Lacks left.length error := by
  constructor
  · intro failed
    induction nodes generalizing stack with
    | nil => cases failed
    | cons node rest ih =>
        rw [pushAll] at failed
        rcases bind_eq_error_iff.1 failed with refused | ⟨next, first, later⟩
        · exact ⟨[], node, rest, stack, rfl, rfl, push_eq_error_iff.1 refused⟩
        · obtain ⟨before, lacking, after, left, rfl, read, lacks⟩ := ih later
          refine ⟨node :: before, lacking, after, left, rfl, ?_, lacks⟩
          rw [pushAll]
          exact bind_eq_ok_iff.2 ⟨next, first, read⟩
  · rintro ⟨before, node, after, left, rfl, read, lacks⟩
    rw [pushAll_append]
    refine bind_eq_error_iff.2 (.inr ⟨left, read, ?_⟩)
    rw [pushAll]
    exact bind_eq_error_iff.2 (.inl (push_eq_error_iff.2 lacks))

/-- The number of expressions that nodes leave is their worth. -/
theorem length_eq_worth {nodes : List Node} {stack : List Expr}
    (pushed : pushAll [] nodes = .ok stack) : (stack.length : Int) = worth nodes := by
  rw [length_pushAll pushed, List.length_nil]
  omega

/-! ## Forests -/

/-- Every node finds its operands among what the nodes before it leave. -/
def Supplied (nodes : List Node) : Prop :=
  ∀ before node after, nodes = before ++ node :: after → (node.operands : Int) ≤ worth before

/-- Nodes that are all supplied list the expressions of a forest, and no other nodes do. -/
theorem supplied_iff {nodes : List Node} :
    Supplied nodes ↔ ∃ roots, nodes = postorderAll roots := by
  constructor
  · intro supplied
    cases pushed : pushAll [] nodes with
    | ok stack => exact ⟨stack.reverse, pushAll_eq_ok_iff.1 pushed⟩
    | error error =>
        obtain ⟨before, node, after, left, split, read, lacks⟩ := pushAll_eq_error_iff.1 pushed
        have enough := supplied before node after split
        have few := Node.exists_lacks_iff.1 ⟨error, lacks⟩
        rw [← length_eq_worth read] at enough
        omega
  · rintro ⟨roots, rfl⟩ before node after split
    -- All nodes of a forest are read, so none of them can be the one that is refused.
    have whole := pushAll_postorderAll roots []
    have parts := whole
    rw [split, pushAll_append] at parts
    obtain ⟨left, read, -⟩ := bind_eq_ok_iff.1 parts
    by_contra few
    rw [← length_eq_worth read] at few
    obtain ⟨error, lacks⟩ := Node.exists_lacks_iff.2 (by omega : left.length < node.operands)
    have failed := pushAll_eq_error_iff.2 ⟨before, node, after, left, split, read, lacks⟩
    rw [failed] at whole
    cases whole

/-! ## Reading an expression -/

/-- Nodes are read as an expression exactly if they are its postorder. -/
theorem ofPostorder_eq_ok_iff {nodes : List Node} {e : Expr} :
    ofPostorder nodes = .ok e ↔ nodes = e.postorder := by
  constructor
  · intro built
    rw [ofPostorder] at built
    obtain ⟨stack, pushed, alone⟩ := bind_eq_ok_iff.1 built
    rw [single] at alone
    rw [pushAll_eq_ok_iff.1 pushed]
    split at alone
    case h_1 => cases alone
    case h_2 root same =>
      cases alone
      rw [same, postorderAll_singleton]
    case h_3 => cases alone
  · rintro rfl
    exact ofPostorder_postorder e

/-- Why nodes list no expression. -/
inductive Fault : List Node → ParseError → Prop where
  | empty : Fault [] .emptyExpression
  | lacking {before : List Node} {node : Node} {found : Nat} {error : ParseError}
      (after : List Node) :
      Supplied before → worth before = found → node.Lacks found error →
        Fault (before ++ node :: after) error
  | leftOver (first second : Expr) (others : List Expr) :
      Fault (postorderAll (first :: second :: others)) (.invalidExpression second.offset)

/-- A fault is the error of reading. -/
theorem Fault.error {nodes : List Node} {error : ParseError} (fault : Fault nodes error) :
    ofPostorder nodes = .error error := by
  cases fault with
  | empty => rfl
  | lacking after supplied left lacks =>
      rename_i before node found
      obtain ⟨roots, rfl⟩ := supplied_iff.1 supplied
      have read := pushAll_postorderAll roots []
      have count := length_eq_worth read
      obtain rfl : (roots.reverse ++ []).length = found := by omega
      rw [ofPostorder, pushAll_eq_error_iff.2 ⟨_, node, after, _, rfl, read, lacks⟩]
      rfl
  | leftOver first second others =>
      rw [ofPostorder, pushAll_postorderAll, List.append_nil]
      change single (first :: second :: others).reverse = _
      rw [single, List.reverse_reverse]

/-- Nodes that are not read have a fault. -/
theorem fault_of_error {nodes : List Node} {error : ParseError}
    (failed : ofPostorder nodes = .error error) : Fault nodes error := by
  rw [ofPostorder] at failed
  rcases bind_eq_error_iff.1 failed with refused | ⟨stack, pushed, several⟩
  · obtain ⟨before, node, after, left, rfl, read, lacks⟩ := pushAll_eq_error_iff.1 refused
    exact .lacking after (supplied_iff.2 ⟨_, pushAll_eq_ok_iff.1 read⟩)
      (length_eq_worth read).symm lacks
  · rw [single] at several
    rw [pushAll_eq_ok_iff.1 pushed]
    split at several
    case h_1 same =>
      cases several
      rw [same]
      exact .empty
    case h_2 => cases several
    case h_3 first second others same =>
      cases several
      rw [same]
      exact .leftOver first second others

/-- Nodes are read as an expression exactly if they are its postorder, and otherwise reading fails
with the error of their fault: there are no nodes, or one is the first to find too few operands, or
more than one expression is left. -/
theorem ofPostorder_eq_iff (nodes : List Node) :
    (∀ e, ofPostorder nodes = .ok e ↔ nodes = e.postorder) ∧
      ∀ error, ofPostorder nodes = .error error ↔ Fault nodes error :=
  ⟨fun _ => ofPostorder_eq_ok_iff, fun _ => ⟨fault_of_error, Fault.error⟩⟩

end Expr

end Calculator
