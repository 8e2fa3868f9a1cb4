import Calculator.Expr.Build
import Mathlib

/-!
# How many expressions nodes leave

The *worth* of nodes is by how much they change the number of expressions on
the stack they are read onto: one more for a number, one less for an operator,
and for a call one more less its arguments. Nodes that spell an expression are
worth one (`worth_of_ofPostorder`), whatever order they come in.
-/

set_option autoImplicit false

namespace Calculator

/-- By how much a node changes the number of expressions on a stack. -/
def Node.worth : Node → Int
  | .number _ _ => 1
  | .operator _ _ => -1
  | .call _ arity _ => 1 - arity

/-- By how much nodes change the number of expressions on a stack. -/
def worth (nodes : List Node) : Int := (nodes.map Node.worth).sum

@[simp] theorem worth_nil : worth [] = 0 := rfl

@[simp] theorem worth_cons (node : Node) (nodes : List Node) :
    worth (node :: nodes) = node.worth + worth nodes := rfl

@[simp] theorem worth_append (first second : List Node) :
    worth (first ++ second) = worth first + worth second := by
  simp [worth]

namespace Expr

theorem length_push {stack next : List Expr} {node : Node} (pushed : push stack node = .ok next) :
    (next.length : Int) = stack.length + node.worth := by
  cases node with
  | number value offset =>
      cases pushed
      simp [Node.worth]
  | operator op offset =>
      rcases stack with _ | ⟨right, _ | ⟨left, rest⟩⟩
      · cases pushed
      · cases pushed
      · cases pushed
        simp only [List.length_cons, Node.worth]
        omega
  | call name arity offset =>
      rw [push] at pushed
      split at pushed
      · cases pushed
      · cases pushed
        simp only [List.length_cons, List.length_drop, Node.worth]
        omega

theorem length_pushAll {nodes : List Node} {stack last : List Expr}
    (pushed : pushAll stack nodes = .ok last) :
    (last.length : Int) = stack.length + worth nodes := by
  induction nodes generalizing stack with
  | nil =>
      cases pushed
      simp
  | cons node rest ih =>
      rw [pushAll] at pushed
      cases first : push stack node with
      | error error => rw [first] at pushed; cases pushed
      | ok next =>
          rw [first] at pushed
          have step := length_push first
          have run := ih pushed
          rw [worth_cons]
          omega

/-- Nodes that spell an expression are worth one. -/
theorem worth_of_ofPostorder {nodes : List Node} {e : Expr} (built : ofPostorder nodes = .ok e) :
    worth nodes = 1 := by
  rw [ofPostorder] at built
  cases pushed : pushAll [] nodes with
  | error error => rw [pushed] at built; cases built
  | ok stack =>
      rw [pushed] at built
      have alone : stack.length = 1 := by
        have built : single stack = .ok e := built
        rw [single] at built
        rw [← List.length_reverse]
        split at built
        · cases built
        · simp_all
        · cases built
      have counted := length_pushAll pushed
      simp only [alone, List.length_nil] at counted
      omega

end Expr

end Calculator
