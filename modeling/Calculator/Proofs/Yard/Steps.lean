import Calculator.Expr.Reading
import Mathlib.Data.List.TakeDrop
import Mathlib.Data.List.TakeWhile

/-!
# What one lexeme does to the yard

The laws below say once what each lexeme does to a yard whose stack is split at
the place where the lexeme stops popping: a block of entries that leave, and
what stays below it. Everything proved about runs of the yard goes through them
and never opens the operations again.

A comma and a closing parenthesis pop down to the innermost open parenthesis
(`comma_append`, `close_append`), an operator pops the entries that bind at
least as tightly (`operator_append`). Closing a call takes its name off the
stack and its counter with it (`closeCall_name`); any other parenthesis just
goes (`closeCall_of_not_name`).
-/

set_option autoImplicit false

namespace Calculator

namespace Waiting

/-- Whether a name waits here. -/
def isName : Waiting → Bool
  | name _ _ => true
  | _ => false

theorem isParen_of_bindsAtLeast {precedence : Nat} {w : Waiting}
    (tight : w.bindsAtLeast precedence = true) : w.isParen = false := by
  cases w with
  | operator op offset => rfl
  | name text offset => rfl
  | paren offset => simp [bindsAtLeast] at tight

/-- What binds at least as tightly as one precedence binds so for every lower one. -/
theorem bindsAtLeast_mono {low high : Nat} (below : low ≤ high) {w : Waiting}
    (tight : w.bindsAtLeast high = true) : w.bindsAtLeast low = true := by
  cases w with
  | operator op offset =>
      simp only [bindsAtLeast, decide_eq_true_eq] at tight ⊢
      exact Nat.le_trans below tight
  | name text offset => simp [bindsAtLeast] at tight
  | paren offset => simp [bindsAtLeast] at tight

end Waiting

namespace Yard

variable {output : Array Node} {above below stack : List Waiting} {counters : List Nat}

/-! ## Output -/

theorem appendList_appendList (output : Array Node) (first second : List Node) :
    output ++ first ++ second = output ++ (first ++ second) := by
  apply Array.ext'
  simp

theorem push_eq_appendList (output : Array Node) (node : Node) :
    output.push node = output ++ [node] := by
  apply Array.ext'
  simp

@[simp] theorem released_nil : released [] = [] := rfl

theorem released_append (above below : List Waiting) :
    released (above ++ below) = released above ++ released below := by
  simp [released]

/-! ## Where popping stops -/

/-- A block that satisfies a test is split off where the test first fails. -/
theorem span_append {test : Waiting → Bool} (passes : ∀ w ∈ above, test w = true)
    (stops : ∀ w ∈ below.head?, test w = false) :
    (above ++ below).span test = (above, below) := by
  rw [List.span_eq_takeWhile_dropWhile, List.takeWhile_append_of_pos passes,
    List.dropWhile_append_of_pos passes]
  cases below with
  | nil => simp
  | cons w rest =>
      have fails : test w = false := stops w rfl
      rw [List.takeWhile_cons_of_neg (by simp [fails]),
        List.dropWhile_cons_of_neg (by simp [fails])]
      simp

/-- The part of a stack above its innermost open parenthesis. -/
theorem span_paren (inner : ∀ w ∈ above, w.isParen = false) (offset : Nat) :
    (above ++ .paren offset :: below).span (!·.isParen) = (above, .paren offset :: below) :=
  span_append (fun w member => by simp [inner w member]) (fun w member => by
    obtain rfl : Waiting.paren offset = w := by simpa using member
    rfl)

theorem operator_append {op : BinaryOperator} {offset : Nat}
    (tight : ∀ w ∈ above, w.bindsAtLeast op.precedence = true)
    (loose : ∀ w ∈ stack.head?, w.bindsAtLeast op.precedence = false) :
    (Yard.mk output (above ++ stack) counters).operator op offset =
      ⟨output ++ released above, .operator op offset :: stack, counters⟩ := by
  simp only [operator, span_append tight loose, release]

/-- An operator splits any stack into what leaves and what stays. -/
theorem operator_split (yard : Yard) (op : BinaryOperator) (offset : Nat) :
    ∃ tight loose, yard.stack = tight ++ loose ∧
      (∀ w ∈ tight, w.bindsAtLeast op.precedence = true) ∧
      yard.operator op offset =
        ⟨yard.output ++ released tight, .operator op offset :: loose, yard.counters⟩ := by
  refine ⟨yard.stack.takeWhile (Waiting.bindsAtLeast op.precedence),
    yard.stack.dropWhile (Waiting.bindsAtLeast op.precedence),
    List.takeWhile_append_dropWhile.symm, fun w member => List.mem_takeWhile_imp member, ?_⟩
  rw [operator, List.span_eq_takeWhile_dropWhile]
  rfl

theorem comma_append (inner : ∀ w ∈ above, w.isParen = false) (start offset : Nat) :
    (Yard.mk output (above ++ .paren start :: below) counters).comma offset =
      .ok ⟨output ++ released above, .paren start :: below, advance counters⟩ := by
  simp only [comma, span_paren inner, release]
  rfl

theorem close_append (inner : ∀ w ∈ above, w.isParen = false) (start offset : Nat)
    (empty : Bool) :
    (Yard.mk output (above ++ .paren start :: below) counters).close empty offset =
      .ok ((Yard.mk (output ++ released above) below counters).closeCall empty) := by
  simp only [close, span_paren inner, release]

/-- With no parenthesis open a comma has no place, and a closing parenthesis no partner. -/
theorem span_of_no_paren (noParen : ∀ w ∈ stack, w.isParen = false) :
    stack.span (!·.isParen) = (stack, []) := by
  have whole : (stack ++ []).span (!·.isParen) = (stack, []) :=
    span_append (fun w member => by simp [noParen w member]) (by simp)
  rwa [List.append_nil] at whole

theorem comma_of_no_paren (noParen : ∀ w ∈ stack, w.isParen = false) (offset : Nat) :
    (Yard.mk output stack counters).comma offset = .error (.misplacedComma offset) := by
  simp only [comma, span_of_no_paren noParen]
  rfl

theorem close_of_no_paren (noParen : ∀ w ∈ stack, w.isParen = false) (empty : Bool) (offset : Nat) :
    (Yard.mk output stack counters).close empty offset =
      .error (.mismatchedParentheses offset) := by
  simp only [close, span_of_no_paren noParen]

/-! ## Closing a call -/

theorem closeCall_of_not_name (plain : ∀ w ∈ stack.head?, w.isName = false) (empty : Bool) :
    (Yard.mk output stack counters).closeCall empty = ⟨output, stack, counters⟩ := by
  cases stack with
  | nil => rfl
  | cons w rest =>
      have notName : w.isName = false := plain w rfl
      cases w with
      | operator op offset => rfl
      | name text offset => simp [Waiting.isName] at notName
      | paren offset => rfl

theorem closeCall_name (text : String) (offset commas : Nat) (empty : Bool) :
    (Yard.mk output (.name text offset :: stack) (commas :: counters)).closeCall empty =
      ⟨output.push (.call text (if empty then 0 else commas + 1) offset), stack, counters⟩ := rfl

/-! ## The end -/

theorem finish_of_no_paren (noParen : ∀ w ∈ stack, w.isParen = false) :
    (Yard.mk output stack counters).finish = .ok (output.toList ++ released stack) := by
  have absent : stack.find? Waiting.isParen = none :=
    List.find?_eq_none.2 fun w member => by simp [noParen w member]
  simp [finish, absent]

end Yard

end Calculator
