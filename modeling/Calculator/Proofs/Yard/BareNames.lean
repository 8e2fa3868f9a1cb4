import Calculator.Proofs.Infix.Sentence
import Calculator.Proofs.Outcome
import Calculator.Proofs.Yard.Parentheses

/-!
# Names that leave without arguments

A name takes arguments at a `)` that uncovers it, and only if the parentheses do
not stand side by side. Every other way out of the stack makes it a call without
arguments.

**Bare names.** An operator that waits directly above a name can only give its
place to another operator, so no `)` uncovers the name (`Blocked`). A comma, a
`)` or the end releases the name at once. One of these therefore makes a call
without arguments of the name that it follows (`mem_of_bare`).

**Empty calls.** So does a `(` that a `)` directly follows (`mem_of_empty_call`).

What remains is a name that, brackets aside, stands before a number, a name or a
`(` with something behind it (`Applied`). That is as far as this goes: in
`not 1 (2) +` the `)` uncovers a name that the `(` does not follow.
-/

set_option autoImplicit false

namespace Calculator

namespace Yard

open Infix (spoken)

/-- What follows a name begins, brackets aside, with an operand, and not with an empty pair of
parentheses. -/
structure Applied (after : List Lexeme) : Prop where
  operand : ∃ next ∈ (spoken after).head?, next.beginsOperand = true
  filled : ∀ gap opening closing rest, after = gap ++ opening :: closing :: rest →
    (∀ lexeme ∈ gap, lexeme.token.isSilent = true) →
      opening.token = .leftParen → closing.token ≠ .rightParen

variable {name : String} {offset : Nat} {stack : List Waiting} {nodes : List Node}

/-! ## What has left -/

theorem mem_appendList {output : Array Node} {more : List Node} {node : Node} :
    node ∈ output ++ more ↔ node ∈ output ∨ node ∈ more := by
  rw [Array.mem_def, Array.toList_appendList, List.mem_append, Array.mem_def]

theorem mem_released {entries : List Waiting} (waits : .name name offset ∈ entries) :
    .call name 0 offset ∈ released entries :=
  List.mem_filterMap.2 ⟨_, waits, rfl⟩

theorem mem_output_closeCall {yard : Yard} {node : Node} (left : node ∈ yard.output)
    (empty : Bool) : node ∈ (yard.closeCall empty).output := by
  obtain ⟨output, stack, counters⟩ := yard
  cases stack with
  | nil => exact left
  | cons w rest =>
      cases w with
      | operator op offset => exact left
      | paren offset => exact left
      | name text offset => exact Array.mem_push_of_mem _ left

/-- What has left does not come back. -/
theorem mem_output_step {yard next : Yard} {before? after? : Option Token} {lexeme : Lexeme}
    {node : Node} (left : node ∈ yard.output)
    (stepped : yard.step before? after? lexeme = .ok next) : node ∈ next.output := by
  obtain ⟨token, text, offset⟩ := lexeme
  have kept (more : List Node) : node ∈ yard.output ++ more := mem_appendList.2 (.inl left)
  cases token with
  | number value =>
      cases stepped
      exact Array.mem_push_of_mem _ left
  | operator op =>
      cases stepped
      exact kept _
  | rightParen =>
      obtain ⟨above, start, below, -, rfl⟩ := stack_of_close stepped
      exact mem_output_closeCall (kept _) _
  | comma =>
      obtain ⟨above, start, below, -, rfl⟩ := stack_of_comma stepped
      exact kept _
  | name text =>
      cases stepped
      exact left
  | leftParen | leftBracket | rightBracket | endOfText =>
      cases stepped
      exact left

/-- A name that still waits at the end leaves as a call without arguments. -/
theorem mem_of_waiting {yard : Yard} (finished : yard.finish = .ok nodes)
    (waits : .name name offset ∈ yard.stack) : .call name 0 offset ∈ nodes := by
  rw [finish] at finished
  split at finished
  case h_1 => cases finished
  case h_2 =>
    cases finished
    simpa using Or.inr (mem_released waits)

theorem mem_of_left {yard : Yard} {node : Node} (finished : yard.finish = .ok nodes)
    (left : node ∈ yard.output) : node ∈ nodes := by
  rw [finish] at finished
  split at finished
  case h_1 => cases finished
  case h_2 =>
    cases finished
    simpa using Or.inl left

/-! ## Names under an operator -/

/-- An operator waits directly above a name. -/
inductive Blocked (name : String) (offset : Nat) : List Waiting → Prop where
  | here (op : BinaryOperator) (start : Nat) (below : List Waiting) :
      Blocked name offset (.operator op start :: .name name offset :: below)
  | there {stack : List Waiting} (w : Waiting) :
      Blocked name offset stack → Blocked name offset (w :: stack)

namespace Blocked

/-- The top of the stack blocks the name below it, or the name is blocked further down. -/
theorem cases_cons {w : Waiting} (blocked : Blocked name offset (w :: stack)) :
    (∃ op start below, w = .operator op start ∧ stack = .name name offset :: below) ∨
      Blocked name offset stack := by
  cases blocked with
  | here op start below => exact .inl ⟨op, start, below, rfl, rfl⟩
  | there w blocked => exact .inr blocked

theorem mem (blocked : Blocked name offset stack) : .name name offset ∈ stack := by
  induction blocked with
  | here op start below => simp
  | there w _ ih => exact List.mem_cons_of_mem w ih

/-- The name is above the innermost open parenthesis or still blocked below it. -/
theorem of_append_paren {above below : List Waiting} {start : Nat}
    (blocked : Blocked name offset (above ++ .paren start :: below)) :
    .name name offset ∈ above ∨ Blocked name offset below := by
  induction above with
  | nil =>
      rcases blocked.cases_cons with ⟨_, _, _, isOperator, -⟩ | blocked
      · cases isOperator
      · exact .inr blocked
  | cons w above ih =>
      rw [List.cons_append] at blocked
      rcases blocked.cases_cons with ⟨op, place, rest, -, next⟩ | blocked
      · cases above with
        | nil => cases next
        | cons v above =>
            cases next
            exact .inl (by simp)
      · rcases ih blocked with member | blocked
        · exact .inl (List.mem_cons_of_mem w member)
        · exact .inr blocked

/-- An operator that takes the place of others blocks what they blocked. -/
theorem operator {tight loose : List Waiting} {precedence : Nat}
    (binds : ∀ w ∈ tight, w.bindsAtLeast precedence = true)
    (blocked : Blocked name offset (tight ++ loose)) (op : BinaryOperator) (start : Nat) :
    Blocked name offset (.operator op start :: loose) := by
  induction tight with
  | nil => exact .there _ blocked
  | cons w tight ih =>
      rw [List.cons_append] at blocked
      rcases blocked.cases_cons with ⟨_, _, below, -, next⟩ | blocked
      · cases tight with
        | nil =>
            obtain rfl : loose = .name name offset :: below := next
            exact .here op start below
        | cons v tight =>
            -- A name does not bind, so it is not among what leaves.
            cases next
            have bound := binds (.name name offset) (by simp)
            cases bound
      · exact ih (fun w member => binds w (List.mem_cons_of_mem _ member)) blocked

theorem closeCall {yard : Yard} (blocked : Blocked name offset yard.stack) (empty : Bool) :
    Blocked name offset (yard.closeCall empty).stack := by
  obtain ⟨output, stack, counters⟩ := yard
  cases stack with
  | nil => exact blocked
  | cons w rest =>
      cases w with
      | operator op start => exact blocked
      | paren start => exact blocked
      | name text start =>
          rcases blocked.cases_cons with ⟨_, _, _, isOperator, -⟩ | blocked
          · cases isOperator
          · exact blocked

end Blocked

/-- A name that has left without arguments, or can only do so. -/
def Unapplied (name : String) (offset : Nat) (yard : Yard) : Prop :=
  .call name 0 offset ∈ yard.output ∨ Blocked name offset yard.stack

namespace Unapplied

theorem step {yard next : Yard} {before? after? : Option Token} {lexeme : Lexeme}
    (unapplied : Unapplied name offset yard)
    (stepped : yard.step before? after? lexeme = .ok next) : Unapplied name offset next := by
  rcases unapplied with left | blocked
  · exact .inl (mem_output_step left stepped)
  obtain ⟨token, text, place⟩ := lexeme
  cases token with
  | number value =>
      cases stepped
      exact .inr blocked
  | name text =>
      cases stepped
      exact .inr (.there _ blocked)
  | operator op =>
      cases stepped
      obtain ⟨tight, loose, split, binds, arrives⟩ := operator_split yard op place
      rw [split] at blocked
      rw [arrives]
      exact .inr (blocked.operator binds op place)
  | leftParen =>
      cases stepped
      exact .inr (.there _ blocked)
  | rightParen =>
      obtain ⟨above, start, below, split, rfl⟩ := stack_of_close stepped
      rw [split] at blocked
      rcases blocked.of_append_paren with member | blocked
      · exact .inl (mem_output_closeCall (mem_appendList.2 (.inr (mem_released member))) _)
      · exact .inr (blocked.closeCall _)
  | comma =>
      obtain ⟨above, start, below, split, rfl⟩ := stack_of_comma stepped
      rw [split] at blocked
      rcases blocked.of_append_paren with member | blocked
      · exact .inl (mem_appendList.2 (.inr (mem_released member)))
      · exact .inr (.there _ blocked)
  | leftBracket | rightBracket | endOfText =>
      cases stepped
      exact .inr blocked

theorem run {lexemes : List Lexeme} {yard last : Yard} {before? : Option Token}
    (unapplied : Unapplied name offset yard) (ran : yard.run before? lexemes = .ok last) :
    Unapplied name offset last := by
  induction lexemes generalizing yard before? with
  | nil =>
      cases ran
      exact unapplied
  | cons lexeme rest ih =>
      rw [Yard.run] at ran
      obtain ⟨next, stepped, later⟩ := bind_eq_ok_iff.1 ran
      exact ih (unapplied.step stepped) later

theorem finish {yard : Yard} (unapplied : Unapplied name offset yard)
    (finished : yard.finish = .ok nodes) : .call name 0 offset ∈ nodes := by
  rcases unapplied with left | blocked
  · exact mem_of_left finished left
  · exact mem_of_waiting finished blocked.mem

end Unapplied

/-! ## Names on top -/

/-- The name is above an open parenthesis, so what releases down to there releases it. -/
theorem mem_above {above below rest : List Waiting} {start : Nat}
    (split : .name name offset :: rest = above ++ .paren start :: below) :
    .name name offset ∈ above := by
  cases above with
  | nil => cases split
  | cons w above =>
      cases split
      exact List.mem_cons_self

/-- An operator, a comma or a `)` after a name leaves it without arguments. -/
theorem unapplied_of_step {yard next : Yard} {rest : List Waiting} {before? after? : Option Token}
    {lexeme : Lexeme} (top : yard.stack = .name name offset :: rest)
    (heard : lexeme.token.isSilent = false) (bare : lexeme.token.beginsOperand = false)
    (stepped : yard.step before? after? lexeme = .ok next) : Unapplied name offset next := by
  obtain ⟨token, text, place⟩ := lexeme
  cases token with
  | operator op =>
      cases stepped
      obtain ⟨output, stack, counters⟩ := yard
      obtain rfl : stack = .name name offset :: rest := top
      have stays : (Yard.mk output ([] ++ .name name offset :: rest) counters).operator op place =
          ⟨output ++ released [], .operator op place :: .name name offset :: rest, counters⟩ :=
        operator_append (by simp) (by simp [Waiting.bindsAtLeast])
      rw [List.nil_append] at stays
      rw [stays]
      exact .inr (.here op place rest)
  | rightParen =>
      obtain ⟨above, start, below, split, rfl⟩ := stack_of_close stepped
      have member := mem_above (top.symm.trans split)
      exact .inl (mem_output_closeCall (mem_appendList.2 (.inr (mem_released member))) _)
  | comma =>
      obtain ⟨above, start, below, split, rfl⟩ := stack_of_comma stepped
      have member := mem_above (top.symm.trans split)
      exact .inl (mem_appendList.2 (.inr (mem_released member)))
  | number value | name text | leftParen => cases bare
  | leftBracket | rightBracket | endOfText => cases heard

section Top

variable {yard last : Yard} {rest : List Waiting} {before? : Option Token}
variable (top : yard.stack = .name name offset :: rest) (finished : last.finish = .ok nodes)
include top finished

/-- A name with no operand after it leaves as a call without arguments. -/
theorem mem_of_bare {after : List Lexeme}
    (bare : ∀ next ∈ (spoken after).head?, next.beginsOperand = false)
    (ran : yard.run before? after = .ok last) : .call name 0 offset ∈ nodes := by
  induction after generalizing before? with
  | nil =>
      cases ran
      exact mem_of_waiting finished (by simp [top])
  | cons lexeme after ih =>
      rw [run] at ran
      obtain ⟨next, stepped, later⟩ := bind_eq_ok_iff.1 ran
      cases silent : lexeme.token.isSilent with
      | true =>
          rw [step_of_silent silent] at stepped
          cases stepped
          refine ih (fun next isNext => bare next ?_) later
          rwa [spoken, List.map_cons, List.filter_cons_of_neg (by simp [silent])]
      | false =>
          have isNext : lexeme.token ∈ (spoken (lexeme :: after)).head? := by
            rw [spoken, List.map_cons, List.filter_cons_of_pos (by simp [silent])]
            rfl
          exact ((unapplied_of_step top silent (bare lexeme.token isNext) stepped).run
            later).finish finished

/-- A name before an empty pair of parentheses leaves as a call without arguments. -/
theorem mem_of_empty_call {gap after : List Lexeme} {opening closing : Lexeme}
    (silent : ∀ lexeme ∈ gap, lexeme.token.isSilent = true) (opens : opening.token = .leftParen)
    (closes : closing.token = .rightParen)
    (ran : yard.run before? (gap ++ opening :: closing :: after) = .ok last) :
    .call name 0 offset ∈ nodes := by
  induction gap generalizing before? with
  | nil =>
      obtain ⟨output, stack, counters⟩ := yard
      obtain ⟨token, text, start⟩ := opening
      obtain ⟨token, text, stop⟩ := closing
      obtain rfl : stack = .name name offset :: rest := top
      obtain rfl := opens
      obtain rfl := closes
      rw [List.nil_append, run] at ran
      obtain ⟨opened, stepped, ran⟩ := bind_eq_ok_iff.1 ran
      cases stepped
      rw [run] at ran
      obtain ⟨closed, stepped, ran⟩ := bind_eq_ok_iff.1 ran
      have called : (Yard.mk output ([] ++ .paren start :: .name name offset :: rest)
          counters).close true stop = .ok ((Yard.mk (output ++ released [])
            (.name name offset :: rest) counters).closeCall true) :=
        close_append (by simp) start stop true
      rw [List.nil_append] at called
      obtain rfl := Except.ok.inj (called.symm.trans stepped)
      have left : Unapplied name offset
          ((Yard.mk (output ++ released []) (.name name offset :: rest) counters).closeCall
            true) := .inl (Array.mem_push_self)
      exact (left.run ran).finish finished
  | cons lexeme gap ih =>
      rw [List.cons_append, run] at ran
      obtain ⟨next, stepped, later⟩ := bind_eq_ok_iff.1 ran
      rw [step_of_silent (silent lexeme List.mem_cons_self)] at stepped
      cases stepped
      exact ih (fun lexeme member => silent lexeme (List.mem_cons_of_mem _ member)) later

end Top

/-! ## Whole texts -/

/-- A run gets to each of its lexemes. -/
theorem run_reaches {before after : List Lexeme} {yard last : Yard} {before? : Option Token}
    (ran : yard.run before? (before ++ after) = .ok last) :
    ∃ middle last?, run middle last? after = .ok last := by
  induction before generalizing yard before? with
  | nil => exact ⟨yard, before?, ran⟩
  | cons lexeme before ih =>
      rw [List.cons_append, run] at ran
      obtain ⟨next, -, later⟩ := bind_eq_ok_iff.1 ran
      exact ih later

/-- A name in an accepted text has an operand after it, or leaves as a call without arguments. -/
theorem applied_or_mem {before after : List Lexeme} {lexeme : Lexeme}
    (accepted : postorder (before ++ lexeme :: after) = .ok nodes)
    (isName : lexeme.token = .name name) :
    Applied after ∨ .call name 0 lexeme.offset ∈ nodes := by
  rw [postorder] at accepted
  obtain ⟨last, ran, finished⟩ := bind_eq_ok_iff.1 accepted
  obtain ⟨middle, last?, ran⟩ := run_reaches ran
  rw [run] at ran
  obtain ⟨yard, stepped, ran⟩ := bind_eq_ok_iff.1 ran
  have top : yard.stack = .name name lexeme.offset :: middle.stack := by
    rw [step, isName] at stepped
    cases stepped
    rfl
  by_cases left : .call name 0 lexeme.offset ∈ nodes
  · exact .inr left
  refine .inl ⟨?_, fun gap opening closing rest split silent opens closes => ?_⟩
  · by_contra noOperand
    refine left (mem_of_bare top finished (fun next isNext => ?_) ran)
    exact Bool.of_not_eq_true fun begins => noOperand ⟨next, isNext, begins⟩
  · rw [split] at ran
    exact left (mem_of_empty_call top finished silent opens closes ran)

end Yard

end Calculator
