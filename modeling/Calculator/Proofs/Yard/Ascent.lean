import Calculator.Proofs.Outcome
import Calculator.Proofs.Yard.Parentheses
import Calculator.Token.Lexer
import Mathlib.Data.List.Chain
import Mathlib.Data.List.Nodup
import Mathlib.Data.List.Perm.Subperm

/-!
# Operators wait in ascending order

An operator comes to wait on what binds looser, because everything that binds at
least as tightly leaves first. So of two operators that wait next to each other
the upper one binds tighter (`Ascending`), and this is all there is to say about
neighbours on the stack: a name or an open parenthesis may stand anywhere.

**One step.** Whatever a lexeme does, it keeps a lower part of the stack and puts
at most one entry on top (`stack_of_step`). A `)` may uncover an older block of
operators by taking its parenthesis and the name below, but that block has not
changed since it was covered.

**A run.** So after every lexeme of any text the precedences of operators that
wait next to each other increase strictly from the bottom to the top. There are
seven precedences, and no such block holds more operators (`operators_ascend`).
-/

set_option autoImplicit false

namespace Calculator

/-- Whether an entry may wait directly on another one: an operator only on what binds looser. -/
def Waiting.StandsOn : Waiting → Waiting → Prop
  | operator op _, below => below.bindsAtLeast op.precedence = false
  | name _ _, _ => True
  | paren _, _ => True

namespace Yard

/-- Every entry may wait on the one below it. -/
def Ascending (stack : List Waiting) : Prop := stack.IsChain Waiting.StandsOn

/-- The yards of a run, one after each lexeme that is accepted. -/
def stages (yard : Yard) (before? : Option Token) : List Lexeme → List Yard
  | [] => []
  | lexeme :: rest =>
    match yard.step before? (rest.head?.map Lexeme.token) lexeme with
    | .ok next => next :: next.stages (some lexeme.token) rest
    | .error _ => []

/-- A run that succeeds has a stage for every lexeme and ends in the last one. -/
theorem stages_of_run {lexemes : List Lexeme} {yard last : Yard} {before? : Option Token}
    (ran : yard.run before? lexemes = .ok last) :
    (yard.stages before? lexemes).length = lexemes.length ∧
      (yard :: yard.stages before? lexemes).getLast? = some last := by
  induction lexemes generalizing yard before? with
  | nil =>
      cases ran
      exact ⟨rfl, rfl⟩
  | cons lexeme rest ih =>
      rw [run] at ran
      obtain ⟨next, stepped, later⟩ := bind_eq_ok_iff.1 ran
      obtain ⟨length, ends⟩ := ih later
      rw [stages, stepped]
      refine ⟨congrArg (· + 1) length, ?_⟩
      rwa [List.getLast?_cons_cons]

variable {yard next : Yard} {before? after? : Option Token} {lexeme : Lexeme}
variable {stack kept : List Waiting}

/-! ## One step -/

theorem ascending_nil : Ascending [] := .nil

/-- What remains when entries leave the top is still ascending. -/
theorem Ascending.suffix (ascending : Ascending stack) (lower : kept <:+ stack) :
    Ascending kept :=
  List.IsChain.suffix ascending lower

theorem Ascending.cons {top : Waiting} (ascending : Ascending stack)
    (stands : ∀ below ∈ stack.head?, top.StandsOn below) : Ascending (top :: stack) :=
  List.isChain_cons.2 ⟨stands, ascending⟩

/-- An operator waits on what it did not release. -/
theorem stack_of_operator (yard : Yard) (op : BinaryOperator) (offset : Nat) :
    ∃ loose, (yard.operator op offset).stack = .operator op offset :: loose ∧
      loose <:+ yard.stack ∧ ∀ below ∈ loose.head?, below.bindsAtLeast op.precedence = false := by
  refine ⟨yard.stack.dropWhile (Waiting.bindsAtLeast op.precedence), ?_,
    List.dropWhile_suffix _, fun below top => ?_⟩
  · rw [operator, List.span_eq_takeWhile_dropWhile]
    rfl
  · have stopped := List.head?_dropWhile_not (Waiting.bindsAtLeast op.precedence) yard.stack
    rwa [Option.mem_def.1 top] at stopped

/-- Closing a call takes at most its name off the stack. -/
theorem closeCall_suffix (yard : Yard) (empty : Bool) :
    (yard.closeCall empty).stack <:+ yard.stack := by
  obtain ⟨output, stack, counters⟩ := yard
  cases stack with
  | nil => exact List.suffix_refl _
  | cons w rest =>
      cases w with
      | operator op offset => exact List.suffix_refl _
      | paren offset => exact List.suffix_refl _
      | name text offset => exact List.suffix_cons _ _

/-- A step keeps a lower part of the stack and puts at most one entry on top, which may wait
there. -/
theorem stack_of_step (stepped : yard.step before? after? lexeme = .ok next) :
    ∃ kept, kept <:+ yard.stack ∧ (next.stack = kept ∨
      ∃ top, next.stack = top :: kept ∧ ∀ below ∈ kept.head?, top.StandsOn below) := by
  obtain ⟨token, text, offset⟩ := lexeme
  cases token with
  | name name =>
      cases stepped
      exact ⟨_, List.suffix_refl _, .inr ⟨.name name offset, rfl, fun _ _ => trivial⟩⟩
  | leftParen =>
      cases stepped
      exact ⟨_, List.suffix_refl _, .inr ⟨.paren offset, rfl, fun _ _ => trivial⟩⟩
  | operator op =>
      cases stepped
      obtain ⟨loose, waits, lower, looser⟩ := stack_of_operator yard op offset
      exact ⟨loose, lower, .inr ⟨.operator op offset, waits, looser⟩⟩
  | rightParen =>
      obtain ⟨above, start, below, split, rfl⟩ := stack_of_close stepped
      have lower : below <:+ yard.stack := by
        rw [split, ← List.singleton_append, ← List.append_assoc]
        exact List.suffix_append _ _
      exact ⟨_, (closeCall_suffix _ _).trans lower, .inl rfl⟩
  | comma =>
      obtain ⟨above, start, below, split, rfl⟩ := stack_of_comma stepped
      exact ⟨_, split ▸ List.suffix_append _ _, .inl rfl⟩
  | number value =>
      cases stepped
      exact ⟨_, List.suffix_refl _, .inl rfl⟩
  | leftBracket | rightBracket | endOfText =>
      cases stepped
      exact ⟨_, List.suffix_refl _, .inl rfl⟩

theorem ascending_step (ascending : Ascending yard.stack)
    (stepped : yard.step before? after? lexeme = .ok next) : Ascending next.stack := by
  obtain ⟨kept, lower, same | ⟨top, pushed, stands⟩⟩ := stack_of_step stepped
  · rw [same]
    exact ascending.suffix lower
  · rw [pushed]
    exact (ascending.suffix lower).cons stands

/-! ## Runs -/

/-- Every stage of a run from an ascending stack is ascending. -/
theorem ascending_of_mem_stages {lexemes : List Lexeme} (ascending : Ascending yard.stack)
    {stage : Yard} (reached : stage ∈ yard.stages before? lexemes) : Ascending stage.stack := by
  induction lexemes generalizing yard before? with
  | nil => cases reached
  | cons lexeme rest ih =>
      rw [stages] at reached
      split at reached
      case h_1 next stepped =>
        have ascends := ascending_step ascending stepped
        rcases List.mem_cons.1 reached with rfl | later
        · exact ascends
        · exact ih ascends later
      case h_2 => cases reached

/-! ## Blocks of operators -/

/-- Operators with their offsets as entries of a stack. -/
def waitingAll (block : List (BinaryOperator × Nat)) : List Waiting :=
  block.map fun entry => .operator entry.1 entry.2

/-- The precedences of operators. -/
def precedences (block : List (BinaryOperator × Nat)) : List Nat :=
  block.map fun entry => entry.1.precedence

/-- On an ascending stack, operators next to each other bind tighter from the bottom to the top. -/
theorem Ascending.precedences {block : List (BinaryOperator × Nat)}
    (ascending : Ascending (waitingAll block)) :
    (precedences block.reverse).Pairwise (· < ·) := by
  have neighbours : (Yard.precedences block).IsChain (· > ·) := by
    rw [Yard.precedences, List.isChain_map]
    refine List.IsChain.imp (fun upper lower stands => ?_) ((List.isChain_map _).1 ascending)
    simpa [Waiting.StandsOn, Waiting.bindsAtLeast] using stands
  rw [Yard.precedences, List.map_reverse, List.pairwise_reverse]
  exact neighbours.pairwise

/-- There are seven precedences. -/
theorem length_le_seven {block : List (BinaryOperator × Nat)}
    (increasing : (precedences block.reverse).Pairwise (· < ·)) : block.length ≤ 7 := by
  have known : precedences block.reverse ⊆ List.range 7 := by
    intro precedence member
    obtain ⟨entry, -, rfl⟩ := List.mem_map.1 member
    have bound := entry.1.precedence_le
    exact List.mem_range.2 (by omega)
  have few := (List.Nodup.subperm increasing.nodup known).length_le
  simpa [precedences] using few

/-- A run that succeeds has a stage for every lexeme and ends in the last one. And after every lexeme
of a text, whatever it is, the precedences of operators that wait next to each other increase
strictly from the bottom to the top, and there are at most seven of them. -/
theorem operators_ascend (lexemes : List Lexeme) :
    (∀ last, empty.run none lexemes = .ok last →
      (empty.stages none lexemes).length = lexemes.length ∧
        (empty :: empty.stages none lexemes).getLast? = some last) ∧
    ∀ stage ∈ empty.stages none lexemes, ∀ above block below,
      stage.stack = above ++ waitingAll block ++ below →
        (precedences block.reverse).Pairwise (· < ·) ∧ block.length ≤ 7 := by
  refine ⟨fun last ran => stages_of_run ran, ?_⟩
  intro stage reached above block below split
  have ascending : Ascending stage.stack := ascending_of_mem_stages ascending_nil reached
  rw [split] at ascending
  have part : Ascending (waitingAll block) := List.IsChain.infix ascending ⟨above, below, rfl⟩
  exact ⟨part.precedences, length_le_seven part.precedences⟩

/-- In `~ << f(-) + * & ^ |` the call uncovers two operators when it closes, and five more come to
wait on them: seven, as many as there can be. -/
theorem operators_ascend_call : ∃ lexemes last stage,
    Lexeme.ofText "~ << f(-) + * & ^ |" = .ok lexemes ∧
      (empty.run none lexemes = .ok last ∧
        (empty.stages none lexemes).length = lexemes.length ∧
        (empty :: empty.stages none lexemes).getLast? = some last) ∧
      stage ∈ empty.stages none lexemes ∧
      stage.stack = [] ++ waitingAll [(.bitOr, 18), (.bitXor, 16), (.bitAnd, 14), (.mul, 12),
        (.add, 10), (.shiftLeft, 2), (.tilde, 0)] ++ [] ∧
      [0, 1, 2, 3, 4, 5, 6].Pairwise (· < ·) := by
  let lexemes : List Lexeme :=
    [⟨.operator .tilde, "~", 0⟩, ⟨.operator .shiftLeft, "<<", 2⟩, ⟨.name "f", "f", 5⟩,
      ⟨.leftParen, "(", 6⟩, ⟨.operator .sub, "-", 7⟩, ⟨.rightParen, ")", 8⟩,
      ⟨.operator .add, "+", 10⟩, ⟨.operator .mul, "*", 12⟩, ⟨.operator .bitAnd, "&", 14⟩,
      ⟨.operator .bitXor, "^", 16⟩, ⟨.operator .bitOr, "|", 18⟩, ⟨.endOfText, "", 19⟩]
  obtain ⟨last, ran⟩ : ∃ last, empty.run none lexemes = .ok last :=
    map_unit_eq_ok_iff.1 (by decide +kernel)
  obtain ⟨stage, reached, split⟩ : ∃ stage ∈ empty.stages none lexemes,
      stage.stack = [] ++ waitingAll [(.bitOr, 18), (.bitXor, 16), (.bitAnd, 14), (.mul, 12),
        (.add, 10), (.shiftLeft, 2), (.tilde, 0)] ++ [] := by
    decide +kernel
  refine ⟨lexemes, last, stage, by decide +kernel, ⟨ran, (operators_ascend lexemes).1 last ran⟩,
    reached, split, ?_⟩
  exact ((operators_ascend lexemes).2 stage reached _ _ _ split).1

end Yard

end Calculator
