import Calculator.Evaluation
import Calculator.Proofs.Expr.Rereading
import Calculator.Proofs.Yard.Parentheses

/-!
# Offsets and spellings carry no meaning

Forgetting is done to every stage alike: a lexeme keeps its token, an entry of
the yard, a node and an expression keep everything but the offset, and an error
keeps its kind and its data but points nowhere (`unplaced`).

**Reading.** Each step of the yard and each node that is read onto the stack
does the same to what is left after forgetting, and fails with the same error
(`step_unplaced`, `push_unplaced`). So the expression that lexemes spell, offsets
aside, depends on their tokens alone (`ofLexemes_unplaced`).

**Evaluating.** The value of an expression and the error of evaluating it do not
change when its offsets are forgotten (`eval_unplaced`), and the settings only
decide how a value is shown. Together, texts with the same tokens have the same
value or the same error apart from its offset, whatever the settings
(`answer_of_same_tokens`).
-/

set_option autoImplicit false

namespace Calculator

/-! ## Forgetting -/

/-- A lexeme with its text and its offset forgotten. -/
def Lexeme.unplaced (lexeme : Lexeme) : Lexeme := ⟨lexeme.token, "", 0⟩

/-- An entry of the yard with its offset forgotten. -/
def Waiting.unplaced : Waiting → Waiting
  | operator op _ => .operator op 0
  | name text _ => .name text 0
  | paren _ => .paren 0

/-- A node with its offset forgotten. -/
def Node.unplaced : Node → Node
  | number value _ => .number value 0
  | operator op _ => .operator op 0
  | call name arity _ => .call name arity 0

/-- A yard with all its offsets forgotten. -/
def Yard.unplaced (yard : Yard) : Yard :=
  ⟨yard.output.map Node.unplaced, yard.stack.map Waiting.unplaced, yard.counters⟩

/-- An error of reading with its offset forgotten. -/
def ParseError.unplaced : ParseError → ParseError
  | unexpectedCharacter character _ => .unexpectedCharacter character 0
  | malformedNumber literal _ => .malformedNumber literal 0
  | misplacedComma _ => .misplacedComma 0
  | mismatchedParentheses _ => .mismatchedParentheses 0
  | notEnoughOperands op _ => .notEnoughOperands op 0
  | notEnoughArguments name expected found _ => .notEnoughArguments name expected found 0
  | emptyExpression => .emptyExpression
  | invalidExpression _ => .invalidExpression 0

/-- An error with its offset, if it has one, forgotten. -/
def CalculationError.unplaced : CalculationError → CalculationError
  | parse error => .parse error.unplaced
  | runtime error => .runtime error

namespace ParseError

variable {α β γ δ : Type}

/-- The outcome of reading, with offsets forgotten in the error and, by `forget`, in the result. -/
def outcome (forget : α → β) : Except ParseError α → Except ParseError β
  | .ok result => .ok (forget result)
  | .error error => .error error.unplaced

/-- Two steps may forget offsets in between. -/
theorem outcome_bind {forget : α → β} {forgetNext : γ → δ} {first : Except ParseError α}
    {next : α → Except ParseError γ} {nextUnplaced : β → Except ParseError δ}
    (commutes : ∀ result, nextUnplaced (forget result) = outcome forgetNext (next result)) :
    outcome forget first >>= nextUnplaced = outcome forgetNext (first >>= next) := by
  cases first with
  | error error => rfl
  | ok result => exact commutes result

end ParseError

open ParseError (outcome outcome_bind)

/-! ## The yard -/

namespace Waiting

theorem isParen_unplaced (w : Waiting) : w.unplaced.isParen = w.isParen := by
  cases w with
  | operator op offset => rfl
  | name text offset => rfl
  | paren offset => rfl

theorem bindsAtLeast_unplaced (precedence : Nat) (w : Waiting) :
    w.unplaced.bindsAtLeast precedence = w.bindsAtLeast precedence := by
  cases w with
  | operator op offset => rfl
  | name text offset => rfl
  | paren offset => rfl

end Waiting

namespace Yard

/-- A stack is split at the same place when the test does not look at offsets. -/
theorem span_unplaced {test : Waiting → Bool} (blind : ∀ w, test w.unplaced = test w)
    (stack : List Waiting) :
    (stack.map Waiting.unplaced).span test =
      ((stack.span test).1.map Waiting.unplaced, (stack.span test).2.map Waiting.unplaced) := by
  have same : test ∘ Waiting.unplaced = test := funext blind
  rw [List.span_eq_takeWhile_dropWhile, List.span_eq_takeWhile_dropWhile, List.takeWhile_map,
    List.dropWhile_map, same]

theorem released_unplaced (entries : List Waiting) :
    released (entries.map Waiting.unplaced) = (released entries).map Node.unplaced := by
  rw [released, released, List.filterMap_map, List.map_filterMap]
  refine List.filterMap_congr fun w _ => ?_
  cases w with
  | operator op offset => rfl
  | name text offset => rfl
  | paren offset => rfl

theorem map_appendList (output : Array Node) (nodes : List Node) :
    (output ++ nodes).map Node.unplaced = output.map Node.unplaced ++ nodes.map Node.unplaced := by
  apply Array.ext'
  simp

theorem release_unplaced (yard : Yard) (entries rest : List Waiting) :
    (yard.release entries rest).unplaced =
      yard.unplaced.release (entries.map Waiting.unplaced) (rest.map Waiting.unplaced) := by
  simp only [unplaced, release, released_unplaced, map_appendList]

theorem noParen_unplaced {entries : List Waiting} (noParen : ∀ w ∈ entries, w.isParen = false) :
    ∀ w ∈ entries.map Waiting.unplaced, w.isParen = false := by
  rw [List.forall_mem_map]
  intro w member
  rw [w.isParen_unplaced, noParen w member]

theorem comma_unplaced (yard : Yard) (offset : Nat) :
    yard.unplaced.comma 0 = outcome unplaced (yard.comma offset) := by
  obtain ⟨output, stack, counters⟩ := yard
  rcases split_at_paren stack with noParen | ⟨above, start, below, rfl, inner⟩
  · rw [comma_of_no_paren noParen, unplaced, comma_of_no_paren (noParen_unplaced noParen)]
    rfl
  · rw [comma_append inner, unplaced, List.map_append, List.map_cons, Waiting.unplaced,
      comma_append (noParen_unplaced inner), released_unplaced, ← map_appendList]
    rfl

theorem closeCall_unplaced (yard : Yard) (empty : Bool) :
    yard.unplaced.closeCall empty = (yard.closeCall empty).unplaced := by
  obtain ⟨output, stack, counters⟩ := yard
  cases stack with
  | nil => rfl
  | cons w rest =>
      cases w with
      | operator op offset => rfl
      | paren offset => rfl
      | name text offset => simp [unplaced, closeCall, Waiting.unplaced, Node.unplaced]

theorem close_unplaced (yard : Yard) (empty : Bool) (offset : Nat) :
    yard.unplaced.close empty 0 = outcome unplaced (yard.close empty offset) := by
  obtain ⟨output, stack, counters⟩ := yard
  rcases split_at_paren stack with noParen | ⟨above, start, below, rfl, inner⟩
  · rw [close_of_no_paren noParen, unplaced, close_of_no_paren (noParen_unplaced noParen)]
    rfl
  · rw [close_append inner, unplaced, List.map_append, List.map_cons, Waiting.unplaced,
      close_append (noParen_unplaced inner), released_unplaced, ← map_appendList]
    exact congrArg Except.ok (closeCall_unplaced ⟨_, below, counters⟩ empty)

theorem operator_unplaced (yard : Yard) (op : BinaryOperator) (offset : Nat) :
    yard.unplaced.operator op 0 = (yard.operator op offset).unplaced := by
  have split := span_unplaced (Waiting.bindsAtLeast_unplaced op.precedence) yard.stack
  have stack : yard.unplaced.stack = yard.stack.map Waiting.unplaced := rfl
  rw [operator, operator, stack, split, release_unplaced]
  rfl

/-- A lexeme does the same to a yard without offsets. -/
theorem step_unplaced (yard : Yard) (before? after? : Option Token) (lexeme : Lexeme) :
    yard.unplaced.step before? after? lexeme.unplaced =
      outcome unplaced (yard.step before? after? lexeme) := by
  obtain ⟨token, text, offset⟩ := lexeme
  cases token with
  | number value => simp [step, Lexeme.unplaced, unplaced, outcome, Node.unplaced]
  | operator op => exact congrArg Except.ok (operator_unplaced yard op offset)
  | comma => exact comma_unplaced yard offset
  | rightParen => exact close_unplaced yard _ offset
  | name text => rfl
  | leftParen => rfl
  | leftBracket => rfl
  | rightBracket => rfl
  | endOfText => rfl

/-- Lexemes do the same to a yard without offsets. -/
theorem run_unplaced (lexemes : List Lexeme) (yard : Yard) (before? : Option Token) :
    yard.unplaced.run before? (lexemes.map Lexeme.unplaced) =
      outcome unplaced (yard.run before? lexemes) := by
  induction lexemes generalizing yard before? with
  | nil => rfl
  | cons lexeme rest ih =>
      have next : (rest.map Lexeme.unplaced).head?.map Lexeme.token =
          rest.head?.map Lexeme.token := by
        cases rest with
        | nil => rfl
        | cons => rfl
      rw [List.map_cons, run, run, next, step_unplaced]
      exact outcome_bind fun after => ih after (some lexeme.token)

theorem finish_unplaced (yard : Yard) :
    yard.unplaced.finish = outcome (List.map Node.unplaced) yard.finish := by
  have blind : Waiting.isParen ∘ Waiting.unplaced = Waiting.isParen :=
    funext Waiting.isParen_unplaced
  have found : yard.unplaced.stack.find? Waiting.isParen =
      (yard.stack.find? Waiting.isParen).map Waiting.unplaced := by
    rw [unplaced, List.find?_map, blind]
  rw [finish, finish, found]
  have left : (yard.unplaced.output ++ released yard.unplaced.stack).toList =
      (yard.output ++ released yard.stack).toList.map Node.unplaced := by
    simp [unplaced, released_unplaced]
  cases yard.stack.find? Waiting.isParen with
  | none => exact congrArg Except.ok left
  | some w =>
      cases w with
      | operator op offset => exact congrArg Except.ok left
      | name text offset => exact congrArg Except.ok left
      | paren offset => rfl

theorem postorder_unplaced (lexemes : List Lexeme) :
    postorder (lexemes.map Lexeme.unplaced) =
      outcome (List.map Node.unplaced) (postorder lexemes) := by
  have blank : empty.unplaced = empty := by simp [unplaced, empty]
  have whole := run_unplaced lexemes empty none
  rw [blank] at whole
  rw [postorder, postorder, whole]
  exact outcome_bind finish_unplaced

end Yard

/-! ## Expressions -/

namespace Expr

theorem unplacedAll_eq_map (es : List Expr) : unplacedAll es = es.map unplaced := by
  induction es with
  | nil => rfl
  | cons e others ih => rw [unplacedAll, ih, List.map_cons]

/-- A node does the same to a stack without offsets. -/
theorem push_unplaced (stack : List Expr) (node : Node) :
    push (stack.map unplaced) node.unplaced = outcome (List.map unplaced) (push stack node) := by
  cases node with
  | number value offset => rfl
  | operator op offset =>
      rcases stack with _ | ⟨right, _ | ⟨left, rest⟩⟩
      · rfl
      · rfl
      · rfl
  | call name arity offset =>
      simp only [push, Node.unplaced, List.length_map]
      split
      case isTrue few => rfl
      case isFalse enough =>
        simp [outcome, unplaced, unplacedAll_eq_map, List.map_take, List.map_drop]

theorem pushAll_unplaced (nodes : List Node) (stack : List Expr) :
    pushAll (stack.map unplaced) (nodes.map Node.unplaced) =
      outcome (List.map unplaced) (pushAll stack nodes) := by
  induction nodes generalizing stack with
  | nil => rfl
  | cons node rest ih =>
      rw [List.map_cons, pushAll, pushAll, push_unplaced]
      exact outcome_bind ih

theorem single_unplaced (stack : List Expr) :
    single (stack.map unplaced) = outcome unplaced (single stack) := by
  rw [single, single, ← List.map_reverse]
  rcases stack.reverse with _ | ⟨first, _ | ⟨second, others⟩⟩
  · rfl
  · rfl
  · have nowhere : second.unplaced.offset = 0 := by
      cases second with
      | number value offset => rfl
      | binary op left right offset => rfl
      | call name arguments offset => rfl
    exact congrArg (fun offset => Except.error (ParseError.invalidExpression offset)) nowhere

/-- The expression that lexemes spell depends on their tokens, offsets aside. -/
theorem ofLexemes_unplaced (lexemes : List Lexeme) :
    ofLexemes (lexemes.map Lexeme.unplaced) = outcome unplaced (ofLexemes lexemes) := by
  rw [ofLexemes, ofLexemes, Yard.postorder_unplaced]
  refine outcome_bind fun nodes => ?_
  rw [ofPostorder, ofPostorder]
  exact (congrArg (· >>= single) (pushAll_unplaced nodes [])).trans
    (outcome_bind single_unplaced)

mutual
/-- The value of an expression does not depend on offsets, and neither does the error. -/
theorem eval_unplaced (e : Expr) : e.unplaced.eval = e.eval := by
  cases e with
  | number value offset => rfl
  | binary op left right offset =>
      rw [unplaced, eval, eval, eval_unplaced left, eval_unplaced right]
  | call name arguments offset =>
      have count : (unplacedAll arguments).length = arguments.length := by
        rw [unplacedAll_eq_map, List.length_map]
      rw [unplaced, eval, eval, count, evalAll_unplaced arguments]

/-- The values of several expressions do not depend on offsets. -/
theorem evalAll_unplaced (es : List Expr) : evalAll (unplacedAll es) = evalAll es := by
  cases es with
  | nil => rfl
  | cons e others =>
      rw [unplacedAll, evalAll, evalAll, eval_unplaced e, evalAll_unplaced others]
end

end Expr

/-! ## Texts -/

/-- The outcome of evaluating a text, with the offset of an error forgotten. -/
def CalculationError.outcome {α : Type} (result : Except CalculationError α) :
    Except CalculationError α :=
  result.mapError CalculationError.unplaced

/-- The outcome of evaluating a text comes from its tokens. -/
theorem outcome_evaluate {text : String} {lexemes : List Lexeme}
    (cut : Lexeme.ofText text = .ok lexemes) :
    CalculationError.outcome (evaluate text) =
      match Expr.ofLexemes (lexemes.map Lexeme.unplaced) with
      | .error error => .error (.parse error)
      | .ok e => e.eval.mapError .runtime := by
  have read : Expr.ofText text = Expr.ofLexemes lexemes := by
    rw [Expr.ofText, cut]
    rfl
  rw [evaluate, read, Expr.ofLexemes_unplaced]
  cases Expr.ofLexemes lexemes with
  | error error => rfl
  | ok e =>
      simp only [outcome, Expr.eval_unplaced]
      cases e.eval with
      | error error => rfl
      | ok value => rfl

/-- Texts with the same tokens have the same value, or errors that differ in nothing but an offset,
whatever the settings are for either. -/
theorem answer_of_same_tokens {first second : String} {firstLexemes secondLexemes : List Lexeme}
    (firstCut : Lexeme.ofText first = .ok firstLexemes)
    (secondCut : Lexeme.ofText second = .ok secondLexemes)
    (same : firstLexemes.map Lexeme.token = secondLexemes.map Lexeme.token)
    (firstSettings secondSettings : Settings) :
    (∃ value, (firstSettings.answer first).map Answer.value = .ok value ∧
      (secondSettings.answer second).map Answer.value = .ok value) ∨
    ∃ firstError secondError, firstSettings.answer first = .error firstError ∧
      secondSettings.answer second = .error secondError ∧
      firstError.unplaced = secondError.unplaced := by
  have alike : firstLexemes.map Lexeme.unplaced = secondLexemes.map Lexeme.unplaced := by
    have spelled := congrArg (List.map fun token => Lexeme.mk token "" 0) same
    rwa [List.map_map, List.map_map] at spelled
  have outcomes : CalculationError.outcome (evaluate first) =
      CalculationError.outcome (evaluate second) := by
    rw [outcome_evaluate firstCut, outcome_evaluate secondCut, alike]
  rw [Settings.answer, Settings.answer]
  cases left : evaluate first with
  | ok value =>
      cases right : evaluate second with
      | ok other =>
          rw [left, right] at outcomes
          obtain rfl : value = other := Except.ok.inj outcomes
          exact .inl ⟨value, rfl, rfl⟩
      | error error =>
          rw [left, right] at outcomes
          cases outcomes
  | error error =>
      cases right : evaluate second with
      | ok other =>
          rw [left, right] at outcomes
          cases outcomes
      | error other =>
          rw [left, right] at outcomes
          exact .inr ⟨error, other, rfl, rfl, Except.error.inj outcomes⟩

/-- `0x6+mean(2)` in base ten and `6 + mean(2.0)` in base sixteen have the same value, and `1 2` and
`0b1  0x2` are refused for the same reason at two offsets. -/
theorem answer_of_same_tokens_rebased :
    (∃ value,
      ((Settings.mk .standard .decimal).answer "0x6+mean(2)").map Answer.value = .ok value ∧
      ((Settings.mk .linearAlgebra .hexadecimal).answer "6 + mean(2.0)").map Answer.value =
        .ok value) ∧
    ∃ firstError secondError,
      (Settings.mk .standard .decimal).answer "1 2" = .error firstError ∧
      (Settings.mk .standard .binary).answer "0b1  0x2" = .error secondError ∧
      firstError.unplaced = secondError.unplaced := by
  constructor
  · have firstCut : Lexeme.ofText "0x6+mean(2)" = .ok [⟨.number 6, "0x6", 0⟩,
        ⟨.operator .add, "+", 3⟩, ⟨.name "mean", "mean", 4⟩, ⟨.leftParen, "(", 8⟩,
        ⟨.number 2, "2", 9⟩, ⟨.rightParen, ")", 10⟩, ⟨.endOfText, "", 11⟩] := by decide +kernel
    have secondCut : Lexeme.ofText "6 + mean(2.0)" = .ok [⟨.number 6, "6", 0⟩,
        ⟨.operator .add, "+", 2⟩, ⟨.name "mean", "mean", 4⟩, ⟨.leftParen, "(", 8⟩,
        ⟨.number 2, "2.0", 9⟩, ⟨.rightParen, ")", 12⟩, ⟨.endOfText, "", 13⟩] := by decide +kernel
    rcases answer_of_same_tokens firstCut secondCut rfl ⟨.standard, .decimal⟩
      ⟨.linearAlgebra, .hexadecimal⟩ with found | ⟨firstError, -, failed, -⟩
    · exact found
    · have shown : (Settings.mk .standard .decimal).answer "0x6+mean(2)" =
          .ok ⟨.number 8, "8"⟩ := by decide +kernel
      rw [shown] at failed
      cases failed
  · have firstCut : Lexeme.ofText "1 2" = .ok [⟨.number 1, "1", 0⟩, ⟨.number 2, "2", 2⟩,
        ⟨.endOfText, "", 3⟩] := by decide +kernel
    have secondCut : Lexeme.ofText "0b1  0x2" = .ok [⟨.number 1, "0b1", 0⟩,
        ⟨.number 2, "0x2", 5⟩, ⟨.endOfText, "", 8⟩] := by decide +kernel
    rcases answer_of_same_tokens firstCut secondCut rfl ⟨.standard, .decimal⟩
      ⟨.standard, .binary⟩ with ⟨value, shown, -⟩ | failed
    · have refused : (Settings.mk .standard .decimal).answer "1 2" =
          .error (.parse (.invalidExpression 2)) := by decide +kernel
      rw [refused] at shown
      cases shown
    · exact failed

end Calculator
