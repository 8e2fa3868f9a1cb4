import Calculator.Evaluation
import Calculator.Proofs.Yard.BareNames
import Calculator.Proofs.Yard.Conservation

/-!
# What has a value has it in every part

**Expressions.** Nothing is skipped: an expression with a value is built from
parts with a value (`eval_parts`). A call with a value has a known name and a
number of arguments that the function accepts, and it has an argument, because
every function fails on none at all, those included that accept any number
(`Builtin.apply_nil`, `eval_call`).

**Texts.** Every name of a text becomes a call of the expression, so it is
known. A name that leaves the yard without arguments would be a call without a
value, so every name is applied to something (`strict_evaluation`).
-/

set_option autoImplicit false

namespace Calculator

namespace Expr

/-! ## Parts -/

mutual
/-- An expression and all expressions that it is built from. -/
def parts : Expr → List Expr
  | number value offset => [number value offset]
  | binary op left right offset => binary op left right offset :: (left.parts ++ right.parts)
  | call name arguments offset => call name arguments offset :: partsAll arguments

/-- The parts of several expressions, one expression after the other. -/
def partsAll : List Expr → List Expr
  | [] => []
  | e :: others => e.parts ++ partsAll others
end

mutual
/-- A call among the nodes is a part with as many arguments. -/
theorem call_mem_parts {e : Expr} {name : String} {arity offset : Nat}
    (member : .call name arity offset ∈ e.postorder) :
    ∃ arguments, arguments.length = arity ∧ .call name arguments offset ∈ e.parts := by
  cases e with
  | number value place => simp [postorder] at member
  | binary op left right place =>
      simp only [postorder, List.mem_append, List.mem_singleton] at member
      rcases member with (inLeft | inRight) | isOperator
      · obtain ⟨arguments, count, part⟩ := call_mem_parts inLeft
        exact ⟨arguments, count, by simp [parts, part]⟩
      · obtain ⟨arguments, count, part⟩ := call_mem_parts inRight
        exact ⟨arguments, count, by simp [parts, part]⟩
      · cases isOperator
  | call function operands place =>
      simp only [postorder, List.mem_append, List.mem_singleton] at member
      rcases member with inside | isCall
      · obtain ⟨arguments, count, part⟩ := call_mem_partsAll inside
        exact ⟨arguments, count, by simp [parts, part]⟩
      · cases isCall
        exact ⟨operands, rfl, by simp [parts]⟩

theorem call_mem_partsAll {es : List Expr} {name : String} {arity offset : Nat}
    (member : .call name arity offset ∈ postorderAll es) :
    ∃ arguments, arguments.length = arity ∧ .call name arguments offset ∈ partsAll es := by
  cases es with
  | nil => simp [postorderAll] at member
  | cons e others =>
      rw [postorderAll, List.mem_append] at member
      rcases member with inFirst | inOthers
      · obtain ⟨arguments, count, part⟩ := call_mem_parts inFirst
        exact ⟨arguments, count, by simp [partsAll, part]⟩
      · obtain ⟨arguments, count, part⟩ := call_mem_partsAll inOthers
        exact ⟨arguments, count, by simp [partsAll, part]⟩
end

/-! ## Values of the parts -/

mutual
/-- Every part of an expression with a value has a value. -/
theorem eval_parts {e part : Expr} {value : Value} (evaluated : e.eval = .ok value)
    (member : part ∈ e.parts) : ∃ own, part.eval = .ok own := by
  cases e with
  | number x offset =>
      obtain rfl := List.mem_singleton.1 member
      exact ⟨value, evaluated⟩
  | binary op left right offset =>
      rw [parts, List.mem_cons, List.mem_append] at member
      rcases member with rfl | inLeft | inRight
      · exact ⟨value, evaluated⟩
      · rw [eval] at evaluated
        obtain ⟨a, first, -⟩ := bind_eq_ok_iff.1 evaluated
        exact eval_parts first inLeft
      · rw [eval] at evaluated
        obtain ⟨a, -, evaluated⟩ := bind_eq_ok_iff.1 evaluated
        obtain ⟨b, second, -⟩ := bind_eq_ok_iff.1 evaluated
        exact eval_parts second inRight
  | call name arguments offset =>
      rw [parts, List.mem_cons] at member
      rcases member with rfl | inside
      · exact ⟨value, evaluated⟩
      · rw [eval] at evaluated
        split at evaluated
        case h_1 => cases evaluated
        case h_2 function known =>
          split at evaluated
          case isFalse => cases evaluated
          case isTrue =>
            obtain ⟨values, all, -⟩ := bind_eq_ok_iff.1 evaluated
            exact evalAll_partsAll all inside

theorem evalAll_partsAll {es : List Expr} {part : Expr} {values : List Value}
    (evaluated : evalAll es = .ok values) (member : part ∈ partsAll es) :
    ∃ own, part.eval = .ok own := by
  cases es with
  | nil => cases member
  | cons e others =>
      rw [evalAll] at evaluated
      obtain ⟨first, head, evaluated⟩ := bind_eq_ok_iff.1 evaluated
      obtain ⟨rest, tail, -⟩ := bind_eq_ok_iff.1 evaluated
      rw [partsAll, List.mem_append] at member
      rcases member with inFirst | inOthers
      · exact eval_parts head inFirst
      · exact evalAll_partsAll tail inOthers
end

end Expr

/-! ## Calls -/

/-- Every function fails without arguments. -/
theorem Builtin.apply_nil (function : Builtin) : ∃ error, function.apply [] = .error error := by
  cases function <;> exact ⟨_, rfl⟩

namespace Expr

/-- A call that can have a value: a known name, applied to as many arguments as the function
accepts, and to at least one. -/
def Callable (name : String) (arguments : List Expr) : Prop :=
  ∃ function, Builtin.ofName? name = some function ∧
    function.arity.accepts arguments.length = true ∧ arguments ≠ []

theorem callable_of_eval {name : String} {arguments : List Expr} {offset : Nat} {value : Value}
    (evaluated : (call name arguments offset).eval = .ok value) : Callable name arguments := by
  rw [eval] at evaluated
  split at evaluated
  case h_1 => cases evaluated
  case h_2 function known =>
    split at evaluated
    case isFalse => cases evaluated
    case isTrue accepted =>
      refine ⟨function, known, accepted, ?_⟩
      rintro rfl
      obtain ⟨error, fails⟩ := function.apply_nil
      rw [evalAll] at evaluated
      cases fails.symm.trans evaluated

/-- A call among the nodes of an expression with a value is callable. -/
theorem callable_of_mem {e : Expr} {value : Value} {name : String} {arity offset : Nat}
    (evaluated : e.eval = .ok value) (member : .call name arity offset ∈ e.postorder) :
    ∃ arguments, arguments.length = arity ∧ Callable name arguments := by
  obtain ⟨arguments, count, part⟩ := call_mem_parts member
  obtain ⟨own, evaluated⟩ := eval_parts evaluated part
  exact ⟨arguments, count, callable_of_eval evaluated⟩

end Expr

/-! ## Names of a text -/

/-- A name of a text becomes a call of the expression that is read. -/
theorem Expr.mem_postorder_of_name {lexemes : List Lexeme} {e : Expr} {lexeme : Lexeme}
    {name : String} (listed : Yard.postorder lexemes = .ok e.postorder) (member : lexeme ∈ lexemes)
    (isName : lexeme.token = .name name) :
    ∃ arity, .call name arity lexeme.offset ∈ e.postorder := by
  have spot : ((.name name : Token), lexeme.offset) ∈ Lexeme.spots lexemes := by
    rw [← isName]
    exact List.mem_filter.2 ⟨List.mem_map.2 ⟨lexeme, member, rfl⟩, by simp [isName, Token.isNode]⟩
  have kept : ((.name name : Token), lexeme.offset) ∈ e.postorder.map Node.spot :=
    (Yard.spots_of_postorder listed).once.mem_iff.2 spot
  obtain ⟨node, listed, same⟩ := List.mem_map.1 kept
  cases node with
  | number value offset => cases same
  | operator op offset => cases same
  | call text arity offset =>
      cases same
      exact ⟨arity, listed⟩

/-- A text with a value is read as an expression with that value. -/
theorem exists_expr_of_evaluate {text : String} {value : Value}
    (evaluated : evaluate text = .ok value) :
    ∃ (lexemes : List Lexeme) (e : Expr), Lexeme.ofText text = .ok lexemes ∧
      Yard.postorder lexemes = .ok e.postorder ∧ e.eval = .ok value := by
  rw [evaluate] at evaluated
  cases read : Expr.ofText text with
  | error error => simp [read] at evaluated
  | ok e =>
      rw [read] at evaluated
      rw [Expr.ofText] at read
      obtain ⟨lexemes, cut, built⟩ := bind_eq_ok_iff.1 read
      rw [Expr.ofLexemes] at built
      obtain ⟨nodes, listed, built⟩ := bind_eq_ok_iff.1 built
      obtain rfl : nodes = e.postorder := Expr.ofPostorder_eq_ok_iff.1 built
      refine ⟨lexemes, e, cut, listed, ?_⟩
      cases worth : e.eval with
      | error error => simp [worth] at evaluated
      | ok result => simpa [worth] using evaluated

/-- All parts of an expression with a value have one, and its calls are of known functions with as
many arguments as these accept, but at least one. All names of a text with a value are known and,
brackets aside, stand before an operand and not before an empty pair of parentheses. -/
theorem strict_evaluation (e : Expr) (text : String) (value : Value) :
    (e.eval = .ok value → ∀ part ∈ e.parts,
      (∃ own, part.eval = .ok own) ∧
      ∀ name arguments offset, part = .call name arguments offset →
        Expr.Callable name arguments) ∧
    (evaluate text = .ok value →
      ∃ lexemes, Lexeme.ofText text = .ok lexemes ∧
        ∀ before lexeme after name, lexemes = before ++ lexeme :: after →
          lexeme.token = .name name →
          (∃ function, Builtin.ofName? name = some function) ∧ Yard.Applied after) := by
  constructor
  · intro evaluated part member
    have own := Expr.eval_parts evaluated member
    refine ⟨own, fun name arguments offset isCall => ?_⟩
    rw [isCall] at own
    obtain ⟨result, evaluated⟩ := own
    exact Expr.callable_of_eval evaluated
  · intro evaluated
    obtain ⟨lexemes, e, cut, listed, evaluated⟩ := exists_expr_of_evaluate evaluated
    refine ⟨lexemes, cut, fun before lexeme after name split isName => ?_⟩
    subst split
    obtain ⟨arity, member⟩ := Expr.mem_postorder_of_name listed (by simp) isName
    obtain ⟨-, -, function, known, -⟩ := Expr.callable_of_mem evaluated member
    refine ⟨⟨function, known⟩, ?_⟩
    rcases Yard.applied_or_mem listed isName with applied | bare
    · exact applied
    · -- Left without arguments, the name would be a call without a value.
      obtain ⟨arguments, empty, -, -, -, nonempty⟩ := Expr.callable_of_mem evaluated bare
      exact absurd (List.length_eq_zero_iff.1 empty) nonempty

/-- The `not` inside `and(not(0), 2)` has a value and an argument, and both names are applied. -/
theorem strict_evaluation_nested :
    ((∃ own, (Expr.call "not" [.number 0 8] 4).eval = .ok own) ∧
      Expr.Callable "not" [.number 0 8]) ∧
    ∃ lexemes, Lexeme.ofText "and(not(0), 2)" = .ok lexemes ∧
      ∀ before lexeme after name, lexemes = before ++ lexeme :: after →
        lexeme.token = .name name →
        (∃ function, Builtin.ofName? name = some function) ∧ Yard.Applied after := by
  have whole : (Expr.call "and" [.call "not" [.number 0 8] 4, .number 2 12] 0).eval =
      .ok (.number 1) := by decide +kernel
  have shown : evaluate "and(not(0), 2)" = .ok (.number 1) := by decide +kernel
  obtain ⟨tree, named⟩ := strict_evaluation
    (.call "and" [.call "not" [.number 0 8] 4, .number 2 12] 0) "and(not(0), 2)" (.number 1)
  have inner := tree whole (.call "not" [.number 0 8] 4) (by simp [Expr.parts, Expr.partsAll])
  exact ⟨⟨inner.1, inner.2 _ _ _ rfl⟩, named shown⟩

/-- In `not 1 (2) +` the name takes an argument from parentheses that do not follow it, and in
`1 not([])` an empty call takes the number before it. -/
theorem bare_name_evaluates :
    (Lexeme.ofText "not 1 (2) +" = .ok [⟨.name "not", "not", 0⟩, ⟨.number 1, "1", 4⟩,
        ⟨.leftParen, "(", 6⟩, ⟨.number 2, "2", 7⟩, ⟨.rightParen, ")", 8⟩, ⟨.operator .add, "+", 10⟩,
        ⟨.endOfText, "", 11⟩] ∧
      evaluate "not 1 (2) +" = .ok (.number 1)) ∧
    evaluate "1 not([])" = .ok (.number 0) := by
  decide +kernel

end Calculator
