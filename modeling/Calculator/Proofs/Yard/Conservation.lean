import Calculator.Proofs.Expr.Forest
import Calculator.Proofs.Yard.Parentheses

/-!
# The yard keeps every lexeme once

A *spot* is a token with the offset where it stands. A node has the spot of the
lexeme that it was made from, and what a yard holds (`held`) are the spots of
the nodes that have left and of those that wait.

**One step.** Popping moves nodes from the stack to the output, where they come
next, so it leaves what is held in its order. Whatever a lexeme pops, it then
inserts its own spot, if it has one, and inserts it behind all numbers
(`held_step`), because no number waits.

**A run.** So the nodes of an accepted text have the spots of its numbers,
operators and names, each once, and its numbers stay in their order. An
expression has the nodes that it was built from, so the same holds of the
expression that is read (`spots_of_ofText`).
-/

set_option autoImplicit false

namespace Calculator

/-! ## Spots -/

/-- A token and the byte offset where it stands. -/
abbrev Spot := Token × Nat

namespace Token

/-- Whether a token becomes a node. -/
def isNode : Token → Bool
  | number _ | name _ | operator _ => true
  | _ => false

/-- The value of a number. -/
def number? : Token → Option Float
  | number value => some value
  | _ => none

end Token

/-- The value and the offset of a number. -/
def Spot.number? (spot : Spot) : Option (Float × Nat) := spot.1.number?.map (·, spot.2)

/-- The spot of a lexeme. -/
def Lexeme.spot (lexeme : Lexeme) : Spot := (lexeme.token, lexeme.offset)

/-- The spots of lexemes that become nodes. -/
def Lexeme.spots (lexemes : List Lexeme) : List Spot :=
  (lexemes.map Lexeme.spot).filter (·.1.isNode)

/-- The spot of the lexeme that a node was made from. -/
def Node.spot : Node → Spot
  | number value offset => (.number value, offset)
  | operator op offset => (.operator op, offset)
  | call name _ offset => (.name name, offset)

theorem Lexeme.spots_cons (lexeme : Lexeme) (rest : List Lexeme) :
    spots (lexeme :: rest) = spots [lexeme] ++ spots rest := by
  rw [spots, spots, spots, ← List.filter_append, ← List.map_append]
  rfl

namespace Expr

mutual
/-- The numbers of an expression with their offsets, from left to right. -/
def numbers : Expr → List (Float × Nat)
  | number value offset => [(value, offset)]
  | binary _ left right _ => left.numbers ++ right.numbers
  | call _ arguments _ => numbersAll arguments

/-- The numbers of several expressions, one expression after the other. -/
def numbersAll : List Expr → List (Float × Nat)
  | [] => []
  | e :: others => e.numbers ++ numbersAll others
end

mutual
/-- The numbers among the nodes of an expression come from left to right. -/
theorem numbers_postorder (e : Expr) :
    (e.postorder.map Node.spot).filterMap Spot.number? = e.numbers := by
  cases e with
  | number value offset => rfl
  | binary op left right offset =>
      rw [postorder, List.map_append, List.map_append, List.filterMap_append,
        List.filterMap_append, numbers_postorder left, numbers_postorder right, numbers]
      exact List.append_nil _
  | call name arguments offset =>
      rw [postorder, List.map_append, List.filterMap_append, numbers_postorderAll arguments,
        numbers]
      exact List.append_nil _

theorem numbers_postorderAll (es : List Expr) :
    ((postorderAll es).map Node.spot).filterMap Spot.number? = numbersAll es := by
  cases es with
  | nil => rfl
  | cons e others =>
      rw [postorderAll, List.map_append, List.filterMap_append, numbers_postorder e,
        numbers_postorderAll others, numbersAll]
end

end Expr

namespace Yard

/-! ## What a yard holds -/

/-- The spots of the nodes that have left and of those that wait. -/
def held (yard : Yard) : List Spot := (yard.output.toList ++ released yard.stack).map Node.spot

variable {output : Array Node} {above below stack : List Waiting}

theorem held_eq (counters : List Nat) : held ⟨output, stack, counters⟩ =
    output.toList.map Node.spot ++ (released stack).map Node.spot := by
  rw [held, List.map_append]

/-- What leaves the stack comes next in the output. -/
theorem held_release (counters others : List Nat) :
    held ⟨output ++ released above, below, counters⟩ = held ⟨output, above ++ below, others⟩ := by
  rw [held, held, released_append, ← List.append_assoc, Array.toList_appendList]

/-- An open parenthesis has no spot. -/
theorem held_paren (start : Nat) (counters others : List Nat) :
    held ⟨output, above ++ .paren start :: below, counters⟩ =
      held ⟨output, above ++ below, others⟩ := by
  rw [held, held, released_append, released_append]
  rfl

/-- A call that closes keeps the spot of its name. -/
theorem held_closeCall (yard : Yard) (empty : Bool) : held (yard.closeCall empty) = held yard := by
  obtain ⟨output, stack, counters⟩ := yard
  cases stack with
  | nil => rfl
  | cons w rest => cases w with
      | operator op offset => rfl
      | paren offset => rfl
      | name text offset =>
          rw [closeCall, held_eq, held_eq, Array.toList_push, List.map_append, List.append_assoc]
          rfl

/-- No number waits. -/
theorem number?_of_mem_released {node : Node} (member : node ∈ released stack) :
    node.spot.number? = none := by
  obtain ⟨w, -, leaves⟩ := List.mem_filterMap.1 member
  cases w with
  | operator op offset => cases leaves; rfl
  | name text offset => cases leaves; rfl
  | paren offset => cases leaves

/-! ## Steps -/

/-- Some spots come between others, behind all numbers. -/
def Inserted (fresh old new : List Spot) : Prop :=
  ∃ front back, old = front ++ back ∧ new = front ++ (fresh ++ back) ∧
    ∀ spot ∈ back, spot.number? = none

theorem inserted_none (old : List Spot) : Inserted [] old old :=
  ⟨old, [], by simp, by simp, by simp⟩

/-- An entry that comes to wait inserts its spot, if it has one. -/
theorem inserted_top (w : Waiting) (counters others : List Nat) :
    Inserted ((released [w]).map Node.spot) (held ⟨output, stack, counters⟩)
      (held ⟨output, w :: stack, others⟩) := by
  refine ⟨_, _, held_eq counters, ?_, fun spot member => ?_⟩
  · rw [held_eq, ← List.singleton_append, released_append, List.map_append]
  · obtain ⟨node, waits, rfl⟩ := List.mem_map.1 member
    exact number?_of_mem_released waits

/-- A node that leaves at once inserts its spot. -/
theorem inserted_push (node : Node) (counters others : List Nat) :
    Inserted [node.spot] (held ⟨output, stack, counters⟩)
      (held ⟨output.push node, stack, others⟩) := by
  refine ⟨_, _, held_eq counters, ?_, fun spot member => ?_⟩
  · rw [held_eq, Array.toList_push, List.map_append, List.append_assoc]
    rfl
  · obtain ⟨node, waits, rfl⟩ := List.mem_map.1 member
    exact number?_of_mem_released waits

/-- A lexeme inserts its own spot, if it becomes a node, and changes nothing else. -/
theorem held_step {yard next : Yard} {before? after? : Option Token} {lexeme : Lexeme}
    (stepped : yard.step before? after? lexeme = .ok next) :
    Inserted (Lexeme.spots [lexeme]) (held yard) (held next) := by
  obtain ⟨output, stack, counters⟩ := yard
  obtain ⟨token, text, offset⟩ := lexeme
  cases token with
  | number value =>
      cases stepped
      exact inserted_push (.number value offset) counters counters
  | name name =>
      cases stepped
      exact inserted_top (.name name offset) counters _
  | operator op =>
      cases stepped
      -- What binds tighter leaves first, and the operator waits on top of the others.
      obtain ⟨tight, loose, split, -, arrives⟩ := operator_split ⟨output, stack, counters⟩ op offset
      obtain rfl : stack = tight ++ loose := split
      rw [arrives, ← held_release counters counters]
      exact inserted_top (.operator op offset) counters counters
  | leftParen =>
      cases stepped
      exact inserted_top (.paren offset) counters counters
  | rightParen =>
      rcases split_at_paren stack with noParen | ⟨above, start, below, rfl, inner⟩
      · rw [step, close_of_no_paren noParen] at stepped
        cases stepped
      · rw [step, close_append inner] at stepped
        cases stepped
        -- From the last change to the first: a call closes, the parenthesis and what is inside leave.
        rw [held_closeCall, held_release _ counters, held_paren _ _ counters]
        exact inserted_none _
  | comma =>
      rcases split_at_paren stack with noParen | ⟨above, start, below, rfl, inner⟩
      · rw [step, comma_of_no_paren noParen] at stepped
        cases stepped
      · rw [step, comma_append inner] at stepped
        cases stepped
        rw [held_release _ counters]
        exact inserted_none _
  | leftBracket | rightBracket | endOfText =>
      cases stepped
      exact inserted_none _

/-! ## Runs -/

/-- What a run adds to what is held: spots in any order, but numbers in theirs. -/
structure Kept (fresh old new : List Spot) : Prop where
  once : new.Perm (old ++ fresh)
  ordered : new.filterMap Spot.number? = old.filterMap Spot.number? ++ fresh.filterMap Spot.number?

theorem Inserted.kept {fresh old new : List Spot} (inserted : Inserted fresh old new) :
    Kept fresh old new := by
  obtain ⟨front, back, rfl, rfl, unnumbered⟩ := inserted
  have numberless : back.filterMap Spot.number? = [] := List.filterMap_eq_nil_iff.2 unnumbered
  constructor
  · rw [List.append_assoc]
    exact (List.perm_append_comm).append_left front
  · simp [numberless]

theorem Kept.trans {first second old middle new : List Spot} (before : Kept first old middle)
    (after : Kept second middle new) : Kept (first ++ second) old new := by
  constructor
  · rw [← List.append_assoc]
    exact after.once.trans (before.once.append_right second)
  · rw [after.ordered, before.ordered, List.filterMap_append, List.append_assoc]

/-- A run keeps what was held and adds the spots of its lexemes. -/
theorem held_run {lexemes : List Lexeme} {yard last : Yard} {before? : Option Token}
    (ran : yard.run before? lexemes = .ok last) :
    Kept (Lexeme.spots lexemes) (held yard) (held last) := by
  induction lexemes generalizing yard before? with
  | nil =>
      cases ran
      exact (inserted_none _).kept
  | cons lexeme rest ih =>
      rw [run] at ran
      obtain ⟨next, stepped, later⟩ := bind_eq_ok_iff.1 ran
      rw [Lexeme.spots_cons]
      exact (held_step stepped).kept.trans (ih later)

/-- The nodes that a yard leaves at the end are those that it holds. -/
theorem held_finish {yard : Yard} {nodes : List Node} (finished : yard.finish = .ok nodes) :
    nodes.map Node.spot = held yard := by
  rw [finish] at finished
  split at finished
  case h_1 => cases finished
  case h_2 =>
    cases finished
    rw [held, Array.toList_appendList]

/-- The nodes of accepted lexemes have the spots of the lexemes. -/
theorem spots_of_postorder {lexemes : List Lexeme} {nodes : List Node}
    (accepted : postorder lexemes = .ok nodes) :
    Kept (Lexeme.spots lexemes) [] (nodes.map Node.spot) := by
  rw [postorder] at accepted
  obtain ⟨yard, ran, finished⟩ := bind_eq_ok_iff.1 accepted
  rw [held_finish finished]
  exact held_run ran

end Yard

/-! ## Expressions -/

namespace Expr

/-- The nodes of an expression that is read stand at the numbers, operators and names of the text,
each once, and its numbers from left to right are the numbers of the text in order. -/
theorem spots_of_ofText {text : String} {e : Expr} (read : ofText text = .ok e) :
    ∃ lexemes, Lexeme.ofText text = .ok lexemes ∧
      (e.postorder.map Node.spot).Perm (Lexeme.spots lexemes) ∧
      e.numbers = (Lexeme.spots lexemes).filterMap Spot.number? := by
  rw [ofText] at read
  obtain ⟨lexemes, cut, read⟩ := bind_eq_ok_iff.1 read
  rw [ofLexemes] at read
  obtain ⟨nodes, left, built⟩ := bind_eq_ok_iff.1 read
  obtain rfl : nodes = e.postorder := ofPostorder_eq_ok_iff.1 built
  have kept := Yard.spots_of_postorder left
  refine ⟨lexemes, cut, kept.once, ?_⟩
  rw [← numbers_postorder, kept.ordered]
  rfl

/-- The operator of `2 f(8, [3]) -` comes after its operands, and no lexeme gets lost. -/
theorem spots_of_ofText_difference :
    ∃ lexemes, Lexeme.ofText "2 f(8, [3]) -" = .ok lexemes ∧
      List.Perm [((.number 2 : Token), 0), (.number 8, 4), (.number 3, 8), (.name "f", 2),
        (.operator .sub, 12)] (Lexeme.spots lexemes) ∧
      [(2, 0), (8, 4), (3, 8)] = (Lexeme.spots lexemes).filterMap Spot.number? := by
  have read : ofText "2 f(8, [3]) -" =
      .ok (.binary .sub (.number 2 0) (.call "f" [.number 8 4, .number 3 8] 2) 12) := by
    decide +kernel
  exact spots_of_ofText read

end Expr

end Calculator
