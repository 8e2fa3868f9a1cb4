import Calculator.Proofs.Yard.Steps

/-!
# Derivations of the infix grammar are read back

`Spells level lexemes e` is the grammar of infix expressions with its trees. An
expression of a level is one of the next level, or an expression of that level,
one of the operators of the level (`operators`), and an expression of the next
level. Level seven holds numbers, groups in parentheses and calls. A derivation
says which tree its lexemes stand for, the offset of every node included.

The grammar has its own table of levels. The yard compares precedences, and the
two orders are the same (`mem_operators`).

**Reading.** The lexemes of a derivation, closed by the end of the text, are
read as the tree of the derivation (`ofLexemes_of_spells`).

The invariant behind it says what a derivation does in the middle of a run
(`run_spells`). On a stack whose top neither binds as tightly as the level nor
is a name, the lexemes leave some nodes behind and some operators waiting, each
at least as tight as the level; nodes and waiting operators together are the
postorder of the tree. Whatever may follow a derivation of that level makes
exactly those operators leave.
-/

set_option autoImplicit false

namespace Calculator.Infix

open Yard (released)

/-! ## The grammar -/

/-- The operators that stand outermost in expressions of a level, the loosest at level zero. -/
def operators : Nat → List BinaryOperator
  | 0 => [.tilde]
  | 1 => [.shiftLeft, .shiftRight]
  | 2 => [.add, .sub]
  | 3 => [.mul, .div, .rem]
  | 4 => [.bitAnd]
  | 5 => [.bitXor]
  | 6 => [.bitOr]
  | _ => []

/-- Every operator binds as tightly as its level says, and has one level. -/
theorem mem_operators {op : BinaryOperator} {level : Nat} :
    op ∈ operators level ↔ op.precedence = level := by
  rw [operators.eq_def]
  split
  case h_8 =>
    -- Above level six there is no operator.
    refine iff_of_false List.not_mem_nil ?_
    rintro rfl
    cases op <;> simp_all [BinaryOperator.precedence]
  all_goals cases op <;> decide

mutual
/-- The lexemes of an expression of a level, and the tree they stand for. -/
inductive Spells : Nat → List Lexeme → Expr → Prop where
  | number (value : Float) (text : String) (offset : Nat) :
      Spells 7 [⟨.number value, text, offset⟩] (.number value offset)
  | group {inner : List Lexeme} {e : Expr} (left right : String) (start stop : Nat) :
      Spells 0 inner e →
        Spells 7 (⟨.leftParen, left, start⟩ :: (inner ++ [⟨.rightParen, right, stop⟩])) e
  | call {inner : List Lexeme} {arguments : List Expr} (name text left right : String)
      (offset start stop : Nat) :
      SpellsAll inner arguments →
        Spells 7
          (⟨.name name, text, offset⟩ :: ⟨.leftParen, left, start⟩ ::
            (inner ++ [⟨.rightParen, right, stop⟩]))
          (.call name arguments offset)
  | tighter {level : Nat} {lexemes : List Lexeme} {e : Expr} :
      Spells (level + 1) lexemes e → Spells level lexemes e
  | binary {level : Nat} {ls rs : List Lexeme} {left right : Expr} (op : BinaryOperator)
      (text : String) (offset : Nat) :
      op ∈ operators level → Spells level ls left → Spells (level + 1) rs right →
        Spells level (ls ++ ⟨.operator op, text, offset⟩ :: rs) (.binary op left right offset)

/-- The lexemes of zero or more expressions with commas between them. -/
inductive SpellsAll : List Lexeme → List Expr → Prop where
  | none : SpellsAll [] []
  | some {lexemes : List Lexeme} {es : List Expr} : SpellsSome lexemes es → SpellsAll lexemes es

/-- The lexemes of one or more expressions with commas between them. -/
inductive SpellsSome : List Lexeme → List Expr → Prop where
  | one {lexemes : List Lexeme} {e : Expr} : Spells 0 lexemes e → SpellsSome lexemes [e]
  | more {ls rs : List Lexeme} {e : Expr} {es : List Expr} (text : String) (offset : Nat) :
      Spells 0 ls e → SpellsSome rs es →
        SpellsSome (ls ++ ⟨.comma, text, offset⟩ :: rs) (e :: es)
end

/-- An expression of a level is one of every lower level. -/
theorem Spells.looser {tight level : Nat} {lexemes : List Lexeme} {e : Expr}
    (spells : Spells tight lexemes e) (below : level ≤ tight) : Spells level lexemes e := by
  induction tight with
  | zero =>
      obtain rfl : level = 0 := by omega
      exact spells
  | succ tight ih =>
      rcases Nat.eq_or_lt_of_le below with rfl | lower
      · exact spells
      · exact ih spells.tighter (by omega)

/-! ## What a derivation does to the yard -/

/-- The top of a stack lets an expression of a level begin: it waits for less tight operators, and
it is no name that would take a group for its arguments. -/
def Opens (level : Nat) (stack : List Waiting) : Prop :=
  ∀ w ∈ stack.head?, w.bindsAtLeast level = false ∧ w.isName = false

theorem Opens.tighter {level : Nat} {stack : List Waiting} (opens : Opens level stack) :
    Opens (level + 1) stack := by
  intro w top
  refine ⟨?_, (opens w top).2⟩
  by_contra tight
  have := Waiting.bindsAtLeast_mono (Nat.le_succ level) (Bool.of_not_eq_false tight)
  simp [(opens w top).1] at this

theorem opens_paren (level start : Nat) (stack : List Waiting) :
    Opens level (.paren start :: stack) := by
  intro w top
  obtain rfl : Waiting.paren start = w := by simpa using top
  exact ⟨rfl, rfl⟩

theorem opens_operator (op : BinaryOperator) (offset : Nat) (stack : List Waiting) :
    Opens (op.precedence + 1) (.operator op offset :: stack) := by
  intro w top
  obtain rfl : Waiting.operator op offset = w := by simpa using top
  exact ⟨by simp [Waiting.bindsAtLeast], rfl⟩

/-- The state after the lexemes of a derivation of some level. -/
structure After (level : Nat) (nodes : List Node) (pending : List Waiting) (last : Token)
    (all : List Node) : Prop where
  complete : nodes ++ released pending = all
  tight : ∀ w ∈ pending, w.bindsAtLeast level = true
  notOpen : last ≠ .leftParen

theorem After.noParen {level : Nat} {nodes all : List Node} {pending : List Waiting} {last : Token}
    (after : After level nodes pending last all) : ∀ w ∈ pending, w.isParen = false :=
  fun w member => Waiting.isParen_of_bindsAtLeast (after.tight w member)

/-- A single node that leaves at once. -/
theorem after_seven (nodes : List Node) {last : Token} (notOpen : last ≠ .leftParen) :
    After 7 nodes [] last nodes :=
  ⟨by simp, by simp, notOpen⟩

mutual
/-- The lexemes of a derivation leave the postorder of its tree, partly as output and partly as
operators that wait. -/
theorem run_spells {level : Nat} {lexemes : List Lexeme} {e : Expr}
    (spells : Spells level lexemes e) (output : Array Node) (stack : List Waiting)
    (counters : List Nat) (before? : Option Token) (rest : List Lexeme)
    (opens : Opens level stack) :
    ∃ nodes pending last, After level nodes pending last e.postorder ∧
      (Yard.mk output stack counters).run before? (lexemes ++ rest) =
        (Yard.mk (output ++ nodes) (pending ++ stack) counters).run (some last) rest := by
  match spells with
  | .number value text offset =>
      refine ⟨[.number value offset], [], .number value, after_seven _ (by simp), ?_⟩
      rw [← Yard.push_eq_appendList]
      rfl
  | .group left right start stop inside =>
      rename_i inner
      obtain ⟨nodes, pending, last, after, runs⟩ :=
        run_spells inside output (.paren start :: stack) counters (some .leftParen)
          (⟨.rightParen, right, stop⟩ :: rest) (opens_paren 0 start stack)
      refine ⟨e.postorder, [], .rightParen, after_seven _ (by simp), ?_⟩
      have closed : (Yard.mk (output ++ nodes) (pending ++ .paren start :: stack) counters).close
          (some last = some .leftParen) stop =
            .ok ⟨output ++ e.postorder, stack, counters⟩ := by
        rw [Yard.close_append after.noParen,
          Yard.closeCall_of_not_name fun w top => (opens w top).2, Yard.appendList_appendList,
          after.complete]
      calc (Yard.mk output stack counters).run before?
            (⟨.leftParen, left, start⟩ :: (inner ++ [⟨.rightParen, right, stop⟩]) ++ rest)
          = (Yard.mk output (.paren start :: stack) counters).run (some .leftParen)
              (inner ++ ⟨.rightParen, right, stop⟩ :: rest) := by
            rw [List.cons_append, List.append_assoc]; rfl
        _ = _ := runs
        _ = _ := by
            rw [Yard.run]
            simp only [Yard.step, closed]
            rfl
  | .call name text left right offset start stop inside =>
      rename_i inner arguments
      match inside with
      | .none =>
          refine ⟨[.call name 0 offset], [], .rightParen, after_seven _ (by simp), ?_⟩
          rw [← Yard.push_eq_appendList]
          rfl
      | .some inside =>
          obtain ⟨nodes, pending, last, more, after, counted, runs⟩ :=
            run_spellsSome inside output start (.name name offset :: stack) 0 counters
              (some .leftParen) (⟨.rightParen, right, stop⟩ :: rest)
          refine ⟨_, [], .rightParen, after_seven _ (by simp), ?_⟩
          have closed : (Yard.mk (output ++ nodes)
              (pending ++ .paren start :: .name name offset :: stack)
                ((0 + more) :: counters)).close (some last = some .leftParen) stop =
                  .ok ⟨output ++ (Expr.call name arguments offset).postorder, stack, counters⟩ := by
            rw [Yard.close_append after.noParen, Yard.closeCall_name, Yard.push_eq_appendList,
              Yard.appendList_appendList, Yard.appendList_appendList, ← List.append_assoc,
              after.complete, Expr.postorder, counted]
            simp [after.notOpen]
          calc (Yard.mk output stack counters).run before?
                (⟨.name name, text, offset⟩ :: ⟨.leftParen, left, start⟩ ::
                  (inner ++ [⟨.rightParen, right, stop⟩]) ++ rest)
              = (Yard.mk output (.paren start :: .name name offset :: stack) (0 :: counters)).run
                  (some .leftParen) (inner ++ ⟨.rightParen, right, stop⟩ :: rest) := by
                rw [List.cons_append, List.cons_append, List.append_assoc]; rfl
            _ = _ := runs
            _ = _ := by
                rw [Yard.run]
                simp only [Yard.step, closed]
                rfl
  | .tighter inside =>
      obtain ⟨nodes, pending, last, after, runs⟩ :=
        run_spells inside output stack counters before? rest opens.tighter
      exact ⟨nodes, pending, last, ⟨after.complete,
        fun w member => Waiting.bindsAtLeast_mono (Nat.le_succ _) (after.tight w member),
        after.notOpen⟩, runs⟩
  | .binary op text offset ofLevel spellsLeft spellsRight =>
      rename_i ls rs left right
      have binds : op.precedence = level := mem_operators.1 ofLevel
      obtain ⟨leftNodes, leftPending, leftLast, leftAfter, leftRuns⟩ :=
        run_spells spellsLeft output stack counters before?
          (⟨.operator op, text, offset⟩ :: (rs ++ rest)) opens
      obtain ⟨nodes, pending, last, after, runs⟩ :=
        run_spells spellsRight (output ++ left.postorder) (.operator op offset :: stack) counters
          (some (.operator op)) rest (binds ▸ opens_operator op offset stack)
      refine ⟨left.postorder ++ nodes, pending ++ [.operator op offset], last,
        ⟨?_, ?_, after.notOpen⟩, ?_⟩
      · rw [Yard.released_append, ← List.append_assoc, List.append_assoc left.postorder,
          after.complete]
        rfl
      · intro w member
        rcases List.mem_append.1 member with waits | waits
        · exact Waiting.bindsAtLeast_mono (Nat.le_succ _) (after.tight w waits)
        · obtain rfl : w = .operator op offset := by simpa using waits
          simp [Waiting.bindsAtLeast, binds]
      · -- All that waits of the left operand binds at least as tightly as the operator.
        have arrived : (Yard.mk (output ++ leftNodes) (leftPending ++ stack) counters).operator op
            offset = ⟨output ++ left.postorder, .operator op offset :: stack, counters⟩ := by
          rw [Yard.operator_append (binds ▸ leftAfter.tight) fun w top => binds ▸ (opens w top).1,
            Yard.appendList_appendList, leftAfter.complete]
        calc (Yard.mk output stack counters).run before?
              ((ls ++ ⟨.operator op, text, offset⟩ :: rs) ++ rest)
            = (Yard.mk output stack counters).run before?
                (ls ++ ⟨.operator op, text, offset⟩ :: (rs ++ rest)) := by
              rw [List.append_assoc, List.cons_append]
          _ = _ := leftRuns
          _ = (Yard.mk (output ++ left.postorder) (.operator op offset :: stack) counters).run
                (some (.operator op)) (rs ++ rest) := by
              rw [Yard.run]
              simp only [Yard.step, arrived]
              rfl
          _ = _ := runs
          _ = _ := by
              rw [Yard.appendList_appendList, List.append_assoc]
              rfl

/-- The lexemes of one or more arguments, read after the parenthesis of their call, advance its
counter by the commas between them. -/
theorem run_spellsSome {lexemes : List Lexeme} {es : List Expr} (spells : SpellsSome lexemes es)
    (output : Array Node) (start : Nat) (stack : List Waiting) (commas : Nat) (counters : List Nat)
    (before? : Option Token) (rest : List Lexeme) :
    ∃ nodes pending last more, After 0 nodes pending last (Expr.postorderAll es) ∧
      es.length = more + 1 ∧
      (Yard.mk output (.paren start :: stack) (commas :: counters)).run before? (lexemes ++ rest) =
        (Yard.mk (output ++ nodes) (pending ++ .paren start :: stack)
          ((commas + more) :: counters)).run (some last) rest := by
  match spells with
  | .one inside =>
      obtain ⟨nodes, pending, last, after, runs⟩ :=
        run_spells inside output (.paren start :: stack) (commas :: counters) before? rest
          (opens_paren 0 start stack)
      exact ⟨nodes, pending, last, 0, by simpa [Expr.postorderAll] using after, rfl, runs⟩
  | .more text offset first others =>
      rename_i ls rs e es
      obtain ⟨firstNodes, firstPending, firstLast, firstAfter, firstRuns⟩ :=
        run_spells first output (.paren start :: stack) (commas :: counters) before?
          (⟨.comma, text, offset⟩ :: (rs ++ rest)) (opens_paren 0 start stack)
      obtain ⟨nodes, pending, last, more, after, counted, runs⟩ :=
        run_spellsSome others (output ++ e.postorder) start stack (commas + 1) counters
          (some .comma) rest
      refine ⟨e.postorder ++ nodes, pending, last, more + 1,
        ⟨by rw [List.append_assoc, after.complete]; rfl, after.tight, after.notOpen⟩,
        by simp [counted], ?_⟩
      have arrived : (Yard.mk (output ++ firstNodes) (firstPending ++ .paren start :: stack)
          (commas :: counters)).comma offset =
            .ok ⟨output ++ e.postorder, .paren start :: stack, (commas + 1) :: counters⟩ := by
        rw [Yard.comma_append firstAfter.noParen, Yard.appendList_appendList, firstAfter.complete]
        rfl
      calc (Yard.mk output (.paren start :: stack) (commas :: counters)).run before?
            ((ls ++ ⟨.comma, text, offset⟩ :: rs) ++ rest)
          = (Yard.mk output (.paren start :: stack) (commas :: counters)).run before?
              (ls ++ ⟨.comma, text, offset⟩ :: (rs ++ rest)) := by
            rw [List.append_assoc, List.cons_append]
        _ = _ := firstRuns
        _ = (Yard.mk (output ++ e.postorder) (.paren start :: stack) ((commas + 1) :: counters)).run
              (some .comma) (rs ++ rest) := by
            rw [Yard.run]
            simp only [Yard.step, arrived]
            rfl
        _ = _ := runs
        _ = _ := by
            rw [Yard.appendList_appendList, Nat.add_right_comm, Nat.add_assoc]
end

/-! ## Reading a derivation -/

/-- The lexemes of an expression, closed by the end of the text, leave the yard as its postorder. -/
theorem postorder_of_spells {lexemes : List Lexeme} {e : Expr} (spells : Spells 0 lexemes e)
    (text : String) (offset : Nat) :
    Yard.postorder (lexemes ++ [⟨.endOfText, text, offset⟩]) = .ok e.postorder := by
  obtain ⟨nodes, pending, last, after, runs⟩ :=
    run_spells spells #[] [] [] none [⟨.endOfText, text, offset⟩] (by simp [Opens])
  calc Yard.postorder (lexemes ++ [⟨.endOfText, text, offset⟩])
      = (Yard.mk (#[] ++ nodes) (pending ++ []) []).finish := by
        rw [Yard.postorder, Yard.empty, runs]; rfl
    _ = .ok (((#[] : Array Node) ++ nodes).toList ++ released pending) := by
        rw [List.append_nil, Yard.finish_of_no_paren after.noParen]
    _ = .ok e.postorder := by rw [← after.complete]; simp

/-- The lexemes of an expression, closed by the end of the text, are read as that expression: its
operators grouped by precedence and to the left, its calls with their arguments in order, and every
node with the offset of its own lexeme. -/
theorem ofLexemes_of_spells {lexemes : List Lexeme} {e : Expr} (spells : Spells 0 lexemes e)
    (text : String) (offset : Nat) :
    Expr.ofLexemes (lexemes ++ [⟨.endOfText, text, offset⟩]) = .ok e := by
  rw [Expr.ofLexemes, postorder_of_spells spells]
  exact Expr.ofPostorder_postorder e

/-- In `8 ~ 7 << 6 + 5 * 4 & 3 ^ 2 | f(1, 0) - 9` every operator up to the call binds tighter than the
one before it, and the difference at the end takes the sum for its left operand. -/
theorem ofLexemes_of_spells_levels :
    Expr.ofLexemes ([⟨.number 8, "8", 0⟩, ⟨.operator .tilde, "~", 2⟩, ⟨.number 7, "7", 4⟩,
        ⟨.operator .shiftLeft, "<<", 6⟩, ⟨.number 6, "6", 9⟩, ⟨.operator .add, "+", 11⟩,
        ⟨.number 5, "5", 13⟩, ⟨.operator .mul, "*", 15⟩, ⟨.number 4, "4", 17⟩,
        ⟨.operator .bitAnd, "&", 19⟩, ⟨.number 3, "3", 21⟩, ⟨.operator .bitXor, "^", 23⟩,
        ⟨.number 2, "2", 25⟩, ⟨.operator .bitOr, "|", 27⟩, ⟨.name "f", "f", 29⟩,
        ⟨.leftParen, "(", 30⟩, ⟨.number 1, "1", 31⟩, ⟨.comma, ",", 32⟩, ⟨.number 0, "0", 34⟩,
        ⟨.rightParen, ")", 35⟩, ⟨.operator .sub, "-", 37⟩, ⟨.number 9, "9", 39⟩] ++
          [⟨.endOfText, "", 40⟩]) =
      .ok (.binary .tilde (.number 8 0)
        (.binary .shiftLeft (.number 7 4)
          (.binary .sub
            (.binary .add (.number 6 9)
              (.binary .mul (.number 5 13)
                (.binary .bitAnd (.number 4 17)
                  (.binary .bitXor (.number 3 21)
                    (.binary .bitOr (.number 2 25)
                      (.call "f" [.number 1 31, .number 0 34] 29) 27) 23) 19) 15) 11)
            (.number 9 39) 37) 6) 2) := by
  have numeral (value : Float) (text : String) (offset : Nat) {level : Nat} (below : level ≤ 7) :
      Spells level [⟨.number value, text, offset⟩] (.number value offset) :=
    (Spells.number value text offset).looser below
  have call : Spells 7 _ (.call "f" [.number 1 31, .number 0 34] 29) :=
    .call "f" "f" "(" ")" 29 30 35 (.some (.more "," 32 (numeral 1 "1" 31 (by decide))
      (.one (numeral 0 "0" 34 (by decide)))))
  have either : Spells 6 _ _ :=
    .binary .bitOr "|" 27 (by decide) (numeral 2 "2" 25 (by decide)) call
  have odd : Spells 5 _ _ :=
    .binary .bitXor "^" 23 (by decide) (numeral 3 "3" 21 (by decide)) either
  have both : Spells 4 _ _ :=
    .binary .bitAnd "&" 19 (by decide) (numeral 4 "4" 17 (by decide)) odd
  have product : Spells 3 _ _ :=
    .binary .mul "*" 15 (by decide) (numeral 5 "5" 13 (by decide)) both
  have sum : Spells 2 _ _ :=
    .binary .add "+" 11 (by decide) (numeral 6 "6" 9 (by decide)) product
  have difference : Spells 2 _ _ :=
    .binary .sub "-" 37 (by decide) sum (numeral 9 "9" 39 (by decide))
  have shift : Spells 1 _ _ :=
    .binary .shiftLeft "<<" 6 (by decide) (numeral 7 "7" 4 (by decide)) difference
  have whole : Spells 0 _ _ :=
    .binary .tilde "~" 2 (by decide) (numeral 8 "8" 0 (by decide)) shift
  exact ofLexemes_of_spells whole "" 40

end Calculator.Infix
