import Calculator.Error.Basic
import Calculator.Expr.Basic
import Calculator.Token.Basic

/-!
# The operator yard

Lexemes in the usual order become nodes in postorder. Numbers leave at once. Operators, names
and open parentheses wait on a stack, and an operator leaves when one that does not bind tighter
arrives, when its parenthesis closes, or at the end.

A second stack counts the commas of calls: a name directly followed by `(` opens a counter, a
comma within a parenthesis advances the innermost counter, and the `)` above a name closes it. A
call has one argument more than commas, and none when its `)` directly follows a `(`. A name that
is not followed by `(` waits as well and leaves as a call without arguments. Brackets and the end
of the text change nothing.
-/

set_option autoImplicit false

namespace Calculator

/-- What waits on the stack of the yard. -/
inductive Waiting where
  | operator (op : BinaryOperator) (offset : Nat)
  | name (text : String) (offset : Nat)
  | paren (offset : Nat)
deriving DecidableEq, Repr

namespace Waiting

/-- Whether an open parenthesis waits here. -/
def isParen : Waiting → Bool
  | paren _ => true
  | _ => false

/-- Whether an operator waits here that binds at least as tightly as a precedence. -/
def bindsAtLeast (precedence : Nat) : Waiting → Bool
  | operator op _ => precedence ≤ op.precedence
  | _ => false

/-- The node that leaves the stack; a parenthesis leaves none, and a name becomes a call of the
given arity. -/
def node? (arity : Nat) : Waiting → Option Node
  | operator op offset => some (.operator op offset)
  | name text offset => some (.call text arity offset)
  | paren _ => none

end Waiting

/-- The state of the yard: the nodes that have left, what waits, the top of the stack first, and
the comma counters of the open calls, the innermost first. -/
structure Yard where
  output : Array Node
  stack : List Waiting
  counters : List Nat
deriving DecidableEq, Repr

namespace Yard

/-- The empty yard. -/
def empty : Yard := ⟨#[], [], []⟩

/-- The nodes of popped entries, in the order in which they are popped. -/
def released (entries : List Waiting) : List Node := entries.filterMap (Waiting.node? 0)

/-- Lets `entries` leave, so that `rest` remains on the stack. -/
def release (yard : Yard) (entries rest : List Waiting) : Yard :=
  { yard with output := yard.output ++ released entries, stack := rest }

/-- Counts one more comma in the innermost open call, if there is one. -/
def advance : List Nat → List Nat
  | count :: rest => (count + 1) :: rest
  | [] => []

/-- A comma: what waits above the innermost parenthesis leaves. -/
def comma (yard : Yard) (offset : Nat) : Except ParseError Yard :=
  let (above, rest) := yard.stack.span (!·.isParen)
  if rest.isEmpty then .error (.misplacedComma offset)
  else .ok { yard.release above rest with counters := advance yard.counters }

/-- A name below a parenthesis that has just closed leaves as a call; `empty` says that nothing
stood between the parentheses. -/
def closeCall (yard : Yard) (empty : Bool) : Yard :=
  match yard.stack with
  | .name text offset :: rest =>
    let counted := match yard.counters with
      | commas :: _ => commas + 1
      | [] => 1
    let arity := if empty then 0 else counted
    ⟨yard.output.push (.call text arity offset), rest, yard.counters.tail⟩
  | _ => yard

/-- A closing parenthesis: what waits above the innermost open one leaves, then that parenthesis
goes, and with it the name that it belongs to. -/
def close (yard : Yard) (empty : Bool) (offset : Nat) : Except ParseError Yard :=
  let (above, rest) := yard.stack.span (!·.isParen)
  match rest with
  | _ :: below => .ok ((yard.release above below).closeCall empty)
  | [] => .error (.mismatchedParentheses offset)

/-- An operator: what binds at least as tightly leaves, and the operator waits. -/
def operator (yard : Yard) (op : BinaryOperator) (offset : Nat) : Yard :=
  let (above, rest) := yard.stack.span (Waiting.bindsAtLeast op.precedence)
  yard.release above (.operator op offset :: rest)

/-- One lexeme, between the tokens before and after it. -/
def step (yard : Yard) (before? after? : Option Token) (lexeme : Lexeme) :
    Except ParseError Yard :=
  match lexeme.token with
  | .number value => .ok { yard with output := yard.output.push (.number value lexeme.offset) }
  | .name text => .ok
      { yard with
        stack := .name text lexeme.offset :: yard.stack
        counters := if after? = some .leftParen then 0 :: yard.counters else yard.counters }
  | .operator op => .ok (yard.operator op lexeme.offset)
  | .leftParen => .ok { yard with stack := .paren lexeme.offset :: yard.stack }
  | .rightParen => yard.close (before? = some .leftParen) lexeme.offset
  | .comma => yard.comma lexeme.offset
  | .leftBracket | .rightBracket | .endOfText => .ok yard

/-- The lexemes of a text after the token `before?`, one after the other. -/
def run (yard : Yard) (before? : Option Token) : List Lexeme → Except ParseError Yard
  | [] => .ok yard
  | lexeme :: rest => do
    let next ← yard.step before? (rest.head?.map Lexeme.token) lexeme
    next.run (some lexeme.token) rest

/-- The end: all that waits leaves, unless a parenthesis is still open; the error points at the
innermost one. -/
def finish (yard : Yard) : Except ParseError (List Node) :=
  match yard.stack.find? Waiting.isParen with
  | some (.paren offset) => .error (.mismatchedParentheses offset)
  | _ => .ok (yard.output ++ released yard.stack).toList

/-- The nodes in postorder of the expression that lexemes spell. -/
def postorder (lexemes : List Lexeme) : Except ParseError (List Node) := do
  (← run empty none lexemes).finish

end Yard

end Calculator
