import Calculator.Proofs.Yard.Cues
import Mathlib.Data.List.Chain

/-!
# Sentences of the infix grammar

`Sentence` is the infix grammar without precedence: operands with operators
between them, where an operand is a number, a name, a sentence in parentheses,
or a call with zero or more sentences as arguments. It speaks of the tokens of a
text without its brackets and its end, `spoken`.

A sentence has two properties that can be checked along the text. No two
operands stand side by side (`Apart`), and every comma stands directly between
the parentheses of a call (`CommasInCalls`).
-/

set_option autoImplicit false

namespace Calculator

namespace Token

/-- Whether a token is a name. -/
def isName : Token → Bool
  | name _ => true
  | _ => false

/-- Whether an operand can begin with a token. -/
def beginsOperand : Token → Bool
  | number _ | name _ | leftParen => true
  | _ => false

/-- Whether an operand can end with a token. -/
def endsOperand : Token → Bool
  | number _ | name _ | rightParen => true
  | _ => false

/-- Two neighbours of which one ends an operand and the other begins one. A name and its `(` begin
the same operand. -/
def Juxtaposed (first second : Token) : Prop :=
  first.endsOperand = true ∧ second.beginsOperand = true ∧
    ¬ (first.isName = true ∧ second = .leftParen)

end Token

namespace Infix

/-- The tokens of lexemes, without brackets and the end of the text. -/
def spoken (lexemes : List Lexeme) : List Token :=
  (lexemes.map Lexeme.token).filter (!·.isSilent)

/-! ## The grammar -/

mutual
/-- Operands with operators between them. -/
inductive Sentence : List Token → Prop where
  | operand {tokens : List Token} : Operand tokens → Sentence tokens
  | binary {ls rs : List Token} (op : BinaryOperator) :
      Sentence ls → Operand rs → Sentence (ls ++ .operator op :: rs)

/-- What may stand on either side of an operator. -/
inductive Operand : List Token → Prop where
  | number (value : Float) : Operand [.number value]
  | name (name : String) : Operand [.name name]
  | group {inner : List Token} :
      Sentence inner → Operand (.leftParen :: (inner ++ [.rightParen]))
  | emptyCall (name : String) : Operand [.name name, .leftParen, .rightParen]
  | call {inner : List Token} (name : String) :
      Arguments inner → Operand (.name name :: .leftParen :: (inner ++ [.rightParen]))

/-- One or more sentences with commas between them. -/
inductive Arguments : List Token → Prop where
  | one {tokens : List Token} : Sentence tokens → Arguments tokens
  | more {ls rs : List Token} : Arguments ls → Sentence rs → Arguments (ls ++ .comma :: rs)
end

/-! ## Two conditions along the text -/

/-- No two operands stand side by side. -/
def Apart (tokens : List Token) : Prop :=
  tokens.IsChain fun first second => ¬ first.Juxtaposed second

/-- Every comma stands directly between the parentheses of a call. Of each open parenthesis `calls`
knows whether it belongs to a call, the innermost first, and `last?` is the token before. -/
def CommasInCalls (calls : List Bool) (last? : Option Token) : List Token → Prop
  | [] => True
  | .leftParen :: rest => CommasInCalls (last?.any Token.isName :: calls) (some .leftParen) rest
  | .rightParen :: rest => CommasInCalls calls.tail (some .rightParen) rest
  | .comma :: rest => calls.head? = some true ∧ CommasInCalls calls (some .comma) rest
  | token :: rest => CommasInCalls calls (some token) rest

/-! ## Sentences meet both -/

/-- Tokens that begin and end as operands do, with no two operands side by side. -/
structure Bounded (tokens : List Token) : Prop where
  begins : ∃ first ∈ tokens.head?, first.beginsOperand = true
  ends : ∃ last ∈ tokens.getLast?, last.endsOperand = true
  apart : Apart tokens

theorem bounded_singleton {token : Token} (begins : token.beginsOperand = true)
    (ends : token.endsOperand = true) : Bounded [token] :=
  ⟨⟨token, rfl, begins⟩, ⟨token, rfl, ends⟩, List.isChain_singleton _⟩

/-- A separator between two bounded texts keeps their operands apart. -/
theorem Bounded.append {ls rs : List Token} (left : Bounded ls) (right : Bounded rs)
    {separator : Token} (noBegin : separator.beginsOperand = false)
    (noEnd : separator.endsOperand = false) : Bounded (ls ++ separator :: rs) := by
  obtain ⟨first, isFirst, begins⟩ := left.begins
  obtain ⟨last, isLast, ends⟩ := right.ends
  refine ⟨⟨first, ?_, begins⟩, ⟨last, ?_, ends⟩, ?_⟩
  · rw [Option.mem_def] at isFirst ⊢
    rw [List.head?_append, isFirst]
    rfl
  · rw [Option.mem_def] at isLast ⊢
    rw [List.getLast?_append_cons, List.getLast?_cons, isLast]
    rfl
  · refine List.isChain_append.2 ⟨left.apart, List.isChain_cons.2 ⟨?_, right.apart⟩, ?_⟩
    · exact fun next _ juxtaposed => by simp [juxtaposed.1] at noEnd
    · intro before _ after isAfter juxtaposed
      obtain rfl : separator = after := by simpa using isAfter
      simp [juxtaposed.2.1] at noBegin

/-- A bounded text in parentheses is bounded. -/
theorem Bounded.parens {inner : List Token} (bounded : Bounded inner) :
    Bounded (.leftParen :: (inner ++ [.rightParen])) := by
  refine ⟨⟨.leftParen, rfl, rfl⟩, ⟨.rightParen, ?_, rfl⟩, List.isChain_cons.2 ⟨?_, ?_⟩⟩
  · rw [← List.cons_append, Option.mem_def, List.getLast?_concat]
  · exact fun next _ juxtaposed => by simp [Token.Juxtaposed, Token.endsOperand] at juxtaposed
  · refine List.isChain_append.2 ⟨bounded.apart, List.isChain_singleton _, ?_⟩
    intro before _ after isAfter juxtaposed
    obtain rfl : Token.rightParen = after := by simpa using isAfter
    simp [Token.Juxtaposed, Token.beginsOperand] at juxtaposed

/-- A name before parentheses stays in the same operand. -/
theorem Bounded.named {rest : List Token} (bounded : Bounded (.leftParen :: rest)) (name : String) :
    Bounded (.name name :: .leftParen :: rest) := by
  obtain ⟨last, isLast, ends⟩ := bounded.ends
  refine ⟨⟨.name name, rfl, rfl⟩, ⟨last, by simpa using isLast, ends⟩,
    List.isChain_cons.2 ⟨?_, bounded.apart⟩⟩
  intro next isNext juxtaposed
  obtain rfl : Token.leftParen = next := by simpa using isNext
  exact juxtaposed.2.2 ⟨rfl, rfl⟩

mutual
theorem Sentence.bounded {tokens : List Token} (sentence : Sentence tokens) : Bounded tokens := by
  match sentence with
  | .operand operand => exact operand.bounded
  | .binary op left right => exact left.bounded.append right.bounded rfl rfl

theorem Operand.bounded {tokens : List Token} (operand : Operand tokens) : Bounded tokens := by
  match operand with
  | .number value => exact bounded_singleton rfl rfl
  | .name name => exact bounded_singleton rfl rfl
  | .group inside => exact inside.bounded.parens
  | .emptyCall name =>
      have parens : Bounded [.leftParen, .rightParen] :=
        ⟨⟨.leftParen, rfl, rfl⟩, ⟨.rightParen, rfl, rfl⟩, by
          simp [Apart, Token.Juxtaposed, Token.endsOperand]⟩
      exact parens.named name
  | .call name inside => exact inside.bounded.parens.named name

theorem Arguments.bounded {tokens : List Token} (arguments : Arguments tokens) :
    Bounded tokens := by
  match arguments with
  | .one sentence => exact sentence.bounded
  | .more first last => exact first.bounded.append last.bounded rfl rfl
end

mutual
/-- After a sentence the commas are judged as before it. -/
theorem Sentence.commasInCalls {tokens : List Token} (sentence : Sentence tokens)
    (calls : List Bool) (last? : Option Token) (fresh : last?.any Token.isName = false)
    (rest : List Token) (later : ∀ last?, CommasInCalls calls last? rest) :
    CommasInCalls calls last? (tokens ++ rest) := by
  match sentence with
  | .operand operand => exact operand.commasInCalls calls last? fresh rest later
  | .binary op left right =>
      rw [List.append_assoc]
      exact left.commasInCalls calls last? fresh _ fun _ =>
        right.commasInCalls calls (some (.operator op)) rfl rest later

theorem Operand.commasInCalls {tokens : List Token} (operand : Operand tokens)
    (calls : List Bool) (last? : Option Token) (fresh : last?.any Token.isName = false)
    (rest : List Token) (later : ∀ last?, CommasInCalls calls last? rest) :
    CommasInCalls calls last? (tokens ++ rest) := by
  match operand with
  | .number value => exact later _
  | .name name => exact later _
  | .group inside =>
      rw [List.cons_append, List.append_assoc, CommasInCalls, fresh]
      exact inside.commasInCalls (false :: calls) (some .leftParen) rfl _ fun _ => later _
  | .emptyCall name => exact later _
  | .call name inside =>
      rw [List.cons_append, List.cons_append, List.append_assoc]
      exact inside.commasInCalls calls (some .leftParen) rfl _ fun _ => later _

theorem Arguments.commasInCalls {tokens : List Token} (arguments : Arguments tokens)
    (calls : List Bool) (last? : Option Token) (fresh : last?.any Token.isName = false)
    (rest : List Token) (later : ∀ last?, CommasInCalls (true :: calls) last? rest) :
    CommasInCalls (true :: calls) last? (tokens ++ rest) := by
  match arguments with
  | .one sentence => exact sentence.commasInCalls (true :: calls) last? fresh rest later
  | .more first last =>
      rw [List.append_assoc]
      exact first.commasInCalls calls last? fresh _ fun _ =>
        ⟨rfl, last.commasInCalls (true :: calls) (some .comma) rfl rest later⟩
end

end Infix

end Calculator
