import Calculator.Proofs.Numeral.Shortest
import Calculator.Proofs.Token.Pieces
import Calculator.Expr.Build

/-!
# The lexemes of a rendered expression

`Printed e lexemes` says which lexemes the spelling of an expression consists
of. It follows the expression: an operation stands in parentheses, and a call is
its name with the arguments between commas. A number is one lexeme unless its
sign bit is set; then the minus before it is an operator of its own.

If every number is finite and every name is one (`Node.isPrintable`,
`Node.isPrintable_call_iff`), the spelling is cut into such lexemes
(`cuts_render`), before anything that does not continue a literal.
-/

set_option autoImplicit false

namespace Calculator

open Binary64 (ofPattern pattern)

/-- Whether a node is spelled as what it is: a finite number, an operator, or a call of a name. -/
def Node.isPrintable : Node → Bool
  | number value _ => Binary64.isFinite value
  | operator _ _ => true
  | call name _ _ => Scan.isName name

/-- The name of a call begins with an ASCII letter or an underscore, and goes on with these and
decimal digits. -/
theorem Node.isPrintable_call_iff (name : String) (arity offset : Nat) :
    (call name arity offset).isPrintable = true ↔ ∃ first rest, name.toList = first :: rest ∧
      ('a' ≤ first ∧ first ≤ 'z' ∨ 'A' ≤ first ∧ first ≤ 'Z' ∨ first = '_') ∧
      ∀ c ∈ rest, ('a' ≤ c ∧ c ≤ 'z' ∨ 'A' ≤ c ∧ c ≤ 'Z' ∨ c = '_') ∨ '0' ≤ c ∧ c ≤ '9' := by
  simp only [isPrintable, Scan.isName_iff, Scan.isNameChar_iff, Scan.isNameStart_iff]

/-- Whether a node is a number with its sign bit set. -/
def Node.isNegative : Node → Bool
  | number value _ => Binary64.isNegative value
  | _ => false

namespace Expr

open Lexeme (Cuts One Joined)

/-! ## What is printed -/

mutual
/-- The lexemes that the spelling of an expression consists of. -/
inductive Printed : Expr → List Lexeme → Prop where
  | number {value : Float} (offset : Nat) (text : String) (start : Nat) :
      Binary64.isNegative value = false →
        Printed (.number value offset) [⟨.number value, text, start⟩]
  | negative {value : Float} (offset : Nat) (minus text : String) (start next : Nat) :
      Binary64.isNegative value = true →
        Printed (.number value offset)
          [⟨.operator .sub, minus, start⟩, ⟨.number (ofPattern false (pattern value)), text, next⟩]
  | binary {left right : Expr} {ls rs : List Lexeme} (op : BinaryOperator) (offset : Nat)
      (opening text closing : String) (start middle stop : Nat) :
      Printed left ls → Printed right rs →
        Printed (.binary op left right offset)
          (⟨.leftParen, opening, start⟩ ::
            (ls ++ ⟨.operator op, text, middle⟩ :: (rs ++ [⟨.rightParen, closing, stop⟩])))
  | emptyCall (name : String) (offset : Nat) (text opening closing : String)
      (start middle stop : Nat) :
      Printed (.call name [] offset)
        [⟨.name name, text, start⟩, ⟨.leftParen, opening, middle⟩, ⟨.rightParen, closing, stop⟩]
  | call {arguments : List Expr} {inner : List Lexeme} (name : String) (offset : Nat)
      (text opening closing : String) (start middle stop : Nat) :
      PrintedSome arguments inner →
        Printed (.call name arguments offset)
          (⟨.name name, text, start⟩ :: ⟨.leftParen, opening, middle⟩ ::
            (inner ++ [⟨.rightParen, closing, stop⟩]))

/-- The lexemes that the spelling of one or more arguments consists of. -/
inductive PrintedSome : List Expr → List Lexeme → Prop where
  | one {e : Expr} {lexemes : List Lexeme} : Printed e lexemes → PrintedSome [e] lexemes
  | more {e : Expr} {es : List Expr} {ls rs : List Lexeme} (text : String) (middle : Nat) :
      Printed e ls → PrintedSome es rs →
        PrintedSome (e :: es) (ls ++ ⟨.comma, text, middle⟩ :: rs)
end

/-! ## The spelling is cut into them -/

/-- What may follow the spelling of an expression. -/
def Closed (rest : List Char) : Prop := ∀ c ∈ rest.head?, Literal.isLiteralChar c = false

theorem closed_nil : Closed [] := fun _ member => by cases member

theorem closed_cons {c : Char} (closes : Literal.isLiteralChar c = false) (rest : List Char) :
    Closed (c :: rest) := by
  intro first isFirst
  obtain rfl : c = first := Option.some_inj.1 isFirst
  exact closes

theorem cuts_number {value : Float} (finite : Binary64.isFinite value = true) (offset : Nat)
    {rest : List Char} (closed : Closed rest) :
    Cuts (render (.number value offset)) rest (Printed (.number value offset)) := by
  have below : pattern value < Binary64.infinityPattern := by
    simpa [Binary64.isFinite] using finite
  have magnitude : Cuts (Numeral.magnitudeText (pattern value)) rest
      (One (.number (ofPattern false (pattern value)))) :=
    Lexeme.cuts_literal (Numeral.positional_magnitudeText _) (Numeral.value?_magnitudeText below)
      closed
  rw [render, Numeral.shortestText_of_isFinite finite]
  cases sign : Binary64.isNegative value with
  | false =>
      have same : ofPattern false (pattern value) = value := by
        rw [← sign, Binary64.ofPattern_pattern]
      refine magnitude.mono ?_
      rintro lexemes ⟨text, start, rfl⟩
      rw [same]
      exact .number offset text start sign
  | true =>
      have minus : Cuts ['-'] (Numeral.magnitudeText (pattern value) ++ rest)
          (One (.operator .sub)) := Lexeme.cuts_operator .sub _
      refine (minus.append magnitude).mono ?_
      rintro lexemes ⟨_, _, ⟨text, start, rfl⟩, ⟨digits, next, rfl⟩, rfl⟩
      exact .negative offset text digits start next sign

mutual
/-- The spelling of an expression is cut into its lexemes. -/
theorem cuts_render (e : Expr) (printable : ∀ node ∈ e.postorder, node.isPrintable = true)
    {rest : List Char} (closed : Closed rest) : Cuts e.render rest (Printed e) := by
  cases e with
  | number value offset =>
      exact cuts_number (printable (.number value offset) (by simp [postorder])) offset closed
  | binary op left right offset =>
      have leftPrintable : ∀ node ∈ left.postorder, node.isPrintable = true := fun node member =>
        printable node (by simp [postorder, member])
      have rightPrintable : ∀ node ∈ right.postorder, node.isPrintable = true := fun node member =>
        printable node (by simp [postorder, member])
      have spelled : render (.binary op left right offset) =
          ['('] ++ (left.render ++ ([' '] ++ (op.symbol.toList ++ ([' '] ++
            (right.render ++ [')']))))) := by
        simp [render]
      have rightCut := (cuts_render right rightPrintable (closed_cons rfl _)).append
        (Lexeme.cuts_rightParen rest)
      have operatorCut := (Lexeme.cuts_blank _).append ((Lexeme.cuts_operator op _).append
        ((Lexeme.cuts_blank _).append rightCut))
      have leftCut := (Lexeme.cuts_leftParen _).append
        ((cuts_render left leftPrintable (closed_cons rfl _)).append operatorCut)
      rw [spelled]
      refine leftCut.mono ?_
      rintro lexemes ⟨_, _, ⟨opening, start, rfl⟩, ⟨ls, _, leftPrinted, ⟨_, _, rfl, ⟨_, _,
        ⟨text, middle, rfl⟩, ⟨_, _, rfl, ⟨rs, _, rightPrinted, ⟨closing, stop, rfl⟩, rfl⟩, rfl⟩,
        rfl⟩, rfl⟩, rfl⟩, rfl⟩
      simpa using Printed.binary op offset opening text closing start middle stop leftPrinted
        rightPrinted
  | call name arguments offset =>
      have isName : Scan.isName name = true :=
        printable (.call name arguments.length offset) (by simp [postorder])
      have inside : ∀ node ∈ postorderAll arguments, node.isPrintable = true := fun node member =>
        printable node (by simp [postorder, member])
      have before : ∀ more, Cuts name.toList ('(' :: more) (One (.name name)) := fun more =>
        Lexeme.cuts_name isName fun c isFirst => by
          obtain rfl : '(' = c := Option.some_inj.1 isFirst
          rfl
      cases arguments with
      | nil =>
          have spelled : render (.call name [] offset) = name.toList ++ (['('] ++ [')']) := by
            simp [render, renderArguments]
          rw [spelled]
          refine ((before _).append ((Lexeme.cuts_leftParen _).append
            (Lexeme.cuts_rightParen rest))).mono ?_
          rintro lexemes ⟨_, _, ⟨text, start, rfl⟩, ⟨_, _, ⟨opening, middle, rfl⟩,
            ⟨closing, stop, rfl⟩, rfl⟩, rfl⟩
          exact .emptyCall name offset text opening closing start middle stop
      | cons argument others =>
          have spelled : render (.call name (argument :: others) offset) =
              name.toList ++ (['('] ++ (renderArguments (argument :: others) ++ [')'])) := by
            simp [render]
          rw [spelled]
          refine ((before _).append ((Lexeme.cuts_leftParen _).append
            ((cuts_renderArguments (argument :: others) (by simp) inside (closed_cons rfl _)).append
              (Lexeme.cuts_rightParen rest)))).mono ?_
          rintro lexemes ⟨_, _, ⟨text, start, rfl⟩, ⟨_, _, ⟨opening, middle, rfl⟩,
            ⟨inner, _, innerPrinted, ⟨closing, stop, rfl⟩, rfl⟩, rfl⟩, rfl⟩
          exact .call name offset text opening closing start middle stop innerPrinted

theorem cuts_renderArguments (es : List Expr) (nonempty : es ≠ [])
    (printable : ∀ node ∈ postorderAll es, node.isPrintable = true) {rest : List Char}
    (closed : Closed rest) : Cuts (renderArguments es) rest (PrintedSome es) := by
  cases es with
  | nil => exact absurd rfl nonempty
  | cons e others =>
      have first : ∀ node ∈ e.postorder, node.isPrintable = true := fun node member =>
        printable node (by simp [postorderAll, member])
      have later : ∀ node ∈ postorderAll others, node.isPrintable = true := fun node member =>
        printable node (by simp [postorderAll, member])
      by_cases last : others = []
      · subst last
        rw [renderArguments]
        exact (cuts_render e first closed).mono fun lexemes printed => .one printed
      · have spelled : renderArguments (e :: others) =
            e.render ++ ([','] ++ ([' '] ++ renderArguments others)) := by
          rw [renderArguments]
          · simp
          · exact last
        rw [spelled]
        refine ((cuts_render e first (closed_cons rfl _)).append ((Lexeme.cuts_comma _).append
          ((Lexeme.cuts_blank _).append (cuts_renderArguments others last later closed)))).mono ?_
        rintro lexemes ⟨ls, _, printed, ⟨_, _, ⟨text, middle, rfl⟩, ⟨_, rs, rfl, others, rfl⟩, rfl⟩,
          rfl⟩
        exact .more text middle printed others
end

/-- The text of an expression is cut into its lexemes and the end of the text. -/
theorem exists_lexemes (e : Expr) (printable : ∀ node ∈ e.postorder, node.isPrintable = true) :
    ∃ lexemes offset, Printed e lexemes ∧
      Lexeme.ofText e.text = .ok (lexemes ++ [⟨.endOfText, "", offset⟩]) :=
  (cuts_render e printable closed_nil).ofText

end Expr

end Calculator
