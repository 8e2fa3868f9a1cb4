import Calculator.Proofs.Expr.Printing
import Calculator.Proofs.Infix.Derivation
import Calculator.Proofs.Infix.Phrase

/-!
# Reading what was rendered

The text of an expression is read again exactly when none of its numbers has its
sign bit set, and then as the same expression apart from offsets
(`reads_text_iff`).

**Without negative numbers.** The lexemes of the spelling derive the expression
in the infix grammar, with the offsets of the new text (`Printed.spells`), and
what is derived is read.

**With negative numbers.** The minus before a number is read as an operator that
misses its left operand. The spelling is a phrase that misses one operand for
each negative number (`Printed.phrase`), wherever they stand, and a phrase that
misses operands is not read.
-/

set_option autoImplicit false

namespace Calculator.Expr

open Infix (Phrase Part Parts Spells SpellsSome)
open Yard (cues)

/-! ## Offsets aside -/

mutual
/-- An expression with all its offsets forgotten. -/
def unplaced : Expr → Expr
  | number value _ => .number value 0
  | binary op left right _ => .binary op left.unplaced right.unplaced 0
  | call name arguments _ => .call name (unplacedAll arguments) 0

/-- Expressions with all their offsets forgotten. -/
def unplacedAll : List Expr → List Expr
  | [] => []
  | e :: others => e.unplaced :: unplacedAll others
end

/-! ## Without negative numbers -/

mutual
/-- What is printed without negative numbers derives the expression at new offsets. -/
theorem Printed.spells {e : Expr} {lexemes : List Lexeme} (printed : Printed e lexemes)
    (unsigned : ∀ node ∈ e.postorder, node.isNegative = false) :
    ∃ same, same.unplaced = e.unplaced ∧ Spells 7 lexemes same := by
  match printed with
  | .number offset text start sign =>
      rename_i value
      exact ⟨.number value start, rfl, .number value text start⟩
  | .negative offset minus text start next sign =>
      have positive := unsigned _ (List.mem_singleton.2 rfl)
      rw [Node.isNegative, sign] at positive
      cases positive
  | .binary op offset opening text closing start middle stop left right =>
      obtain ⟨sameLeft, leftShape, leftSpells⟩ := left.spells fun node member =>
        unsigned node (by simp [postorder, member])
      obtain ⟨sameRight, rightShape, rightSpells⟩ := right.spells fun node member =>
        unsigned node (by simp [postorder, member])
      have tight := op.precedence_le
      have operation := Spells.binary op text middle (Infix.mem_operators.2 rfl)
        (leftSpells.looser (by omega)) (rightSpells.looser (by omega))
      refine ⟨.binary op sameLeft sameRight middle, ?_, ?_⟩
      · rw [unplaced, unplaced, leftShape, rightShape]
      · simpa using Spells.group opening closing start stop (operation.looser (Nat.zero_le _))
  | .emptyCall name offset text opening closing start middle stop =>
      exact ⟨.call name [] start, rfl, .call name text opening closing start middle stop .none⟩
  | .call name offset text opening closing start middle stop inside =>
      obtain ⟨same, shape, spells⟩ := inside.spells fun node member =>
        unsigned node (by simp [postorder, member])
      refine ⟨.call name same start, ?_, ?_⟩
      · rw [unplaced, unplaced, shape]
      · exact .call name text opening closing start middle stop (.some spells)

theorem PrintedSome.spells {es : List Expr} {lexemes : List Lexeme}
    (printed : PrintedSome es lexemes)
    (unsigned : ∀ node ∈ postorderAll es, node.isNegative = false) :
    ∃ same, unplacedAll same = unplacedAll es ∧ SpellsSome lexemes same := by
  match printed with
  | .one only =>
      obtain ⟨same, shape, spells⟩ := only.spells fun node member =>
        unsigned node (by simp [postorderAll, member])
      refine ⟨[same], ?_, .one (spells.looser (Nat.zero_le 7))⟩
      simp only [unplacedAll, shape]
  | .more text middle first others =>
      obtain ⟨same, shape, spells⟩ := first.spells fun node member =>
        unsigned node (by simp [postorderAll, member])
      obtain ⟨later, laterShape, laterSpells⟩ := others.spells fun node member =>
        unsigned node (by simp [postorderAll, member])
      refine ⟨same :: later, ?_, .more text middle (spells.looser (Nat.zero_le 7)) laterSpells⟩
      rw [unplacedAll, unplacedAll, shape, laterShape]
end

/-! ## With negative numbers -/

/-- How many numbers of an expression have their sign bit set. -/
def negatives (e : Expr) : Nat := e.postorder.countP Node.isNegative

/-- How many numbers of several expressions have their sign bit set. -/
def negativesAll (es : List Expr) : Nat := (postorderAll es).countP Node.isNegative

theorem negatives_binary (op : BinaryOperator) (left right : Expr) (offset : Nat) :
    negatives (.binary op left right offset) = negatives left + negatives right := by
  simp [negatives, postorder, Node.isNegative]

theorem negatives_call (name : String) (arguments : List Expr) (offset : Nat) :
    negatives (.call name arguments offset) = negativesAll arguments := by
  simp [negatives, negativesAll, postorder, Node.isNegative]

theorem negativesAll_cons (e : Expr) (others : List Expr) :
    negativesAll (e :: others) = negatives e + negativesAll others := by
  simp [negatives, negativesAll, postorderAll]

theorem cues_rightParen {before : Token} (closed : before ≠ .leftParen) (text : String)
    (offset : Nat) (rest : List Lexeme) :
    cues (some before) (⟨.rightParen, text, offset⟩ :: rest) =
      ⟨⟨.rightParen, text, offset⟩, false⟩ :: cues (some .rightParen) rest := by
  rw [Yard.cues_cons rfl]
  simp [Yard.besideOf, closed]

mutual
/-- What is printed misses as many operands as it has negative numbers. -/
theorem Printed.phrase {e : Expr} {lexemes : List Lexeme} (printed : Printed e lexemes)
    (before? : Option Token) (rest : List Lexeme) :
    ∃ inner last, Phrase e.negatives inner ∧ last ≠ Token.leftParen ∧
      cues before? (lexemes ++ rest) = inner ++ cues (some last) rest := by
  match printed with
  | .number offset text start sign =>
      rename_i value
      have positive : negatives (.number value offset) = 0 := by
        simp [negatives, postorder, Node.isNegative, sign]
      rw [positive]
      exact ⟨_, _, .operand (.number value text start false), by simp, rfl⟩
  | .negative offset minus text start next sign =>
      rename_i value
      have single : negatives (.number value offset) = 1 + 0 := by
        simp [negatives, postorder, Node.isNegative, sign]
      rw [single]
      exact ⟨_, _, .binary .sub minus start false (.operand .missing) (.number _ text next false),
        by simp, rfl⟩
  | .binary op offset opening text closing start middle stop left right =>
      rename_i _ _ ls rs
      obtain ⟨leftCues, leftLast, leftPhrase, -, leftCut⟩ := left.phrase (some .leftParen)
        (⟨.operator op, text, middle⟩ :: (rs ++ ⟨.rightParen, closing, stop⟩ :: rest))
      obtain ⟨rightCues, rightLast, rightPhrase, closed, rightCut⟩ :=
        right.phrase (some (.operator op)) (⟨.rightParen, closing, stop⟩ :: rest)
      have inside := leftPhrase.joined op text middle false rightPhrase
      rw [negatives_binary]
      refine ⟨_, .rightParen, .operand (.group opening closing start stop false false inside),
        by simp, ?_⟩
      calc cues before? (⟨.leftParen, opening, start⟩ :: (ls ++ ⟨.operator op, text, middle⟩ ::
              (rs ++ [⟨.rightParen, closing, stop⟩])) ++ rest)
          = ⟨⟨.leftParen, opening, start⟩, false⟩ :: cues (some .leftParen)
              (ls ++ ⟨.operator op, text, middle⟩ ::
                (rs ++ ⟨.rightParen, closing, stop⟩ :: rest)) := by
            rw [List.cons_append, List.append_assoc, List.cons_append, List.append_assoc,
              List.singleton_append, Yard.cues_cons rfl]
            rfl
        _ = ⟨⟨.leftParen, opening, start⟩, false⟩ :: (leftCues ++
              ⟨⟨.operator op, text, middle⟩, false⟩ :: cues (some (.operator op))
                (rs ++ ⟨.rightParen, closing, stop⟩ :: rest)) := by
            rw [leftCut, Yard.cues_cons rfl]
            rfl
        _ = ⟨⟨.leftParen, opening, start⟩, false⟩ :: (leftCues ++
              ⟨⟨.operator op, text, middle⟩, false⟩ :: (rightCues ++
                ⟨⟨.rightParen, closing, stop⟩, false⟩ :: cues (some .rightParen) rest)) := by
            rw [rightCut, cues_rightParen closed]
        _ = _ := by simp
  | .emptyCall name offset text opening closing start middle stop =>
      exact ⟨_, _, .operand (.emptyCall name text opening closing start middle stop false), by simp,
        rfl⟩
  | .call name offset text opening closing start middle stop inside =>
      rename_i _ within
      obtain ⟨inner, last, parts, closed, cut⟩ :=
        inside.parts (some .leftParen) (⟨.rightParen, closing, stop⟩ :: rest)
      rw [negatives_call]
      refine ⟨_, .rightParen, .operand (.call name text opening closing start middle stop false
        parts), by simp, ?_⟩
      calc cues before? (⟨.name name, text, start⟩ :: ⟨.leftParen, opening, middle⟩ ::
              (within ++ [⟨.rightParen, closing, stop⟩]) ++ rest)
          = ⟨⟨.name name, text, start⟩, true⟩ :: ⟨⟨.leftParen, opening, middle⟩, false⟩ ::
              cues (some .leftParen) (within ++ ⟨.rightParen, closing, stop⟩ :: rest) := by
            rw [List.cons_append, List.cons_append, List.append_assoc, List.singleton_append,
              Yard.cues_cons rfl, Yard.cues_cons rfl]
            rfl
        _ = ⟨⟨.name name, text, start⟩, true⟩ :: ⟨⟨.leftParen, opening, middle⟩, false⟩ ::
              (inner ++ ⟨⟨.rightParen, closing, stop⟩, false⟩ :: cues (some .rightParen) rest) := by
            rw [cut, cues_rightParen closed]
        _ = _ := by simp

theorem PrintedSome.parts {es : List Expr} {lexemes : List Lexeme}
    (printed : PrintedSome es lexemes) (before? : Option Token) (rest : List Lexeme) :
    ∃ inner last, Parts (negativesAll es) inner ∧ last ≠ Token.leftParen ∧
      cues before? (lexemes ++ rest) = inner ++ cues (some last) rest := by
  match printed with
  | .one only =>
      rename_i e
      obtain ⟨inner, last, phrase, closed, cut⟩ := only.phrase before? rest
      refine ⟨inner, last, ?_, closed, cut⟩
      rw [negativesAll_cons]
      exact .one phrase
  | .more text middle first others =>
      rename_i e es ls rs
      obtain ⟨firstCues, firstLast, phrase, -, firstCut⟩ :=
        first.phrase before? (⟨.comma, text, middle⟩ :: (rs ++ rest))
      obtain ⟨inner, last, parts, closed, cut⟩ := others.parts (some .comma) rest
      refine ⟨firstCues ++ ⟨⟨.comma, text, middle⟩, false⟩ :: inner, last, ?_, closed, ?_⟩
      · rw [negativesAll_cons]
        exact Parts.joined phrase text middle false parts
      · rw [List.append_assoc, List.cons_append, firstCut, Yard.cues_cons rfl, cut,
          List.append_assoc]
        rfl
end

/-! ## Both -/

/-- The text of an expression with finite numbers and proper names is read again exactly when no
number has its sign bit set, and whatever is read is the expression apart from offsets. -/
theorem reads_text_iff (e : Expr) (printable : ∀ node ∈ e.postorder, node.isPrintable = true) :
    ((∃ parsed, ofText e.text = .ok parsed) ↔ ∀ node ∈ e.postorder, node.isNegative = false) ∧
      ∀ parsed, ofText e.text = .ok parsed → parsed.unplaced = e.unplaced := by
  obtain ⟨lexemes, stop, printed, cut⟩ := exists_lexemes e printable
  have whole : ofText e.text = ofLexemes (lexemes ++ [⟨.endOfText, "", stop⟩]) := by
    rw [ofText, cut]
    rfl
  have positive : ∀ parsed, ofText e.text = .ok parsed →
      ∀ node ∈ e.postorder, node.isNegative = false := by
    intro parsed accepted
    obtain ⟨inner, last, phrase, -, split⟩ :=
      printed.phrase none [⟨.endOfText, "", stop⟩]
    have ended : cues none (lexemes ++ [⟨.endOfText, "", stop⟩]) = inner := by
      rw [split, Yard.cues_cons_of_silent rfl]
      simp [cues]
    rw [← ended] at phrase
    have complete := Infix.missing_eq_zero phrase (whole.symm.trans accepted)
    simpa [negatives, List.countP_eq_zero] using complete
  have reads : (∀ node ∈ e.postorder, node.isNegative = false) →
      ∃ same, ofText e.text = .ok same ∧ same.unplaced = e.unplaced := by
    intro unsigned
    obtain ⟨same, shape, spells⟩ := printed.spells unsigned
    refine ⟨same, ?_, shape⟩
    rw [whole, ofLexemes, Infix.postorder_of_spells (spells.looser (Nat.zero_le 7))]
    exact ofPostorder_postorder same
  refine ⟨⟨?_, fun unsigned => ?_⟩, ?_⟩
  · rintro ⟨parsed, accepted⟩
    exact positive parsed accepted
  · obtain ⟨same, accepted, -⟩ := reads unsigned
    exact ⟨same, accepted⟩
  · intro parsed accepted
    obtain ⟨same, again, shape⟩ := reads (positive parsed accepted)
    obtain rfl : same = parsed := Except.ok.inj (again.symm.trans accepted)
    exact shape

/-- `f(2, 1)` is read again. `f(2, -1)` is not, although its minus finds two numbers before it. -/
theorem reads_text_iff_call :
    (∃ parsed, ofText (text (.call "f" [.number 2 0, .number 1 0] 0)) = .ok parsed) ∧
      ¬ ∃ parsed, ofText (text (.call "f" [.number 2 0, .number (-1) 0] 0)) = .ok parsed := by
  constructor
  · exact (reads_text_iff _ (by decide +kernel)).1.2 (by decide +kernel)
  · intro read
    have unsigned := (reads_text_iff _ (by decide +kernel)).1.1 read
    have sign := unsigned (.number (-1) 0) (by simp [postorder, postorderAll])
    have negative : Node.isNegative (.number (-1) 0) = true := by decide +kernel
    rw [negative] at sign
    cases sign

end Calculator.Expr
