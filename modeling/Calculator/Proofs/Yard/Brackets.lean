import Calculator.Proofs.Yard.Cues

/-!
# Where brackets play no part

Brackets are passed over by the yard, but they separate their neighbours. Two
pairs of neighbours notice it (`Noticed`): a name and the `(` after it, and a
`(` and the `)` after it. A bracket in any other place changes nothing.

**Whole texts.** If no brackets stand between such a pair (`Unnoticed`), the
text without its brackets is read alike, as the same expression with the same
offsets or with the same error.

**Single gaps.** The condition is exact for the place where brackets stand:
brackets between two lexemes change nothing, whatever stands before and after,
exactly when the two are no such pair.

Both are stated in `ofLexemes_withoutBrackets`.
-/

set_option autoImplicit false

namespace Calculator

/-- Two neighbouring tokens that notice when brackets come between them. -/
def Token.Noticed (before after : Token) : Prop :=
  ((∃ name, before = .name name) ∧ after = .leftParen) ∨
    (before = .leftParen ∧ after = .rightParen)

namespace Yard

/-- The lexemes that are no brackets. -/
def withoutBrackets (lexemes : List Lexeme) : List Lexeme :=
  lexemes.filter (!·.token.isBracket)

/-- No brackets stand between a pair of lexemes that notice them. -/
def Unnoticed : List Lexeme → Prop
  | [] => True
  | lexeme :: rest =>
    ((∃ bracket ∈ rest.head?, bracket.token.isBracket = true) →
      ∀ next ∈ (withoutBrackets rest).head?, ¬ lexeme.token.Noticed next.token) ∧ Unnoticed rest

/-! ## Whole texts -/

theorem withoutBrackets_cons_of_bracket {lexeme : Lexeme} (bracket : lexeme.token.isBracket = true)
    (rest : List Lexeme) : withoutBrackets (lexeme :: rest) = withoutBrackets rest :=
  List.filter_cons_of_neg (by simp [bracket])

theorem withoutBrackets_cons {lexeme : Lexeme} (plain : lexeme.token.isBracket = false)
    (rest : List Lexeme) :
    withoutBrackets (lexeme :: rest) = lexeme :: withoutBrackets rest :=
  List.filter_cons_of_pos (by simp [plain])

theorem head?_withoutBrackets {lexemes : List Lexeme}
    (plain : ∀ lexeme ∈ lexemes.head?, lexeme.token.isBracket = false) :
    (withoutBrackets lexemes).head? = lexemes.head? := by
  cases lexemes with
  | nil => rfl
  | cons lexeme rest => rw [withoutBrackets_cons (plain lexeme rfl)]; rfl

/-- No `)` is the first lexeme other than a bracket after a `(`. -/
def Inhabited (last? : Option Token) (lexemes : List Lexeme) : Prop :=
  last? = some .leftParen → ∀ next ∈ (withoutBrackets lexemes).head?, next.token ≠ .rightParen

/-- Where brackets go unnoticed, the next token is `(` with or without them. -/
theorem next_leftParen_iff {lexeme : Lexeme} {rest : List Lexeme} {name : String}
    (isName : lexeme.token = .name name) (unnoticed : Unnoticed (lexeme :: rest)) :
    (withoutBrackets rest).head?.map Lexeme.token = some .leftParen ↔
      rest.head?.map Lexeme.token = some .leftParen := by
  by_cases bracket : ∃ bracket ∈ rest.head?, bracket.token.isBracket = true
  · have apart := unnoticed.1 bracket
    obtain ⟨first, top, isBracket⟩ := bracket
    constructor
    · intro next
      obtain ⟨next, isNext, token⟩ := Option.map_eq_some_iff.1 next
      exact absurd (.inl ⟨⟨name, isName⟩, token⟩) (apart next isNext)
    · intro next
      rw [Option.mem_def.1 top, Option.map_some, Option.some_inj] at next
      rw [next] at isBracket
      cases isBracket
  · rw [head?_withoutBrackets fun first top => by
      by_contra isBracket
      exact bracket ⟨first, top, Bool.of_not_eq_false isBracket⟩]

/-- Where brackets go unnoticed, the cues are those of the text without them. Of the two tokens
before, `last?` is the one with brackets left out. -/
theorem cues_withoutBrackets {lexemes : List Lexeme} (unnoticed : Unnoticed lexemes)
    {last? before? : Option Token}
    (place : last? = before? ∧
        ((∃ bracket ∈ lexemes.head?, bracket.token.isBracket = true) → Inhabited last? lexemes) ∨
      before? ≠ some .leftParen ∧ Inhabited last? lexemes) :
    cues last? (withoutBrackets lexemes) = cues before? lexemes := by
  induction lexemes generalizing last? before? with
  | nil => rfl
  | cons lexeme rest ih =>
      cases bracket : lexeme.token.isBracket with
      | true =>
          have inhabited : Inhabited last? rest := by
            have whole : Inhabited last? (lexeme :: rest) := by
              rcases place with ⟨-, inhabited⟩ | ⟨-, inhabited⟩
              · exact inhabited ⟨lexeme, rfl, bracket⟩
              · exact inhabited
            rwa [Inhabited, withoutBrackets_cons_of_bracket bracket] at whole
          have notOpen : some lexeme.token ≠ some .leftParen := by
            intro isOpen
            rw [Option.some_inj.1 isOpen] at bracket
            cases bracket
          rw [withoutBrackets_cons_of_bracket bracket,
            cues_cons_of_silent (Token.isSilent_of_isBracket bracket)]
          exact ih unnoticed.2 (.inr ⟨notOpen, inhabited⟩)
      | false =>
          have later : cues (some lexeme.token) (withoutBrackets rest) =
              cues (some lexeme.token) rest := by
            refine ih unnoticed.2 (.inl ⟨rfl, fun isBracket isOpen next isNext isClose => ?_⟩)
            exact unnoticed.1 isBracket next isNext (.inr ⟨Option.some_inj.1 isOpen, isClose⟩)
          rw [withoutBrackets_cons bracket]
          cases silent : lexeme.token.isSilent with
          | true => rw [cues_cons_of_silent silent, cues_cons_of_silent silent, later]
          | false =>
              have same : besideOf last? ((withoutBrackets rest).head?.map Lexeme.token)
                  lexeme.token = besideOf before? (rest.head?.map Lexeme.token) lexeme.token := by
                cases token : lexeme.token with
                | name name => simp only [besideOf, next_leftParen_iff token unnoticed]
                | rightParen =>
                    rcases place with ⟨rfl, -⟩ | ⟨notOpen, inhabited⟩
                    · rfl
                    · have closed : last? ≠ some .leftParen := fun isOpen =>
                        inhabited isOpen lexeme (by rw [withoutBrackets_cons bracket]; rfl) token
                      simp [besideOf, notOpen, closed]
                | _ => rfl
              rw [cues_cons silent, cues_cons silent, later, same]

/-! ## Single gaps -/

/-- The cues after brackets depend on the brackets only in that they are no `(`. -/
theorem cues_gap {gap : List Lexeme} (brackets : ∀ lexeme ∈ gap, lexeme.token.isBracket = true)
    (filled : gap ≠ []) (before? : Option Token) (rest : List Lexeme) :
    ∃ bracket, Token.isBracket bracket = true ∧
      cues before? (gap ++ rest) = cues (some bracket) rest := by
  induction gap generalizing before? with
  | nil => exact absurd rfl filled
  | cons lexeme gap ih =>
      have bracket := brackets lexeme (List.mem_cons_self ..)
      rw [List.cons_append, cues_cons_of_silent (Token.isSilent_of_isBracket bracket)]
      cases gap with
      | nil => exact ⟨lexeme.token, bracket, rfl⟩
      | cons next gap =>
          exact ih (fun lexeme member => brackets lexeme (List.mem_cons_of_mem _ member))
            (by simp) (some lexeme.token)

/-- The cues of a text change only from the place on where the text changes. -/
theorem cues_append_congr {lexeme : Lexeme} {first second : List Lexeme}
    (same : ∀ before?, cues before? (lexeme :: first) = cues before? (lexeme :: second))
    (before : List Lexeme) (before? : Option Token) :
    cues before? (before ++ lexeme :: first) = cues before? (before ++ lexeme :: second) := by
  induction before generalizing before? with
  | nil => exact same before?
  | cons start before ih =>
      have next : (before ++ lexeme :: first).head? = (before ++ lexeme :: second).head? := by
        cases before with
        | nil => rfl
        | cons => rfl
      simp only [List.cons_append, cues, ih, next]

/-- Only `)` asks about the token before it. -/
theorem cues_before_congr {lexeme : Lexeme} {first? second? : Option Token}
    (alike : lexeme.token = .rightParen → (first? = some .leftParen ↔ second? = some .leftParen))
    (rest : List Lexeme) : cues first? (lexeme :: rest) = cues second? (lexeme :: rest) := by
  have same : besideOf first? (rest.head?.map Lexeme.token) lexeme.token =
      besideOf second? (rest.head?.map Lexeme.token) lexeme.token := by
    cases token : lexeme.token with
    | rightParen => simp only [besideOf, alike token]
    | _ => rfl
  simp only [cues, same]

section Gap

variable {a b : Lexeme} {gap : List Lexeme}
variable (brackets : ∀ lexeme ∈ gap, lexeme.token.isBracket = true) (filled : gap ≠ [])
include brackets filled

/-- Brackets between two lexemes that do not notice them leave the cues as they are. -/
theorem cues_of_not_noticed (unnoticed : ¬ a.token.Noticed b.token) (after : List Lexeme)
    (before? : Option Token) :
    cues before? (a :: (gap ++ b :: after)) = cues before? (a :: b :: after) := by
  obtain ⟨bracket, isBracket, passed⟩ :=
    cues_gap brackets filled (some a.token) (b :: after)
  have later : cues (some a.token) (gap ++ b :: after) = cues (some a.token) (b :: after) := by
    refine passed.trans (cues_before_congr (fun isClose => ?_) after)
    constructor
    · intro isOpen
      rw [Option.some_inj.1 isOpen] at isBracket
      cases isBracket
    · exact fun isOpen => absurd (.inr ⟨Option.some_inj.1 isOpen, isClose⟩) unnoticed
  cases silent : a.token.isSilent with
  | true => rw [cues_cons_of_silent silent, cues_cons_of_silent silent, later]
  | false =>
      have same : besideOf before? ((gap ++ b :: after).head?.map Lexeme.token) a.token =
          besideOf before? ((b :: after).head?.map Lexeme.token) a.token := by
        cases token : a.token with
        | name name =>
            obtain ⟨first, others, rfl⟩ := List.exists_cons_of_ne_nil filled
            have closed : first.token ≠ .leftParen := fun isOpen => by
              have isBracket := brackets first (List.mem_cons_self ..)
              rw [isOpen] at isBracket
              cases isBracket
            have apart : b.token ≠ .leftParen := fun isOpen =>
              unnoticed (.inl ⟨⟨name, token⟩, isOpen⟩)
            simp [besideOf, closed, apart]
        | _ => rfl
      rw [cues_cons silent, cues_cons silent, later, same]

/-- Between a name and its `(`, brackets take the counter away: two arguments become one. -/
theorem noticed_by_name {name : String} (isName : a.token = .name name)
    (isOpen : b.token = .leftParen) :
    ∃ before after, Expr.ofLexemes (before ++ a :: (gap ++ b :: after)) ≠
      Expr.ofLexemes (before ++ a :: b :: after) := by
  obtain ⟨aToken, aText, offset⟩ := a
  obtain ⟨bToken, bText, start⟩ := b
  obtain rfl : aToken = .name name := isName
  obtain rfl : bToken = .leftParen := isOpen
  let after : List Lexeme :=
    [⟨.number 1, "1", 0⟩, ⟨.comma, ",", 0⟩, ⟨.number 2, "2", 0⟩, ⟨.rightParen, ")", 0⟩]
  refine ⟨[], after, ?_⟩
  obtain ⟨bracket, isBracket, passed⟩ :=
    cues_gap brackets filled (some (.name name)) (⟨.leftParen, bText, start⟩ :: after)
  obtain ⟨first, others, rfl⟩ := List.exists_cons_of_ne_nil filled
  have closed : first.token ≠ .leftParen := fun isOpen => by
    have isBracket := brackets first (List.mem_cons_self ..)
    rw [isOpen] at isBracket
    cases isBracket
  have apart : cues none (⟨.name name, aText, offset⟩ ::
      (first :: others ++ ⟨.leftParen, bText, start⟩ :: after)) =
        ⟨⟨.name name, aText, offset⟩, false⟩ ::
          cues (some bracket) (⟨.leftParen, bText, start⟩ :: after) := by
    rw [cues_cons rfl, passed]
    simp [besideOf, closed]
  have separate : Expr.ofLexemes (⟨.name name, aText, offset⟩ ::
      (first :: others ++ ⟨.leftParen, bText, start⟩ :: after)) =
        .error (.invalidExpression offset) := by
    rw [ofLexemes_eq_follow, apart]
    rfl
  have together : Expr.ofLexemes (⟨.name name, aText, offset⟩ ::
      ⟨.leftParen, bText, start⟩ :: after) =
        .ok (.call name [.number 1 0, .number 2 0] offset) := rfl
  rw [List.nil_append, List.nil_append, separate, together]
  simp

/-- Between the parentheses of an empty call, brackets stand for an argument that is missing. -/
theorem noticed_by_parens (isOpen : a.token = .leftParen) (isClose : b.token = .rightParen) :
    ∃ before after, Expr.ofLexemes (before ++ a :: (gap ++ b :: after)) ≠
      Expr.ofLexemes (before ++ a :: b :: after) := by
  obtain ⟨aToken, aText, start⟩ := a
  obtain ⟨bToken, bText, stop⟩ := b
  obtain rfl : aToken = .leftParen := isOpen
  obtain rfl : bToken = .rightParen := isClose
  refine ⟨[⟨.name "f", "f", 0⟩], [], ?_⟩
  obtain ⟨bracket, isBracket, passed⟩ :=
    cues_gap brackets filled (some .leftParen) [⟨.rightParen, bText, stop⟩]
  have closed : bracket ≠ .leftParen := fun isOpen => by
    rw [isOpen] at isBracket
    cases isBracket
  have apart : cues none (⟨.name "f", "f", 0⟩ :: ⟨.leftParen, aText, start⟩ ::
      (gap ++ [⟨.rightParen, bText, stop⟩])) =
        [⟨⟨.name "f", "f", 0⟩, true⟩, ⟨⟨.leftParen, aText, start⟩, false⟩,
          ⟨⟨.rightParen, bText, stop⟩, false⟩] := by
    rw [cues_cons rfl, cues_cons rfl, passed]
    simp [cues, besideOf, closed, Token.isSilent]
  have separate : Expr.ofLexemes (⟨.name "f", "f", 0⟩ :: ⟨.leftParen, aText, start⟩ ::
      (gap ++ [⟨.rightParen, bText, stop⟩])) = .error (.notEnoughArguments "f" 1 0 0) := by
    rw [ofLexemes_eq_follow, apart]
    rfl
  have together : Expr.ofLexemes [⟨.name "f", "f", 0⟩, ⟨.leftParen, aText, start⟩,
      ⟨.rightParen, bText, stop⟩] = .ok (.call "f" [] 0) := rfl
  rw [List.singleton_append, List.singleton_append, separate, together]
  simp

end Gap

/-! ## Both -/

/-- A text in which no brackets are noticed is read as without them. And brackets between two
lexemes change nothing in any surroundings exactly when the two do not notice them. -/
theorem ofLexemes_withoutBrackets (lexemes : List Lexeme) (a b : Lexeme) (gap : List Lexeme) :
    (Unnoticed lexemes → Expr.ofLexemes (withoutBrackets lexemes) = Expr.ofLexemes lexemes) ∧
    (gap ≠ [] → (∀ lexeme ∈ gap, lexeme.token.isBracket = true) →
      ((∀ before after, Expr.ofLexemes (before ++ a :: (gap ++ b :: after)) =
          Expr.ofLexemes (before ++ a :: b :: after)) ↔ ¬ a.token.Noticed b.token)) := by
  refine ⟨fun unnoticed => ofLexemes_congr (cues_withoutBrackets unnoticed (.inl ⟨rfl, ?_⟩)),
    fun filled brackets => ⟨fun ignored noticed => ?_, fun unnoticed before after => ?_⟩⟩
  · intro _ isOpen
    cases isOpen
  · have changed : ∃ before after, Expr.ofLexemes (before ++ a :: (gap ++ b :: after)) ≠
        Expr.ofLexemes (before ++ a :: b :: after) := by
      rcases noticed with ⟨⟨name, isName⟩, isOpen⟩ | ⟨isOpen, isClose⟩
      · exact noticed_by_name brackets filled isName isOpen
      · exact noticed_by_parens brackets filled isOpen isClose
    obtain ⟨before, after, differs⟩ := changed
    exact differs (ignored before after)
  · exact ofLexemes_congr (cues_append_congr
      (cues_of_not_noticed brackets filled unnoticed after) before none)

/-- The brackets of `f([1, 2])` go unnoticed, and so do brackets before its comma. -/
theorem ofLexemes_withoutBrackets_call :
    (Unnoticed [⟨.name "f", "f", 0⟩, ⟨.leftParen, "(", 1⟩, ⟨.leftBracket, "[", 2⟩,
        ⟨.number 1, "1", 3⟩, ⟨.comma, ",", 4⟩, ⟨.number 2, "2", 6⟩, ⟨.rightBracket, "]", 7⟩,
        ⟨.rightParen, ")", 8⟩, ⟨.endOfText, "", 9⟩] ∧
      Expr.ofLexemes (withoutBrackets [⟨.name "f", "f", 0⟩, ⟨.leftParen, "(", 1⟩,
          ⟨.leftBracket, "[", 2⟩, ⟨.number 1, "1", 3⟩, ⟨.comma, ",", 4⟩, ⟨.number 2, "2", 6⟩,
          ⟨.rightBracket, "]", 7⟩, ⟨.rightParen, ")", 8⟩, ⟨.endOfText, "", 9⟩]) =
        .ok (.call "f" [.number 1 3, .number 2 6] 0)) ∧
    ∀ before after, Expr.ofLexemes (before ++ ⟨.number 1, "1", 3⟩ ::
        ([⟨.rightBracket, "]", 4⟩] ++ ⟨.comma, ",", 5⟩ :: after)) =
      Expr.ofLexemes (before ++ ⟨.number 1, "1", 3⟩ :: ⟨.comma, ",", 5⟩ :: after) := by
  have unnoticed : Unnoticed [⟨.name "f", "f", 0⟩, ⟨.leftParen, "(", 1⟩, ⟨.leftBracket, "[", 2⟩,
      ⟨.number 1, "1", 3⟩, ⟨.comma, ",", 4⟩, ⟨.number 2, "2", 6⟩, ⟨.rightBracket, "]", 7⟩,
      ⟨.rightParen, ")", 8⟩, ⟨.endOfText, "", 9⟩] := by
    simp [Unnoticed, withoutBrackets, Token.isBracket, Token.Noticed]
  obtain ⟨whole, single⟩ := ofLexemes_withoutBrackets [⟨.name "f", "f", 0⟩, ⟨.leftParen, "(", 1⟩,
    ⟨.leftBracket, "[", 2⟩, ⟨.number 1, "1", 3⟩, ⟨.comma, ",", 4⟩, ⟨.number 2, "2", 6⟩,
    ⟨.rightBracket, "]", 7⟩, ⟨.rightParen, ")", 8⟩, ⟨.endOfText, "", 9⟩] ⟨.number 1, "1", 3⟩
    ⟨.comma, ",", 5⟩ [⟨.rightBracket, "]", 4⟩]
  refine ⟨⟨unnoticed, (whole unnoticed).trans (by decide +kernel)⟩, ?_⟩
  exact (single (by simp) (by simp [Token.isBracket])).2 (by simp [Token.Noticed])

/-- The brackets of `f([])` and of `f[](1, 2)` are noticed: with them the first call lacks an
argument and the second leaves a number over. -/
theorem brackets_noticed :
    (∃ lexemes, Lexeme.ofText "f([])" = .ok lexemes ∧
      Expr.ofLexemes lexemes = .error (.notEnoughArguments "f" 1 0 0) ∧
      Expr.ofLexemes (withoutBrackets lexemes) = .ok (.call "f" [] 0)) ∧
    (∃ lexemes, Lexeme.ofText "f[](1, 2)" = .ok lexemes ∧
      Expr.ofLexemes lexemes = .error (.invalidExpression 0) ∧
      Expr.ofLexemes (withoutBrackets lexemes) = .ok (.call "f" [.number 1 4, .number 2 7] 0)) := by
  constructor
  · refine ⟨[⟨.name "f", "f", 0⟩, ⟨.leftParen, "(", 1⟩, ⟨.leftBracket, "[", 2⟩,
      ⟨.rightBracket, "]", 3⟩, ⟨.rightParen, ")", 4⟩, ⟨.endOfText, "", 5⟩], ?_, ?_, ?_⟩
    · decide +kernel
    · decide +kernel
    · decide +kernel
  · refine ⟨[⟨.name "f", "f", 0⟩, ⟨.leftBracket, "[", 1⟩, ⟨.rightBracket, "]", 2⟩,
      ⟨.leftParen, "(", 3⟩, ⟨.number 1, "1", 4⟩, ⟨.comma, ",", 5⟩, ⟨.number 2, "2", 7⟩,
      ⟨.rightParen, ")", 8⟩, ⟨.endOfText, "", 9⟩], ?_, ?_, ?_⟩
    · decide +kernel
    · decide +kernel
    · decide +kernel

end Yard

end Calculator
