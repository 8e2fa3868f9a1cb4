import Calculator.Proofs.Infix.Phrase
import Calculator.Proofs.Yard.Parentheses

/-!
# Which accepted texts are infix

The yard counts operands and does not look where they stand, so it accepts texts
that are no sentences: `1 2 +` for one. For a text that is read, and in which no
brackets come between a name and its parenthesis (`CallsJoined`), the two
conditions along the text decide (`sentence_iff_of_accepted`): the tokens are a
sentence exactly when no two operands stand side by side and every comma stands
directly between the parentheses of a call.

The conditions say nothing about missing operands. That those are noticed is the
work of the counting: a text that meets the conditions and whose parentheses
match is a phrase (`phrase_of_orderly`), and a phrase that is read misses
nothing. Along the text, `Standing` says what may come next, and `Opened` what
has been read before the innermost open parenthesis.
-/

set_option autoImplicit false

namespace Calculator.Infix

open Yard (cues)

/-! ## Orderly cues -/

/-- What stands just before a place in a text: a `(`, something else that an operand must follow, a
whole operand, or the name of a call whose `(` comes next. -/
inductive Standing where
  | opened
  | ready
  | done
  | calling
deriving DecidableEq

namespace Standing

/-- Whether an operand may come next. -/
def awaits : Standing → Bool
  | opened | ready => true
  | done | calling => false

end Standing

/-- Cues that may follow a place in a text. Of each open parenthesis `calls` knows whether it
belongs to a call, the innermost first. -/
inductive Orderly : List Bool → Standing → List Cue → Prop where
  | nil {standing : Standing} : standing ≠ .calling → Orderly [] standing []
  | number {calls : List Bool} {standing : Standing} {rest : List Cue} (value : Float)
      (text : String) (offset : Nat) (beside : Bool) :
      standing.awaits = true → Orderly calls .done rest →
        Orderly calls standing (⟨⟨.number value, text, offset⟩, beside⟩ :: rest)
  | name {calls : List Bool} {standing : Standing} {rest : List Cue} (name text : String)
      (offset : Nat) :
      standing.awaits = true → Orderly calls .done rest →
        Orderly calls standing (⟨⟨.name name, text, offset⟩, false⟩ :: rest)
  | callee {calls : List Bool} {standing : Standing} {rest : List Cue} (name text : String)
      (offset : Nat) :
      standing.awaits = true → Orderly calls .calling rest →
        Orderly calls standing (⟨⟨.name name, text, offset⟩, true⟩ :: rest)
  | operator {calls : List Bool} {standing : Standing} {rest : List Cue} (op : BinaryOperator)
      (text : String) (offset : Nat) (beside : Bool) :
      standing ≠ .calling → Orderly calls .ready rest →
        Orderly calls standing (⟨⟨.operator op, text, offset⟩, beside⟩ :: rest)
  | group {calls : List Bool} {standing : Standing} {rest : List Cue} (text : String)
      (offset : Nat) (beside : Bool) :
      standing.awaits = true → Orderly (false :: calls) .opened rest →
        Orderly calls standing (⟨⟨.leftParen, text, offset⟩, beside⟩ :: rest)
  | call {calls : List Bool} {rest : List Cue} (text : String) (offset : Nat) (beside : Bool) :
      Orderly (true :: calls) .opened rest →
        Orderly calls .calling (⟨⟨.leftParen, text, offset⟩, beside⟩ :: rest)
  | close {call : Bool} {calls : List Bool} {standing : Standing} {rest : List Cue}
      (text : String) (offset : Nat) (beside : Bool) :
      standing ≠ .calling → (beside = true → standing = .opened) → Orderly calls .done rest →
        Orderly (call :: calls) standing (⟨⟨.rightParen, text, offset⟩, beside⟩ :: rest)
  | comma {calls : List Bool} {standing : Standing} {rest : List Cue} (text : String)
      (offset : Nat) (beside : Bool) :
      standing ≠ .calling → Orderly (true :: calls) .ready rest →
        Orderly (true :: calls) standing (⟨⟨.comma, text, offset⟩, beside⟩ :: rest)

/-! ## Orderly cues are a phrase -/

/-- What may stand before an operand: nothing, or a phrase and an operator. -/
def Lead (cues : List Cue) : Prop :=
  cues = [] ∨ ∃ missing ls op text offset beside, Phrase missing ls ∧
    cues = ls ++ [⟨⟨.operator op, text, offset⟩, beside⟩]

theorem Lead.phrase {lead cues : List Cue} (isLead : Lead lead) {missing : Nat}
    (part : Part missing cues) : ∃ missing, Phrase missing (lead ++ cues) := by
  rcases isLead with rfl | ⟨before, ls, op, text, offset, beside, phrase, rfl⟩
  · exact ⟨missing, .operand part⟩
  · refine ⟨before + missing, ?_⟩
    rw [List.append_assoc]
    exact .binary op text offset beside phrase part

/-- What has been read before the innermost open parenthesis, that parenthesis and the arguments
before the last comma included. The first index tells whether nothing follows the parenthesis. -/
inductive Opened : Bool → List Bool → List Cue → Prop where
  | whole : Opened false [] []
  | group {fresh : Bool} {calls : List Bool} {before lead : List Cue} (text : String)
      (offset : Nat) (beside : Bool) :
      Opened fresh calls before → Lead lead →
        Opened true (false :: calls) (before ++ (lead ++ [⟨⟨.leftParen, text, offset⟩, beside⟩]))
  | call {fresh : Bool} {calls : List Bool} {before lead : List Cue} (name text left : String)
      (offset start : Nat) (beside : Bool) :
      Opened fresh calls before → Lead lead →
        Opened true (true :: calls)
          (before ++ (lead ++ [⟨⟨.name name, text, offset⟩, true⟩,
            ⟨⟨.leftParen, left, start⟩, beside⟩]))
  | argument {fresh : Bool} {calls : List Bool} {before lead arguments : List Cue}
      {missing : Nat} (name text left comma : String) (offset start stop : Nat)
      (beside atComma : Bool) :
      Opened fresh calls before → Lead lead → Parts missing arguments →
        Opened false (true :: calls)
          (before ++ (lead ++ (⟨⟨.name name, text, offset⟩, true⟩ ::
            ⟨⟨.leftParen, left, start⟩, beside⟩ ::
              (arguments ++ [⟨⟨.comma, comma, stop⟩, atComma⟩]))))

/-- What has been read since the innermost open parenthesis or its last comma. -/
def Stands (fresh : Bool) (segment : List Cue) : Standing → Prop
  | .opened => fresh = true ∧ segment = []
  | .ready => Lead segment
  | .done => ∃ missing, Phrase missing segment
  | .calling => ∃ lead name text offset, Lead lead ∧
      segment = lead ++ [⟨⟨.name name, text, offset⟩, true⟩]

theorem Stands.lead {fresh : Bool} {segment : List Cue} {standing : Standing}
    (stands : Stands fresh segment standing) (awaits : standing.awaits = true) : Lead segment := by
  cases standing with
  | opened => exact .inl stands.2
  | ready => exact stands
  | done => cases awaits
  | calling => cases awaits

/-- Where no `(` has to follow, what has been read is a phrase, its last operand perhaps missing. -/
theorem Stands.phrase {fresh : Bool} {segment : List Cue} {standing : Standing}
    (stands : Stands fresh segment standing) (closed : standing ≠ .calling) :
    ∃ missing, Phrase missing segment := by
  cases standing with
  | opened =>
      obtain ⟨-, rfl⟩ := stands
      exact ⟨1, .operand .missing⟩
  | ready => simpa using Lead.phrase stands .missing
  | done => exact stands
  | calling => exact absurd rfl closed

/-- A parenthesis that closes completes an operand of what surrounds it. -/
theorem Opened.close {fresh call : Bool} {calls : List Bool} {before segment : List Cue}
    {standing : Standing} (opened : Opened fresh (call :: calls) before)
    (stands : Stands fresh segment standing) (closed : standing ≠ .calling) (text : String)
    (offset : Nat) (beside : Bool) (seen : beside = true → standing = .opened) :
    ∃ fresh outer inner, Opened fresh calls outer ∧ (∃ missing, Phrase missing inner) ∧
      before ++ segment ++ [⟨⟨.rightParen, text, offset⟩, beside⟩] = outer ++ inner := by
  obtain ⟨missing, phrase⟩ := stands.phrase closed
  cases opened with
  | group left start atLeft outer lead =>
      exact ⟨_, _, _, outer, lead.phrase (.group left text start offset atLeft beside phrase),
        by simp⟩
  | call name nameText left nameOffset start atLeft outer lead =>
      cases beside with
      | true =>
          obtain rfl := seen rfl
          obtain ⟨-, rfl⟩ := stands
          have operand : Part 0 _ :=
            .emptyCall name nameText left text nameOffset start offset atLeft
          exact ⟨_, _, _, outer, lead.phrase operand, by simp⟩
      | false =>
          exact ⟨_, _, _, outer, lead.phrase (.call name nameText left text nameOffset start offset
            atLeft (.one phrase)), by simp⟩
  | argument name nameText left comma nameOffset start stop atLeft atComma outer lead arguments =>
      cases beside with
      | true =>
          obtain rfl := seen rfl
          cases stands.1
      | false =>
          exact ⟨_, _, _, outer, lead.phrase (.call name nameText left text nameOffset start offset
            atLeft (.more comma stop atComma arguments phrase)), by simp⟩

/-- A comma in a call completes an argument. -/
theorem Opened.comma {fresh : Bool} {calls : List Bool} {before segment : List Cue}
    {standing : Standing} (opened : Opened fresh (true :: calls) before)
    (stands : Stands fresh segment standing) (closed : standing ≠ .calling) (text : String)
    (offset : Nat) (beside : Bool) :
    Opened false (true :: calls) (before ++ segment ++ [⟨⟨.comma, text, offset⟩, beside⟩]) := by
  obtain ⟨missing, phrase⟩ := stands.phrase closed
  cases opened with
  | call name nameText left nameOffset start atLeft outer lead =>
      simpa using Opened.argument name nameText left text nameOffset start offset atLeft beside
        outer lead (.one phrase)
  | argument name nameText left comma nameOffset start stop atLeft atComma outer lead arguments =>
      simpa using Opened.argument name nameText left text nameOffset start offset atLeft beside
        outer lead (.more comma stop atComma arguments phrase)

/-- Orderly cues complete what has been read before them to a phrase. -/
theorem phrase_of_orderly {calls : List Bool} {standing : Standing} {rest : List Cue}
    (orderly : Orderly calls standing rest) (fresh : Bool) (before segment : List Cue)
    (opened : Opened fresh calls before) (stands : Stands fresh segment standing) :
    ∃ missing, Phrase missing (before ++ segment ++ rest) := by
  induction orderly generalizing fresh before segment with
  | nil closed =>
      cases opened
      simpa using stands.phrase closed
  | number value text offset beside awaits _ ih =>
      have operand := (stands.lead awaits).phrase (.number value text offset beside)
      simpa using ih fresh before (segment ++ [_]) opened operand
  | name name text offset awaits _ ih =>
      have operand := (stands.lead awaits).phrase (.name name text offset)
      simpa using ih fresh before (segment ++ [_]) opened operand
  | callee name text offset awaits _ ih =>
      simpa using ih fresh before (segment ++ [_]) opened
        ⟨segment, name, text, offset, stands.lead awaits, rfl⟩
  | operator op text offset beside closed _ ih =>
      obtain ⟨missing, phrase⟩ := stands.phrase closed
      simpa using ih fresh before (segment ++ [_]) opened
        (.inr ⟨missing, segment, op, text, offset, beside, phrase, rfl⟩)
  | group text offset beside awaits _ ih =>
      simpa using ih true _ [] (.group text offset beside opened (stands.lead awaits)) ⟨rfl, rfl⟩
  | call text offset beside _ ih =>
      obtain ⟨lead, name, nameText, nameOffset, isLead, rfl⟩ := stands
      simpa using ih true _ [] (.call name nameText text nameOffset offset beside opened isLead)
        ⟨rfl, rfl⟩
  | close text offset beside closed seen _ ih =>
      obtain ⟨fresh, outer, inner, around, operand, same⟩ :=
        opened.close stands closed text offset beside seen
      have whole := ih fresh outer inner around operand
      rw [← same] at whole
      simpa using whole
  | comma text offset beside closed _ ih =>
      simpa using ih false _ [] (opened.comma stands closed text offset beside) (.inl rfl)

/-! ## The conditions make cues orderly -/

/-- Every name that a `(` follows, brackets left out, has it directly after it. -/
def CallsJoined : List Lexeme → Prop
  | [] => True
  | lexeme :: rest =>
    (lexeme.token.isName = true → (spoken rest).head? = some .leftParen →
      rest.head?.map Lexeme.token = some .leftParen) ∧ CallsJoined rest

theorem spoken_cons_of_silent {lexeme : Lexeme} (silent : lexeme.token.isSilent = true)
    (rest : List Lexeme) : spoken (lexeme :: rest) = spoken rest := by
  simp [spoken, silent]

theorem spoken_cons {lexeme : Lexeme} (heard : lexeme.token.isSilent = false)
    (rest : List Lexeme) : spoken (lexeme :: rest) = lexeme.token :: spoken rest := by
  simp [spoken, heard]

/-- The cues of lexemes carry what is spoken. -/
theorem map_token_cues (before? : Option Token) (lexemes : List Lexeme) :
    (cues before? lexemes).map Cue.token = spoken lexemes := by
  induction lexemes generalizing before? with
  | nil => rfl
  | cons lexeme rest ih =>
      cases silent : lexeme.token.isSilent with
      | true => rw [Yard.cues_cons_of_silent silent, spoken_cons_of_silent silent, ih]
      | false =>
          rw [Yard.cues_cons silent, spoken_cons silent, List.map_cons, ih]
          rfl

/-- How a place in a text stands, by the spoken token before it and the lexemes after it. -/
def Placed (last? : Option Token) (rest : List Lexeme) : Standing → Prop
  | .opened => last? = some .leftParen
  | .ready => last?.any Token.endsOperand = false ∧ last? ≠ some .leftParen
  | .done => last?.any Token.endsOperand = true ∧
      (last?.any Token.isName = true → (spoken rest).head? ≠ some .leftParen)
  | .calling => last?.any Token.isName = true ∧ rest.head?.map Lexeme.token = some .leftParen

/-- Only a `(` follows the name of a call. -/
theorem Placed.closed {last? : Option Token} {lexeme : Lexeme} {rest : List Lexeme}
    {standing : Standing} (placed : Placed last? (lexeme :: rest) standing)
    (other : lexeme.token ≠ .leftParen) : standing ≠ .calling := by
  rintro rfl
  exact other (by simpa using placed.2)

theorem notOpen_of_silent {token : Token} (silent : token.isSilent = true) :
    token ≠ .leftParen := by
  rintro rfl
  cases silent

/-- What the yard passes over leaves a place as it is. -/
theorem Placed.passed {last? : Option Token} {lexeme : Lexeme} {rest : List Lexeme}
    {standing : Standing} (placed : Placed last? (lexeme :: rest) standing)
    (silent : lexeme.token.isSilent = true) : Placed last? rest standing := by
  cases standing with
  | opened => exact placed
  | ready => exact placed
  | done => exact ⟨placed.1, by simpa [spoken_cons_of_silent silent] using placed.2⟩
  | calling => exact absurd rfl (placed.closed (notOpen_of_silent silent))

/-- Where operands are kept apart, one begins only where one may. -/
theorem Placed.awaits {last? : Option Token} {lexeme : Lexeme} {rest : List Lexeme}
    {standing : Standing} (placed : Placed last? (lexeme :: rest) standing)
    (heard : lexeme.token.isSilent = false) (begins : lexeme.token.beginsOperand = true)
    (apart : Apart (last?.toList ++ lexeme.token :: spoken rest)) (closed : standing ≠ .calling) :
    standing.awaits = true := by
  cases standing with
  | opened => rfl
  | ready => rfl
  | calling => exact absurd rfl closed
  | done =>
      obtain ⟨last, rfl⟩ : ∃ last, last? = some last := by
        cases last? with
        | none => cases placed.1
        | some last => exact ⟨last, rfl⟩
      have ends : last.endsOperand = true := by simpa using placed.1
      have separate := (List.isChain_cons.1 apart).1 lexeme.token rfl
      have joins : last.isName = true ∧ lexeme.token = .leftParen := by
        by_contra two
        exact separate ⟨ends, begins, two⟩
      refine absurd ?_ (placed.2 joins.1)
      rw [spoken_cons heard, joins.2]
      rfl

/-- Where an operand may begin, no name has just been read. -/
theorem Placed.unnamed {last? : Option Token} {rest : List Lexeme} {standing : Standing}
    (placed : Placed last? rest standing) (awaits : standing.awaits = true) :
    last?.any Token.isName = false := by
  cases last? with
  | none => rfl
  | some last =>
      cases standing with
      | opened =>
          obtain rfl : last = .leftParen := Option.some_inj.1 placed
          rfl
      | ready =>
          have noEnd : last.endsOperand = false := by simpa using placed.1
          cases last with
          | name name => cases noEnd
          | _ => rfl
      | done => cases awaits
      | calling => cases awaits

/-- Lexemes whose parentheses match and that meet the conditions have orderly cues. -/
theorem orderly_cues {lexemes : List Lexeme} (opens : List Nat) (calls : List Bool)
    (before? last? : Option Token) (standing : Standing)
    (matched : Yard.scan opens lexemes = .ok []) (depth : opens.length = calls.length)
    (placed : Placed last? lexemes standing)
    (seen : before? = some .leftParen → standing = .opened)
    (apart : Apart (last?.toList ++ spoken lexemes))
    (commas : CommasInCalls calls last? (spoken lexemes)) (joined : CallsJoined lexemes) :
    Orderly calls standing (cues before? lexemes) := by
  induction lexemes generalizing opens calls before? last? standing with
  | nil =>
      obtain rfl : opens = [] := Except.ok.inj matched
      obtain rfl : calls = [] := List.length_eq_zero_iff.1 depth.symm
      refine .nil ?_
      rintro rfl
      cases placed.2
  | cons lexeme rest ih =>
      rw [Yard.scan, List.foldlM_cons] at matched
      cases silent : lexeme.token.isSilent with
      | true =>
          rw [spoken_cons_of_silent silent] at apart commas
          rw [Yard.cues_cons_of_silent silent]
          rw [Yard.scanStep_of_silent silent] at matched
          exact ih opens calls (some lexeme.token) last? standing matched depth
            (placed.passed silent)
            (fun isOpen => absurd (Option.some_inj.1 isOpen) (notOpen_of_silent silent))
            apart commas joined.2
      | false =>
          have later : Apart (lexeme.token :: spoken rest) := by
            rw [spoken_cons silent] at apart
            exact List.IsChain.right_of_append apart
          rw [spoken_cons silent] at apart commas
          rw [Yard.cues_cons silent]
          have begins : lexeme.token.beginsOperand = true → standing ≠ .calling →
              standing.awaits = true := fun begins closed =>
            placed.awaits silent begins apart closed
          obtain ⟨token, text, offset⟩ := lexeme
          cases token with
          | number value =>
              refine .number value text offset _ (begins rfl (placed.closed (by simp))) ?_
              exact ih opens calls (some (.number value)) (some (.number value)) .done matched depth
                ⟨rfl, fun isName => by cases isName⟩ (by simp) later commas joined.2
          | name name =>
              have awaits := begins rfl (placed.closed (by simp))
              by_cases next : rest.head?.map Lexeme.token = some .leftParen
              · simp only [Yard.besideOf, next, decide_true]
                refine .callee name text offset awaits ?_
                exact ih opens calls (some (.name name)) (some (.name name)) .calling matched depth
                  ⟨rfl, next⟩ (by simp) later commas joined.2
              · simp only [Yard.besideOf, next, decide_false]
                refine .name name text offset awaits ?_
                exact ih opens calls (some (.name name)) (some (.name name)) .done matched depth
                  ⟨rfl, fun _ isOpen => next (joined.1 rfl isOpen)⟩ (by simp) later commas joined.2
          | operator op =>
              refine .operator op text offset _ (placed.closed (by simp)) ?_
              exact ih opens calls (some (.operator op)) (some (.operator op)) .ready matched depth
                ⟨rfl, by simp⟩ (by simp) later commas joined.2
          | leftParen =>
              rw [CommasInCalls] at commas
              by_cases calling : standing = .calling
              · subst calling
                rw [placed.1] at commas
                refine .call text offset _ ?_
                exact ih (offset :: opens) (true :: calls) (some .leftParen) (some .leftParen)
                  .opened matched (by simp [depth]) rfl (fun _ => rfl) later commas joined.2
              · have awaits := begins rfl calling
                rw [placed.unnamed awaits] at commas
                refine .group text offset _ awaits ?_
                exact ih (offset :: opens) (false :: calls) (some .leftParen) (some .leftParen)
                  .opened matched (by simp [depth]) rfl (fun _ => rfl) later commas joined.2
          | rightParen =>
              cases opens with
              | nil => cases matched
              | cons start opens =>
                  obtain ⟨call, calls, rfl⟩ := List.exists_cons_of_length_eq_add_one depth.symm
                  refine .close text offset _ (placed.closed (by simp))
                    (fun isOpen => seen (by simpa [Yard.besideOf] using isOpen)) ?_
                  exact ih opens calls (some .rightParen) (some .rightParen) .done matched
                    (by simpa using depth) ⟨rfl, fun isName => by cases isName⟩ (by simp) later
                    commas joined.2
          | comma =>
              obtain ⟨inCall, commas⟩ := commas
              obtain ⟨calls, rfl⟩ : ∃ outer, calls = true :: outer :=
                List.head?_eq_some_iff.1 inCall
              cases opens with
              | nil => cases depth
              | cons start opens =>
                  refine .comma text offset _ (placed.closed (by simp)) ?_
                  exact ih (start :: opens) (true :: calls) (some .comma) (some .comma) .ready
                    matched depth ⟨rfl, by simp⟩ (by simp) later commas joined.2
          | leftBracket => cases silent
          | rightBracket => cases silent
          | endOfText => cases silent

/-! ## Accepted texts -/

/-- A text that is read and meets the conditions is a sentence. -/
theorem sentence_of_accepted {lexemes : List Lexeme} {e : Expr}
    (accepted : Expr.ofLexemes lexemes = .ok e) (joined : CallsJoined lexemes)
    (apart : Apart (spoken lexemes)) (commas : CommasInCalls [] none (spoken lexemes)) :
    Sentence (spoken lexemes) := by
  obtain ⟨nodes, left⟩ : ∃ nodes, Yard.postorder lexemes = .ok nodes := by
    rw [Expr.ofLexemes] at accepted
    cases left : Yard.postorder lexemes with
    | error error => rw [left] at accepted; cases accepted
    | ok nodes => exact ⟨nodes, rfl⟩
  have orderly : Orderly [] .ready (cues none lexemes) :=
    orderly_cues [] [] none none .ready (Yard.scan_of_postorder left) rfl ⟨rfl, by simp⟩ (by simp)
      apart commas joined
  obtain ⟨missing, phrase⟩ := phrase_of_orderly orderly false [] [] .whole (.inl rfl)
  have whole : missing = 0 := missing_eq_zero phrase accepted
  rw [← map_token_cues none lexemes]
  exact phrase.sentence whole

/-- A text that is read, with every call joined to its parenthesis, is a sentence exactly when no
two operands stand side by side and every comma stands directly in a call. -/
theorem sentence_iff_of_accepted {text : String} {lexemes : List Lexeme} {e : Expr}
    (cut : Lexeme.ofText text = .ok lexemes) (accepted : Expr.ofText text = .ok e)
    (joined : CallsJoined lexemes) :
    Sentence (spoken lexemes) ↔
      Apart (spoken lexemes) ∧ CommasInCalls [] none (spoken lexemes) := by
  have fromLexemes : Expr.ofLexemes lexemes = .ok e := by
    rw [Expr.ofText, cut] at accepted
    exact accepted
  constructor
  · intro sentence
    refine ⟨sentence.bounded.apart, ?_⟩
    have commas := sentence.commasInCalls [] none rfl [] fun _ => trivial
    rwa [List.append_nil] at commas
  · rintro ⟨apart, commas⟩
    exact sentence_of_accepted fromLexemes joined apart commas

/-- The brackets of `mean([1, 2]) - pi` separate no name from its parenthesis. -/
theorem sentence_iff_of_accepted_mean :
    Sentence (spoken [⟨.name "mean", "mean", 0⟩, ⟨.leftParen, "(", 4⟩, ⟨.leftBracket, "[", 5⟩,
        ⟨.number 1, "1", 6⟩, ⟨.comma, ",", 7⟩, ⟨.number 2, "2", 9⟩, ⟨.rightBracket, "]", 10⟩,
        ⟨.rightParen, ")", 11⟩, ⟨.operator .sub, "-", 13⟩, ⟨.name "pi", "pi", 15⟩,
        ⟨.endOfText, "", 17⟩]) ↔
      Apart [.name "mean", .leftParen, .number 1, .comma, .number 2, .rightParen, .operator .sub,
        .name "pi"] ∧
      CommasInCalls [] none [.name "mean", .leftParen, .number 1, .comma, .number 2, .rightParen,
        .operator .sub, .name "pi"] := by
  have cut : Lexeme.ofText "mean([1, 2]) - pi" =
      .ok [⟨.name "mean", "mean", 0⟩, ⟨.leftParen, "(", 4⟩, ⟨.leftBracket, "[", 5⟩,
        ⟨.number 1, "1", 6⟩, ⟨.comma, ",", 7⟩, ⟨.number 2, "2", 9⟩, ⟨.rightBracket, "]", 10⟩,
        ⟨.rightParen, ")", 11⟩, ⟨.operator .sub, "-", 13⟩, ⟨.name "pi", "pi", 15⟩,
        ⟨.endOfText, "", 17⟩] := by decide +kernel
  have accepted : Expr.ofText "mean([1, 2]) - pi" =
      .ok (.binary .sub (.call "mean" [.number 1 6, .number 2 9] 0) (.call "pi" [] 15) 13) := by
    decide +kernel
  exact sentence_iff_of_accepted cut accepted (by simp [CallsJoined, spoken, Token.isName])

/-- Without the conditions: `1 2 +` is read with two operands side by side, and `f((1, 2))` with a
comma in a group. Neither is a sentence. -/
theorem accepted_not_sentence :
    (∃ lexemes e, Lexeme.ofText "1 2 +" = .ok lexemes ∧ Expr.ofText "1 2 +" = .ok e ∧
      ¬ Sentence (spoken lexemes)) ∧
    (∃ lexemes e, Lexeme.ofText "f((1, 2))" = .ok lexemes ∧ Expr.ofText "f((1, 2))" = .ok e ∧
      ¬ Sentence (spoken lexemes)) := by
  constructor
  · refine ⟨[⟨.number 1, "1", 0⟩, ⟨.number 2, "2", 2⟩, ⟨.operator .add, "+", 4⟩,
      ⟨.endOfText, "", 5⟩], .binary .add (.number 1 0) (.number 2 2) 4, by decide +kernel,
      by decide +kernel, fun sentence => ?_⟩
    have apart : Apart [.number 1, .number 2, .operator .add] := sentence.bounded.apart
    exact (List.isChain_cons_cons.1 apart).1 ⟨rfl, rfl, fun joins => by cases joins.1⟩
  · refine ⟨[⟨.name "f", "f", 0⟩, ⟨.leftParen, "(", 1⟩, ⟨.leftParen, "(", 2⟩, ⟨.number 1, "1", 3⟩,
      ⟨.comma, ",", 4⟩, ⟨.number 2, "2", 6⟩, ⟨.rightParen, ")", 7⟩, ⟨.rightParen, ")", 8⟩,
      ⟨.endOfText, "", 9⟩], .call "f" [.number 1 3, .number 2 6] 0, by decide +kernel,
      by decide +kernel, fun sentence => ?_⟩
    have commas := sentence.commasInCalls [] none rfl [] fun _ => trivial
    have inGroup : some false = some true := commas.1
    cases inGroup

end Calculator.Infix
