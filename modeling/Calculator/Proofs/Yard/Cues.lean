import Calculator.Proofs.Yard.Steps

/-!
# What the yard sees of its lexemes

The yard passes over brackets and the end of the text, and of the neighbours of
a lexeme it asks one question at most: a name asks whether `(` comes next, and
`)` whether `(` came before. A *cue* is a lexeme with the answer to its
question, and `cues` lists the cues of a text without what the yard passes over.

A run of the yard follows the cues and depends on nothing else
(`run_eq_follow`). So two texts with the same cues are read alike
(`ofLexemes_congr`), and a property of runs is proved by induction on the cues,
one case for each kind of lexeme that does something.
-/

set_option autoImplicit false

namespace Calculator

namespace Token

/-- Whether a token is a bracket. -/
def isBracket : Token → Bool
  | leftBracket | rightBracket => true
  | _ => false

/-- Whether the yard passes over a token. -/
def isSilent : Token → Bool
  | leftBracket | rightBracket | endOfText => true
  | _ => false

theorem isSilent_of_isBracket {t : Token} (bracket : t.isBracket = true) : t.isSilent = true := by
  cases t <;> simp_all [isBracket, isSilent]

end Token

/-- A lexeme with the answer to what it asks about a neighbour: whether that is `(`. -/
structure Cue where
  lexeme : Lexeme
  beside : Bool
deriving DecidableEq

namespace Cue

/-- The token of a cue. -/
def token (cue : Cue) : Token := cue.lexeme.token

/-- A neighbour that gives the answer of the cue. -/
def neighbour? (cue : Cue) : Option Token := if cue.beside then some .leftParen else none

end Cue

namespace Yard

/-- What a token asks about its neighbours. -/
def besideOf (before? after? : Option Token) : Token → Bool
  | .name _ => after? = some .leftParen
  | .rightParen => before? = some .leftParen
  | _ => false

/-- The cues of lexemes that follow the token `before?`. -/
def cues (before? : Option Token) : List Lexeme → List Cue
  | [] => []
  | lexeme :: rest =>
    let later := cues (some lexeme.token) rest
    if lexeme.token.isSilent then later
    else ⟨lexeme, besideOf before? (rest.head?.map Lexeme.token) lexeme.token⟩ :: later

/-- One cue. -/
def follow (yard : Yard) (cue : Cue) : Except ParseError Yard :=
  yard.step cue.neighbour? cue.neighbour? cue.lexeme

theorem cues_cons_of_silent {lexeme : Lexeme} (silent : lexeme.token.isSilent = true)
    (before? : Option Token) (rest : List Lexeme) :
    cues before? (lexeme :: rest) = cues (some lexeme.token) rest := by
  rw [cues, if_pos silent]

theorem cues_cons {lexeme : Lexeme} (spoken : lexeme.token.isSilent = false)
    (before? : Option Token) (rest : List Lexeme) :
    cues before? (lexeme :: rest) =
      ⟨lexeme, besideOf before? (rest.head?.map Lexeme.token) lexeme.token⟩ ::
        cues (some lexeme.token) rest := by
  rw [cues, if_neg (by simp [spoken])]

theorem step_of_silent {lexeme : Lexeme} (silent : lexeme.token.isSilent = true) (yard : Yard)
    (before? after? : Option Token) : yard.step before? after? lexeme = .ok yard := by
  obtain ⟨token, text, offset⟩ := lexeme
  cases token with
  | leftBracket => rfl
  | rightBracket => rfl
  | endOfText => rfl
  | _ => simp [Token.isSilent] at silent

/-- A step only uses the answer to the question of its token. -/
theorem follow_eq_step (yard : Yard) (before? after? : Option Token) (lexeme : Lexeme) :
    yard.follow ⟨lexeme, besideOf before? after? lexeme.token⟩ =
      yard.step before? after? lexeme := by
  obtain ⟨token, text, offset⟩ := lexeme
  cases token with
  | name name =>
      by_cases opens : after? = some .leftParen <;>
        simp [follow, Cue.neighbour?, besideOf, step, opens]
  | rightParen =>
      by_cases opens : before? = some .leftParen <;>
        simp [follow, Cue.neighbour?, besideOf, step, opens]
  | _ => rfl

theorem follow_rightParen (yard : Yard) (text : String) (offset : Nat) (beside : Bool) :
    yard.follow ⟨⟨.rightParen, text, offset⟩, beside⟩ = yard.close beside offset := by
  cases beside with
  | true => rfl
  | false => rfl

/-- A run follows the cues of its lexemes. -/
theorem run_eq_follow (yard : Yard) (before? : Option Token) (lexemes : List Lexeme) :
    yard.run before? lexemes = (cues before? lexemes).foldlM follow yard := by
  induction lexemes generalizing yard before? with
  | nil => rfl
  | cons lexeme rest ih =>
      rw [run]
      cases silent : lexeme.token.isSilent with
      | true =>
          rw [cues_cons_of_silent silent, step_of_silent silent]
          exact ih yard (some lexeme.token)
      | false =>
          rw [cues_cons silent, List.foldlM_cons, follow_eq_step]
          exact bind_congr fun next => ih next (some lexeme.token)

/-- Reading follows the cues of the lexemes, and builds the expression from what the yard leaves. -/
theorem ofLexemes_eq_follow (lexemes : List Lexeme) :
    Expr.ofLexemes lexemes =
      ((cues none lexemes).foldlM follow empty >>= finish) >>= Expr.ofPostorder := by
  rw [Expr.ofLexemes, postorder, run_eq_follow]

/-- Lexemes with the same cues are read alike. -/
theorem ofLexemes_congr {first second : List Lexeme} (same : cues none first = cues none second) :
    Expr.ofLexemes first = Expr.ofLexemes second := by
  rw [ofLexemes_eq_follow, ofLexemes_eq_follow, same]

end Yard

end Calculator
