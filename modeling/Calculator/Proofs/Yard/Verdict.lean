import Calculator.Proofs.Yard.Parentheses
import Mathlib

/-!
# Which texts the yard refuses

Whether the yard accepts lexemes is a matter of counting. `depth` is the number
of `(` less the number of `)`, and a comma or a `)` is *stray* where the depth is
zero. The first stray lexeme is refused. Without one the depth never becomes
negative, and at the end the last `(` that is left unclosed is refused; if every
`(` is closed, the yard accepts (`postorder_verdict`).

The proof goes through the scan of the parentheses. A scan that has not failed
holds as many parentheses as the depth says (`depth_of_scan`), so it fails just
at the stray lexemes (`orderly_iff`), and each parenthesis that it holds is one
that nothing behind it closes (`exists_unclosed`).
-/

set_option autoImplicit false

namespace Calculator

namespace Token

/-- Whether a token has a part in the verdict of the yard. -/
def isJudged : Token → Bool
  | leftParen | rightParen | comma => true
  | _ => false

end Token

namespace Yard

/-! ## Counting -/

/-- How many more `(` than `)` there are. -/
def depth (lexemes : List Lexeme) : Int :=
  (lexemes.countP (·.token = .leftParen) : Int) - lexemes.countP (·.token = .rightParen)

/-- A comma or a `)` where no parenthesis is open. -/
def Stray (before : List Lexeme) (lexeme : Lexeme) : Prop :=
  depth before = 0 ∧ (lexeme.token = .comma ∨ lexeme.token = .rightParen)

/-- No lexeme is stray. -/
def Orderly (lexemes : List Lexeme) : Prop :=
  ∀ before lexeme after, lexemes = before ++ lexeme :: after → ¬ Stray before lexeme

/-- A `(` before these lexemes is closed by none of them: up to each of them there are no more `)`
than `(`. -/
def Unclosed (after : List Lexeme) : Prop :=
  ∀ inner rest, after = inner ++ rest → 0 ≤ depth inner

/-- The last `(` that is left unclosed, between what stands before and after it. -/
structure LastUnclosed (lexemes before : List Lexeme) (opening : Lexeme) (after : List Lexeme) :
    Prop where
  stands : lexemes = before ++ opening :: after
  opens : opening.token = .leftParen
  unclosed : Unclosed after
  last : ∀ between later rest, after = between ++ later :: rest → later.token = .leftParen →
    ¬ Unclosed rest

theorem depth_append (first second : List Lexeme) :
    depth (first ++ second) = depth first + depth second := by
  simp only [depth, List.countP_append]
  omega

theorem depth_open {lexeme : Lexeme} (opens : lexeme.token = .leftParen) : depth [lexeme] = 1 := by
  simp [depth, opens]

/-- A parenthesis stays unclosed behind one more lexeme if the depth does not become negative. -/
theorem Unclosed.snoc {after : List Lexeme} {lexeme : Lexeme} (unclosed : Unclosed after)
    (enough : 0 ≤ depth (after ++ [lexeme])) : Unclosed (after ++ [lexeme]) := by
  intro inner rest split
  rcases List.eq_nil_or_concat rest with rfl | ⟨others, final, rfl⟩
  · rw [List.append_nil] at split
    rwa [← split]
  · rw [List.concat_eq_append, ← List.append_assoc] at split
    exact unclosed inner others (List.append_inj_left' split rfl)

/-- If no parenthesis is open behind an unclosed one, it is the last. -/
theorem Unclosed.last {after : List Lexeme} (unclosed : Unclosed after) (even : depth after = 0)
    {between rest : List Lexeme} {later : Lexeme} (split : after = between ++ later :: rest)
    (opens : later.token = .leftParen) : ¬ Unclosed rest := by
  intro further
  have inside : 0 ≤ depth between := unclosed between _ split
  have behind : 0 ≤ depth rest := further rest [] (List.append_nil rest).symm
  rw [split, depth_append, ← List.singleton_append, depth_append, depth_open opens] at even
  omega

/-! ## The scan counts -/

theorem scan_append (opens : List Nat) (first second : List Lexeme) :
    scan opens (first ++ second) = scan opens first >>= (scan · second) := List.foldlM_append

theorem scan_snoc (opens : List Nat) (lexemes : List Lexeme) (last : Lexeme) :
    scan opens (lexemes ++ [last]) = scan opens lexemes >>= (scanStep · last) := by
  rw [scan_append]
  exact bind_congr fun middle => by simp [scan]

/-- A step of the scan opens, closes or keeps parentheses as its lexeme says. -/
theorem scanStep_cases {opens next : List Nat} {lexeme : Lexeme}
    (stepped : scanStep opens lexeme = .ok next) :
    (lexeme.token = .leftParen ∧ depth [lexeme] = 1 ∧ next = lexeme.offset :: opens) ∨
      (depth [lexeme] = -1 ∧ ∃ start, opens = start :: next) ∨
      (depth [lexeme] = 0 ∧ next = opens) := by
  obtain ⟨token, text, offset⟩ := lexeme
  cases token with
  | leftParen =>
      cases stepped
      exact .inl ⟨rfl, by simp [depth], rfl⟩
  | rightParen =>
      cases opens with
      | nil => cases stepped
      | cons start outer =>
          cases stepped
          exact .inr (.inl ⟨by simp [depth], start, rfl⟩)
  | comma =>
      cases opens with
      | nil => cases stepped
      | cons start outer =>
          cases stepped
          exact .inr (.inr ⟨by simp [depth], rfl⟩)
  | _ =>
      cases stepped
      exact .inr (.inr ⟨by simp [depth], rfl⟩)

/-- A step fails just at a comma or a `)` where no parenthesis is held. -/
theorem scanStep_eq_error_iff {opens : List Nat} {lexeme : Lexeme} {error : ParseError} :
    scanStep opens lexeme = .error error ↔ opens = [] ∧
      (lexeme.token = .comma ∧ error = .misplacedComma lexeme.offset ∨
        lexeme.token = .rightParen ∧ error = .mismatchedParentheses lexeme.offset) := by
  obtain ⟨token, text, offset⟩ := lexeme
  cases token with
  | rightParen | comma =>
      cases opens with
      | nil => simp [scanStep, eq_comm]
      | cons start outer => simp [scanStep]
  | _ => simp [scanStep]

/-- The scan holds as many parentheses as the depth says. -/
theorem depth_of_scan {lexemes : List Lexeme} {opens : List Nat}
    (scanned : scan [] lexemes = .ok opens) : (opens.length : Int) = depth lexemes := by
  induction lexemes using List.reverseRecOn generalizing opens with
  | nil =>
      cases scanned
      rfl
  | append_singleton lexemes last ih =>
      rw [scan_snoc] at scanned
      obtain ⟨middle, before, stepped⟩ := bind_eq_ok_iff.1 scanned
      have count := ih before
      rw [depth_append]
      rcases scanStep_cases stepped with ⟨-, up, rfl⟩ | ⟨down, start, rfl⟩ | ⟨level, rfl⟩
      · rw [up, ← count, List.length_cons, Nat.cast_succ]
      · rw [List.length_cons] at count
        omega
      · rw [level, ← count, Int.add_zero]

theorem nil_of_scan {lexemes : List Lexeme} {opens : List Nat}
    (scanned : scan [] lexemes = .ok opens) (level : depth lexemes = 0) : opens = [] := by
  rw [← List.length_eq_zero_iff, ← Int.natCast_eq_zero, depth_of_scan scanned, level]

/-- The scan reads lexemes to their end just if none of them is stray. -/
theorem orderly_iff {lexemes : List Lexeme} :
    Orderly lexemes ↔ ∃ opens, scan [] lexemes = .ok opens := by
  constructor
  · intro orderly
    induction lexemes using List.reverseRecOn with
    | nil => exact ⟨[], rfl⟩
    | append_singleton lexemes last ih =>
        obtain ⟨opens, scanned⟩ := ih fun before lexeme after split =>
          orderly before lexeme (after ++ [last]) (by rw [split]; simp)
        rw [scan_snoc, scanned]
        cases stepped : scanStep opens last with
        | ok next => exact ⟨next, stepped⟩
        | error error =>
            obtain ⟨rfl, fault⟩ := scanStep_eq_error_iff.1 stepped
            refine absurd ⟨(depth_of_scan scanned).symm, ?_⟩ (orderly lexemes last [] rfl)
            exact fault.imp And.left And.left
  · rintro ⟨opens, scanned⟩ before lexeme after rfl ⟨level, fault⟩
    rw [scan_append] at scanned
    obtain ⟨middle, reached, scanned⟩ := bind_eq_ok_iff.1 scanned
    have empty : middle = [] := nil_of_scan reached level
    obtain ⟨next, stepped, -⟩ := bind_eq_ok_iff.1 (by rwa [scan, List.foldlM_cons] at scanned)
    obtain ⟨error, failed⟩ : ∃ error, scanStep middle lexeme = .error error := by
      rcases fault with comma | closing
      · exact ⟨_, scanStep_eq_error_iff.2 ⟨empty, .inl ⟨comma, rfl⟩⟩⟩
      · exact ⟨_, scanStep_eq_error_iff.2 ⟨empty, .inr ⟨closing, rfl⟩⟩⟩
    rw [failed] at stepped
    cases stepped

/-- A parenthesis that the scan holds stands in the text, unclosed, and what the scan holds above it
is open behind it. -/
theorem exists_unclosed {lexemes : List Lexeme} {above outer : List Nat} {start : Nat}
    (scanned : scan [] lexemes = .ok (above ++ start :: outer)) :
    ∃ before opening after, lexemes = before ++ opening :: after ∧ opening.token = .leftParen ∧
      opening.offset = start ∧ Unclosed after ∧ depth after = above.length := by
  induction lexemes using List.reverseRecOn generalizing above with
  | nil => simp [scan, pure, Except.pure] at scanned
  | append_singleton lexemes last ih =>
      rw [scan_snoc] at scanned
      obtain ⟨middle, reached, stepped⟩ := bind_eq_ok_iff.1 scanned
      -- The parenthesis was held before, with `held` above it.
      have earlier : ∀ held : List Nat, middle = held ++ start :: outer →
          depth [last] + held.length = above.length →
          ∃ before opening after, lexemes ++ [last] = before ++ opening :: after ∧
            opening.token = .leftParen ∧ opening.offset = start ∧ Unclosed after ∧
            depth after = above.length := by
        intro held same count
        rw [same] at reached
        obtain ⟨before, opening, after, split, opens, place, unclosed, inside⟩ := ih reached
        have total : depth (after ++ [last]) = above.length := by
          rw [depth_append, inside, Int.add_comm, count]
        refine ⟨before, opening, after ++ [last], ?_, opens, place, unclosed.snoc ?_, total⟩
        · rw [split, List.append_assoc, List.cons_append]
        · rw [total]
          exact Int.natCast_nonneg _
      rcases scanStep_cases stepped with ⟨opens, up, next⟩ | ⟨down, closed, rfl⟩ | ⟨level, next⟩
      · cases above with
        | nil =>
            obtain ⟨rfl, -⟩ := List.cons.inj next
            refine ⟨lexemes, last, [], rfl, opens, rfl, ?_, rfl⟩
            intro inner rest split
            obtain ⟨rfl, -⟩ := List.append_eq_nil_iff.1 split.symm
            exact Int.le_refl 0
        | cons top held =>
            refine earlier held (List.cons.inj next).2.symm ?_
            rw [up, List.length_cons, Nat.cast_succ, Int.add_comm]
      · refine earlier (closed :: above) rfl ?_
        rw [down, List.length_cons, Nat.cast_succ]
        omega
      · exact earlier above next.symm (by rw [level, Int.zero_add])

/-! ## The verdict -/

/-- The scan passes over everything but parentheses and commas. -/
theorem scan_filter (opens : List Nat) (lexemes : List Lexeme) :
    scan opens (lexemes.filter (·.token.isJudged)) = scan opens lexemes := by
  induction lexemes generalizing opens with
  | nil => rfl
  | cons lexeme rest ih =>
      rw [List.filter_cons]
      split
      case isTrue =>
        rw [scan, scan, List.foldlM_cons, List.foldlM_cons]
        exact bind_congr ih
      case isFalse passed =>
        have kept : scanStep opens lexeme = .ok opens := by
          obtain ⟨token, text, offset⟩ := lexeme
          cases token with
          | leftParen | rightParen | comma => exact absurd rfl passed
          | _ => rfl
        rw [ih, scan, scan, List.foldlM_cons, kept]
        rfl

/-- The first stray lexeme is refused with its own error. -/
theorem postorder_of_stray {before after : List Lexeme} {lexeme : Lexeme} {error : ParseError}
    (orderly : Orderly before) (level : depth before = 0)
    (fault : lexeme.token = .comma ∧ error = .misplacedComma lexeme.offset ∨
      lexeme.token = .rightParen ∧ error = .mismatchedParentheses lexeme.offset) :
    postorder (before ++ lexeme :: after) = .error error := by
  obtain ⟨opens, scanned⟩ := orderly_iff.1 orderly
  obtain rfl := nil_of_scan scanned level
  have failed : scan [] (lexeme :: after) = .error error := by
    rw [scan, List.foldlM_cons, scanStep_eq_error_iff.2 ⟨rfl, fault⟩]
    rfl
  have whole : scan [] (before ++ lexeme :: after) = .error error := by
    rw [scan_append, scanned]
    exact failed
  rw [← map_unit_eq_error_iff, map_unit_postorder, whole]
  rfl

/-- The last `(` that is left unclosed is refused at the end. -/
theorem postorder_of_unclosed {lexemes : List Lexeme} (orderly : Orderly lexemes)
    (deep : 0 < depth lexemes) : ∃ before opening after,
      LastUnclosed lexemes before opening after ∧
        postorder lexemes = .error (.mismatchedParentheses opening.offset) := by
  obtain ⟨opens, scanned⟩ := orderly_iff.1 orderly
  cases opens with
  | nil =>
      have level : depth lexemes = 0 := (depth_of_scan scanned).symm
      omega
  | cons start outer =>
      obtain ⟨before, opening, after, split, opens, rfl, unclosed, even⟩ :=
        @exists_unclosed lexemes [] outer start scanned
      refine ⟨before, opening, after, ⟨split, opens, unclosed, ?_⟩, ?_⟩
      · exact fun between later rest => unclosed.last even
      · rw [← map_unit_eq_error_iff, map_unit_postorder, scanned]
        rfl

/-- If every `(` is closed, there is a result. -/
theorem postorder_of_level {lexemes : List Lexeme} (orderly : Orderly lexemes)
    (level : depth lexemes = 0) : ∃ nodes, postorder lexemes = .ok nodes := by
  obtain ⟨opens, scanned⟩ := orderly_iff.1 orderly
  obtain rfl := nil_of_scan scanned level
  rw [← map_unit_eq_ok_iff, map_unit_postorder, scanned]
  rfl

/-- The first comma or `)` at depth zero is refused. Without one the depth is not negative at the
end: if it is positive, the last unclosed `(` is refused, and otherwise there is a result. Nothing
but parentheses and commas has a part in this. -/
theorem postorder_verdict (lexemes : List Lexeme) :
    (∀ before lexeme after, lexemes = before ++ lexeme :: after → Orderly before →
      depth before = 0 →
        (lexeme.token = .comma → postorder lexemes = .error (.misplacedComma lexeme.offset)) ∧
        (lexeme.token = .rightParen →
          postorder lexemes = .error (.mismatchedParentheses lexeme.offset))) ∧
    (Orderly lexemes → 0 ≤ depth lexemes ∧
      (0 < depth lexemes → ∃ before opening after, LastUnclosed lexemes before opening after ∧
        postorder lexemes = .error (.mismatchedParentheses opening.offset)) ∧
      (depth lexemes = 0 → ∃ nodes, postorder lexemes = .ok nodes)) ∧
    (postorder (lexemes.filter (·.token.isJudged))).map (fun _ => ()) =
      (postorder lexemes).map (fun _ => ()) := by
  refine ⟨?_, fun orderly => ⟨?_, postorder_of_unclosed orderly, postorder_of_level orderly⟩, ?_⟩
  · rintro before lexeme after rfl orderly level
    exact ⟨fun comma => postorder_of_stray orderly level (.inl ⟨comma, rfl⟩),
      fun closing => postorder_of_stray orderly level (.inr ⟨closing, rfl⟩)⟩
  · obtain ⟨opens, scanned⟩ := orderly_iff.1 orderly
    rw [← depth_of_scan scanned]
    exact Int.natCast_nonneg _
  · rw [map_unit_postorder, map_unit_postorder, scan_filter]

/-- In `(),)` the comma is refused and not the `)` behind it, in `(()` the first `(` and not the
second, which is closed; `()` is accepted. -/
theorem postorder_verdict_comma :
    postorder [⟨.leftParen, "(", 0⟩, ⟨.rightParen, ")", 1⟩, ⟨.comma, ",", 2⟩,
      ⟨.rightParen, ")", 3⟩] = .error (.misplacedComma 2) ∧
    (∃ before opening after,
      LastUnclosed [⟨.leftParen, "(", 0⟩, ⟨.leftParen, "(", 1⟩, ⟨.rightParen, ")", 2⟩]
        before opening after ∧
      postorder [⟨.leftParen, "(", 0⟩, ⟨.leftParen, "(", 1⟩, ⟨.rightParen, ")", 2⟩] =
        .error (.mismatchedParentheses opening.offset)) ∧
    ∃ nodes, postorder [⟨.leftParen, "(", 0⟩, ⟨.rightParen, ")", 1⟩] = .ok nodes := by
  have pair : Orderly [⟨.leftParen, "(", 0⟩, ⟨.rightParen, ")", 1⟩] := orderly_iff.2 ⟨[], rfl⟩
  have deep : Orderly [⟨.leftParen, "(", 0⟩, ⟨.leftParen, "(", 1⟩, ⟨.rightParen, ")", 2⟩] :=
    orderly_iff.2 ⟨[0], rfl⟩
  refine ⟨?_, ((postorder_verdict _).2.1 deep).2.1 (by decide),
    ((postorder_verdict _).2.1 pair).2.2 (by decide)⟩
  exact ((postorder_verdict _).1 [_, _] ⟨.comma, ",", 2⟩ _ rfl pair (by decide)).1 rfl

end Yard

end Calculator
