import Calculator.Proofs.Outcome
import Calculator.Proofs.Yard.Cues

/-!
# Parentheses decide how a run of the yard ends

`scan` reads nothing but parentheses and commas. It keeps the offsets of the
parentheses that are open, the innermost first, and fails at a comma or a `)`
where none is. These are the failures of the yard (`map_openOffsets_run`): the
open parentheses among the entries that wait are always those of the scan, so
operators, names, numbers, brackets and counters have no part in them.
-/

set_option autoImplicit false

namespace Calculator.Yard

/-- The offset of an entry that is an open parenthesis. -/
def openOffset? : Waiting → Option Nat
  | .paren offset => some offset
  | _ => none

/-- The offsets of the open parentheses of a stack, the innermost first. -/
def openOffsets (stack : List Waiting) : List Nat := stack.filterMap openOffset?

/-- One lexeme, for its parentheses alone. -/
def scanStep (opens : List Nat) (lexeme : Lexeme) : Except ParseError (List Nat) :=
  match lexeme.token, opens with
  | .leftParen, _ => .ok (lexeme.offset :: opens)
  | .rightParen, _ :: outer => .ok outer
  | .rightParen, [] => .error (.mismatchedParentheses lexeme.offset)
  | .comma, [] => .error (.misplacedComma lexeme.offset)
  | _, _ => .ok opens

/-- Lexemes, for their parentheses alone. -/
def scan (opens : List Nat) (lexemes : List Lexeme) : Except ParseError (List Nat) :=
  lexemes.foldlM scanStep opens

theorem scanStep_of_silent {lexeme : Lexeme} (silent : lexeme.token.isSilent = true)
    (opens : List Nat) : scanStep opens lexeme = .ok opens := by
  obtain ⟨token, text, offset⟩ := lexeme
  cases token with
  | leftBracket => rfl
  | rightBracket => rfl
  | endOfText => rfl
  | _ => cases silent

/-! ## Open parentheses of a stack -/

theorem openOffsets_append (above below : List Waiting) :
    openOffsets (above ++ below) = openOffsets above ++ openOffsets below := by
  simp [openOffsets]

theorem openOffsets_eq_nil {stack : List Waiting} (noParen : ∀ w ∈ stack, w.isParen = false) :
    openOffsets stack = [] := by
  rw [openOffsets, List.filterMap_eq_nil_iff]
  intro w member
  have notParen := noParen w member
  cases w with
  | paren offset => simp [Waiting.isParen] at notParen
  | _ => rfl

/-- A stack has no open parenthesis, or splits at the innermost one. -/
theorem split_at_paren (stack : List Waiting) :
    (∀ w ∈ stack, w.isParen = false) ∨
      ∃ above start below, stack = above ++ .paren start :: below ∧
        ∀ w ∈ above, w.isParen = false := by
  induction stack with
  | nil => exact .inl (by simp)
  | cons w rest ih =>
      cases w with
      | paren start => exact .inr ⟨[], start, rest, rfl, by simp⟩
      | operator op offset | name text offset =>
          rcases ih with noParen | ⟨above, start, below, rfl, inner⟩
          · exact .inl (by simpa [Waiting.isParen] using noParen)
          · exact .inr ⟨_ :: above, start, below, rfl, by simpa [Waiting.isParen] using inner⟩

theorem openOffsets_split {above below : List Waiting} (inner : ∀ w ∈ above, w.isParen = false)
    (start : Nat) : openOffsets (above ++ .paren start :: below) = start :: openOffsets below := by
  rw [openOffsets_append, openOffsets_eq_nil inner]
  rfl

/-- A comma is accepted within a parenthesis, and what waits above that leaves. -/
theorem stack_of_comma {yard next : Yard} {offset : Nat}
    (accepted : yard.comma offset = .ok next) :
    ∃ above start below, yard.stack = above ++ .paren start :: below ∧
      next = ⟨yard.output ++ released above, .paren start :: below, advance yard.counters⟩ := by
  obtain ⟨output, stack, counters⟩ := yard
  rcases split_at_paren stack with noParen | ⟨above, start, below, rfl, inner⟩
  · rw [comma_of_no_paren noParen] at accepted
    cases accepted
  · rw [comma_append inner] at accepted
    exact ⟨above, start, below, rfl, (Except.ok.inj accepted).symm⟩

/-- A `)` is accepted within a parenthesis, which goes with what waits above it. -/
theorem stack_of_close {yard next : Yard} {empty : Bool} {offset : Nat}
    (accepted : yard.close empty offset = .ok next) :
    ∃ above start below, yard.stack = above ++ .paren start :: below ∧
      next = (Yard.mk (yard.output ++ released above) below yard.counters).closeCall empty := by
  obtain ⟨output, stack, counters⟩ := yard
  rcases split_at_paren stack with noParen | ⟨above, start, below, rfl, inner⟩
  · rw [close_of_no_paren noParen] at accepted
    cases accepted
  · rw [close_append inner] at accepted
    exact ⟨above, start, below, rfl, (Except.ok.inj accepted).symm⟩

/-! ## Steps and runs -/

theorem openOffsets_operator (yard : Yard) (op : BinaryOperator) (offset : Nat) :
    openOffsets (yard.operator op offset).stack = openOffsets yard.stack := by
  obtain ⟨tight, loose, split, binds, arrives⟩ := operator_split yard op offset
  have noParen : openOffsets tight = [] :=
    openOffsets_eq_nil fun w member => Waiting.isParen_of_bindsAtLeast (binds w member)
  rw [arrives, split, openOffsets_append, noParen]
  rfl

theorem openOffsets_closeCall (yard : Yard) (empty : Bool) :
    openOffsets (yard.closeCall empty).stack = openOffsets yard.stack := by
  obtain ⟨output, stack, counters⟩ := yard
  cases stack with
  | nil => rfl
  | cons w rest => cases w with
      | operator op offset => rfl
      | name text offset => rfl
      | paren offset => rfl

/-- A step succeeds or fails with the scan, and leaves the same parentheses open. -/
theorem map_openOffsets_step (yard : Yard) (before? after? : Option Token) (lexeme : Lexeme) :
    (yard.step before? after? lexeme).map (fun next => openOffsets next.stack) =
      scanStep (openOffsets yard.stack) lexeme := by
  obtain ⟨output, stack, counters⟩ := yard
  obtain ⟨token, text, offset⟩ := lexeme
  cases token with
  | operator op =>
      exact congrArg Except.ok (openOffsets_operator ⟨output, stack, counters⟩ op offset)
  | rightParen =>
      rcases split_at_paren stack with noParen | ⟨above, start, below, rfl, inner⟩
      · simp only [step, close_of_no_paren noParen, scanStep, openOffsets_eq_nil noParen]
        rfl
      · simp only [step, close_append inner, scanStep, openOffsets_split inner]
        exact congrArg Except.ok (openOffsets_closeCall _ _)
  | comma =>
      rcases split_at_paren stack with noParen | ⟨above, start, below, rfl, inner⟩
      · simp only [step, comma_of_no_paren noParen, scanStep, openOffsets_eq_nil noParen]
        rfl
      · simp only [step, comma_append inner, scanStep, openOffsets_split inner]
        rfl
  | _ => rfl

/-- A run succeeds or fails with the scan, and leaves the same parentheses open. -/
theorem map_openOffsets_run (lexemes : List Lexeme) (yard : Yard) (before? : Option Token) :
    (yard.run before? lexemes).map (fun next => openOffsets next.stack) =
      scan (openOffsets yard.stack) lexemes := by
  induction lexemes generalizing yard before? with
  | nil => rfl
  | cons lexeme rest ih =>
      have first := map_openOffsets_step yard before? (rest.head?.map Lexeme.token) lexeme
      rw [run, scan, List.foldlM_cons, ← first]
      cases yard.step before? (rest.head?.map Lexeme.token) lexeme with
      | error error => rfl
      | ok next => exact ih next (some lexeme.token)

/-- What the offsets of the parentheses still open at the end mean: the innermost one is refused. -/
def ended : List Nat → Except ParseError Unit
  | [] => .ok ()
  | start :: _ => .error (.mismatchedParentheses start)

/-- The end accepts just a stack without an open parenthesis. -/
theorem map_unit_finish (yard : Yard) :
    yard.finish.map (fun _ => ()) = ended (openOffsets yard.stack) := by
  rcases split_at_paren yard.stack with noParen | ⟨above, start, below, split, inner⟩
  · obtain ⟨output, stack, counters⟩ := yard
    rw [finish_of_no_paren noParen, openOffsets_eq_nil noParen]
    rfl
  · have absent : above.find? Waiting.isParen = none :=
      List.find?_eq_none.2 fun w member => by simp [inner w member]
    have found : yard.stack.find? Waiting.isParen = some (.paren start) := by
      rw [split, List.find?_append, absent]
      rfl
    rw [split, openOffsets_split inner]
    simp only [finish, found]
    rfl

/-- Whether the yard accepts lexemes, and why not, is decided by the scan. -/
theorem map_unit_postorder (lexemes : List Lexeme) :
    (postorder lexemes).map (fun _ => ()) = scan [] lexemes >>= ended := by
  have whole : (empty.run none lexemes).map (fun next => openOffsets next.stack) =
      scan [] lexemes := map_openOffsets_run lexemes empty none
  rw [postorder, ← whole]
  cases empty.run none lexemes with
  | error error => rfl
  | ok yard => exact map_unit_finish yard

/-- In a text that the yard accepts, every parenthesis has its partner. -/
theorem scan_of_postorder {lexemes : List Lexeme} {nodes : List Node}
    (accepted : postorder lexemes = .ok nodes) : scan [] lexemes = .ok [] := by
  have verdict := map_unit_eq_ok_iff.2 ⟨nodes, accepted⟩
  rw [map_unit_postorder] at verdict
  obtain ⟨opens, scanned, settled⟩ := bind_eq_ok_iff.1 verdict
  cases opens with
  | nil => exact scanned
  | cons start outer => cases settled

end Calculator.Yard
