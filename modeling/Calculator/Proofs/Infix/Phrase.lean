import Calculator.Proofs.Expr.Worth
import Calculator.Proofs.Infix.Sentence

/-!
# Phrases, and why reading counts

A phrase is a sentence in which operands may be missing: `Phrase missing cues`
counts how many. It speaks of cues rather than tokens, so that it knows which
calls open a counter and which are seen to be empty; a `)` after brackets is no
empty call but one whose argument is missing.

**Counting.** A run over a phrase adds one less its missing operands to the
worth of what leaves and what waits (`follow_phrase`), because the counter of a
call stands at the commas that its arguments have between them. Nodes that spell
an expression are worth one, so a phrase that is read misses nothing
(`missing_eq_zero`), and then its tokens are a sentence (`Phrase.sentence`).
-/

set_option autoImplicit false

namespace Calculator.Infix

open Yard (released cues follow)

/-! ## Phrases -/

mutual
/-- Operands with operators between them, of which some may be missing. -/
inductive Phrase : Nat → List Cue → Prop where
  | operand {missing : Nat} {cues : List Cue} : Part missing cues → Phrase missing cues
  | binary {m n : Nat} {ls rs : List Cue} (op : BinaryOperator) (text : String) (offset : Nat)
      (beside : Bool) :
      Phrase m ls → Part n rs →
        Phrase (m + n) (ls ++ ⟨⟨.operator op, text, offset⟩, beside⟩ :: rs)

/-- An operand, or nothing in the place of one. -/
inductive Part : Nat → List Cue → Prop where
  | missing : Part 1 []
  | number (value : Float) (text : String) (offset : Nat) (beside : Bool) :
      Part 0 [⟨⟨.number value, text, offset⟩, beside⟩]
  | name (name text : String) (offset : Nat) : Part 0 [⟨⟨.name name, text, offset⟩, false⟩]
  | group {missing : Nat} {inner : List Cue} (left right : String) (start stop : Nat)
      (atLeft atRight : Bool) :
      Phrase missing inner →
        Part missing
          (⟨⟨.leftParen, left, start⟩, atLeft⟩ ::
            (inner ++ [⟨⟨.rightParen, right, stop⟩, atRight⟩]))
  | emptyCall (name text left right : String) (offset start stop : Nat) (atLeft : Bool) :
      Part 0 [⟨⟨.name name, text, offset⟩, true⟩, ⟨⟨.leftParen, left, start⟩, atLeft⟩,
        ⟨⟨.rightParen, right, stop⟩, true⟩]
  | call {missing : Nat} {inner : List Cue} (name text left right : String)
      (offset start stop : Nat) (atLeft : Bool) :
      Parts missing inner →
        Part missing
          (⟨⟨.name name, text, offset⟩, true⟩ :: ⟨⟨.leftParen, left, start⟩, atLeft⟩ ::
            (inner ++ [⟨⟨.rightParen, right, stop⟩, false⟩]))

/-- One or more phrases with commas between them. -/
inductive Parts : Nat → List Cue → Prop where
  | one {missing : Nat} {cues : List Cue} : Phrase missing cues → Parts missing cues
  | more {m n : Nat} {ls rs : List Cue} (text : String) (offset : Nat) (beside : Bool) :
      Parts m ls → Phrase n rs →
        Parts (m + n) (ls ++ ⟨⟨.comma, text, offset⟩, beside⟩ :: rs)
end

mutual
/-- A phrase that misses nothing is a sentence. -/
theorem Phrase.sentence {missing : Nat} {cues : List Cue} (phrase : Phrase missing cues)
    (whole : missing = 0) : Sentence (cues.map Cue.token) := by
  match phrase with
  | .operand part => exact .operand (part.operand whole)
  | .binary op text offset beside left right =>
      rw [List.map_append]
      exact .binary op (left.sentence (by omega)) (right.operand (by omega))

theorem Part.operand {missing : Nat} {cues : List Cue} (part : Part missing cues)
    (whole : missing = 0) : Operand (cues.map Cue.token) := by
  match part with
  | .missing => cases whole
  | .number value text offset beside => exact .number value
  | .name name text offset => exact .name name
  | .group left right start stop atLeft atRight inside =>
      rw [List.map_cons, List.map_append]
      exact .group (inside.sentence whole)
  | .emptyCall name text left right offset start stop atLeft => exact .emptyCall name
  | .call name text left right offset start stop atLeft inside =>
      rw [List.map_cons, List.map_cons, List.map_append]
      exact .call name (inside.arguments whole)

theorem Parts.arguments {missing : Nat} {cues : List Cue} (parts : Parts missing cues)
    (whole : missing = 0) : Arguments (cues.map Cue.token) := by
  match parts with
  | .one phrase => exact .one (phrase.sentence whole)
  | .more text offset beside first last =>
      rw [List.map_append]
      exact .more (first.arguments (by omega)) (last.sentence (by omega))
end

/-- An operator joins two phrases. -/
theorem Phrase.joined {m n : Nat} {ls rs : List Cue} (left : Phrase m ls) (op : BinaryOperator)
    (text : String) (offset : Nat) (beside : Bool) (right : Phrase n rs) :
    Phrase (m + n) (ls ++ ⟨⟨.operator op, text, offset⟩, beside⟩ :: rs) := by
  match right with
  | .operand part => exact .binary op text offset beside left part
  | .binary last lastText lastOffset lastBeside first part =>
      have whole := Phrase.binary last lastText lastOffset lastBeside
        (left.joined op text offset beside first) part
      simpa [Nat.add_assoc] using whole

/-- A comma sets a phrase before further ones. -/
theorem Parts.joined {m n : Nat} {ls rs : List Cue} (first : Phrase m ls) (text : String)
    (offset : Nat) (beside : Bool) (others : Parts n rs) :
    Parts (m + n) (ls ++ ⟨⟨.comma, text, offset⟩, beside⟩ :: rs) := by
  match others with
  | .one phrase => exact .more text offset beside (.one first) phrase
  | .more lastText lastOffset lastBeside before phrase =>
      have whole := Parts.more lastText lastOffset lastBeside
        (Parts.joined first text offset beside before) phrase
      simpa [Nat.add_assoc] using whole

/-! ## What a phrase does to the yard -/

/-- The entries above the innermost open parenthesis, or above the bottom of the stack. -/
structure Block (above below : List Waiting) : Prop where
  inner : ∀ w ∈ above, w.isParen = false
  bottom : ∀ w ∈ below.head?, w.isParen = true

theorem block_paren (start : Nat) (below : List Waiting) : Block [] (.paren start :: below) where
  inner := by simp
  bottom w top := by
    obtain rfl : Waiting.paren start = w := by simpa using top
    rfl

/-- An operator moves a part of its block to the output and leaves the rest. -/
theorem operator_block {above below : List Waiting} (block : Block above below)
    (output : Array Node) (counters : List Nat) (op : BinaryOperator) (offset : Nat) :
    ∃ nodes kept, Block kept below ∧
      worth nodes + worth (released kept) = worth (released above) ∧
      (Yard.mk output (above ++ below) counters).operator op offset =
        ⟨output ++ nodes, .operator op offset :: kept ++ below, counters⟩ := by
  obtain ⟨tight, loose, split, binds, arrives⟩ :=
    Yard.operator_split ⟨output, above ++ below, counters⟩ op offset
  -- The parenthesis below the block binds nothing, so what leaves is a part of the block.
  obtain ⟨kept, rfl, rfl⟩ : ∃ kept, above = tight ++ kept ∧ loose = kept ++ below := by
    rcases List.append_eq_append_iff.1 split with ⟨beyond, rfl, rest⟩ | ⟨kept, isAbove, isLoose⟩
    · cases beyond with
      | nil => exact ⟨[], by simp, by simpa using rest.symm⟩
      | cons w others =>
          have isParen := block.bottom w (by rw [rest]; rfl)
          have noParen := Waiting.isParen_of_bindsAtLeast (binds w (by simp))
          rw [isParen] at noParen
          cases noParen
    · exact ⟨kept, isAbove, isLoose⟩
  refine ⟨released tight, kept, ⟨fun w member => block.inner w (by simp [member]), block.bottom⟩,
    ?_, arrives⟩
  rw [Yard.released_append, worth_append]

mutual
/-- A phrase adds one less its missing operands to the worth of a block. -/
theorem follow_phrase {missing : Nat} {phraseCues : List Cue}
    (phrase : Phrase missing phraseCues) (above below : List Waiting) (block : Block above below)
    (fresh : ∀ w ∈ (above ++ below).head?, w.isName = false)
    (output : Array Node) (counters : List Nat) (rest : List Cue) :
    ∃ nodes pending, Block pending below ∧
      worth nodes + worth (released pending) = worth (released above) + 1 - missing ∧
      (phraseCues ++ rest).foldlM follow (Yard.mk output (above ++ below) counters) =
        rest.foldlM follow (Yard.mk (output ++ nodes) (pending ++ below) counters) := by
  match phrase with
  | .operand part => exact follow_part part above below block fresh output counters rest
  | .binary op text offset beside left right =>
      rename_i m n ls rs
      obtain ⟨leftNodes, leftPending, leftBlock, leftWorth, leftRuns⟩ :=
        follow_phrase left above below block fresh output counters
          (⟨⟨.operator op, text, offset⟩, beside⟩ :: (rs ++ rest))
      obtain ⟨popped, kept, keptBlock, keptWorth, arrives⟩ :=
        operator_block leftBlock (output ++ leftNodes) counters op offset
      have waiting : Block (.operator op offset :: kept) below :=
        ⟨by simpa [Waiting.isParen] using keptBlock.inner, keptBlock.bottom⟩
      obtain ⟨nodes, pending, rightBlock, rightWorth, rightRuns⟩ :=
        follow_part right (.operator op offset :: kept) below waiting (by simp [Waiting.isName])
          (output ++ leftNodes ++ popped) counters rest
      refine ⟨leftNodes ++ (popped ++ nodes), pending, rightBlock, ?_, ?_⟩
      · have waits :
            worth (released (.operator op offset :: kept)) = worth (released kept) - 1 := by
          change worth (.operator op offset :: released kept) = _
          rw [worth_cons, Node.worth]
          omega
        rw [worth_append, worth_append]
        omega
      · calc List.foldlM follow (Yard.mk output (above ++ below) counters)
              ((ls ++ ⟨⟨.operator op, text, offset⟩, beside⟩ :: rs) ++ rest)
            = List.foldlM follow (Yard.mk (output ++ leftNodes) (leftPending ++ below) counters)
                (⟨⟨.operator op, text, offset⟩, beside⟩ :: (rs ++ rest)) := by
              rw [List.append_assoc, List.cons_append, leftRuns]
          _ = (rs ++ rest).foldlM follow
                ((Yard.mk (output ++ leftNodes) (leftPending ++ below) counters).operator op
                  offset) := rfl
          _ = _ := by
              rw [arrives, rightRuns, Yard.appendList_appendList, Yard.appendList_appendList]

theorem follow_part {missing : Nat} {partCues : List Cue} (part : Part missing partCues)
    (above below : List Waiting) (block : Block above below)
    (fresh : ∀ w ∈ (above ++ below).head?, w.isName = false)
    (output : Array Node) (counters : List Nat) (rest : List Cue) :
    ∃ nodes pending, Block pending below ∧
      worth nodes + worth (released pending) = worth (released above) + 1 - missing ∧
      (partCues ++ rest).foldlM follow (Yard.mk output (above ++ below) counters) =
        rest.foldlM follow (Yard.mk (output ++ nodes) (pending ++ below) counters) := by
  match part with
  | .missing => exact ⟨[], above, block, by simp, by rw [Array.appendList_nil]; rfl⟩
  | .number value text offset beside =>
      refine ⟨[.number value offset], above, block, by simp [Node.worth]; omega, ?_⟩
      rw [← Yard.push_eq_appendList]
      rfl
  | .name name text offset =>
      refine ⟨[], .name name offset :: above,
        ⟨by simpa [Waiting.isParen] using block.inner, block.bottom⟩, ?_, ?_⟩
      · change worth [] + worth (.call name 0 offset :: released above) = _
        rw [worth_nil, worth_cons, Node.worth]
        omega
      · rw [Array.appendList_nil]
        rfl
  | .group left right start stop atLeft atRight inside =>
      rename_i inner
      obtain ⟨nodes, pending, pendingBlock, counted, runs⟩ :=
        follow_phrase inside [] (.paren start :: (above ++ below)) (block_paren _ _)
          (by simp [Waiting.isName]) output counters
          (⟨⟨.rightParen, right, stop⟩, atRight⟩ :: rest)
      refine ⟨nodes ++ released pending, above, block, ?_, ?_⟩
      · rw [worth_append, counted, Yard.released_nil, worth_nil]
        omega
      · calc List.foldlM follow (Yard.mk output (above ++ below) counters)
              (⟨⟨.leftParen, left, start⟩, atLeft⟩ ::
                (inner ++ [⟨⟨.rightParen, right, stop⟩, atRight⟩]) ++ rest)
            = List.foldlM follow (Yard.mk output (.paren start :: (above ++ below)) counters)
                (inner ++ ⟨⟨.rightParen, right, stop⟩, atRight⟩ :: rest) := by
              rw [List.cons_append, List.append_assoc]; rfl
          _ = _ := runs
          _ = _ := by
              rw [List.foldlM_cons, Yard.follow_rightParen, Yard.close_append pendingBlock.inner,
                Yard.closeCall_of_not_name fresh, Yard.appendList_appendList]
              rfl
  | .emptyCall name text left right offset start stop atLeft =>
      refine ⟨[.call name 0 offset], above, block, by simp [Node.worth]; omega, ?_⟩
      rw [← Yard.push_eq_appendList]
      rfl
  | .call name text left right offset start stop atLeft inside =>
      rename_i inner
      obtain ⟨nodes, pending, commas, pendingBlock, counted, runs⟩ :=
        follow_parts inside output start (.name name offset :: (above ++ below)) counters
          (⟨⟨.rightParen, right, stop⟩, false⟩ :: rest)
      refine ⟨nodes ++ (released pending ++ [.call name (commas + 1) offset]), above, block, ?_, ?_⟩
      · rw [worth_append, worth_append, worth_cons, worth_nil, Node.worth]
        omega
      · calc List.foldlM follow (Yard.mk output (above ++ below) counters)
              (⟨⟨.name name, text, offset⟩, true⟩ :: ⟨⟨.leftParen, left, start⟩, atLeft⟩ ::
                (inner ++ [⟨⟨.rightParen, right, stop⟩, false⟩]) ++ rest)
            = List.foldlM follow
                (Yard.mk output (.paren start :: .name name offset :: (above ++ below))
                  (0 :: counters))
                (inner ++ ⟨⟨.rightParen, right, stop⟩, false⟩ :: rest) := by
              rw [List.cons_append, List.cons_append, List.append_assoc]; rfl
          _ = _ := runs
          _ = _ := by
              rw [List.foldlM_cons, Yard.follow_rightParen, Yard.close_append pendingBlock.inner,
                Yard.closeCall_name, Yard.push_eq_appendList, Yard.appendList_appendList,
                Yard.appendList_appendList]
              rfl

/-- Arguments, read after the parenthesis of their call, advance its counter by the commas between
them. -/
theorem follow_parts {missing : Nat} {partsCues : List Cue} (parts : Parts missing partsCues)
    (output : Array Node) (start : Nat) (stack : List Waiting) (counters : List Nat)
    (rest : List Cue) :
    ∃ nodes pending commas, Block pending (.paren start :: stack) ∧
      worth nodes + worth (released pending) = (commas + 1 : Nat) - missing ∧
      (partsCues ++ rest).foldlM follow (Yard.mk output (.paren start :: stack) (0 :: counters)) =
        rest.foldlM follow
          (Yard.mk (output ++ nodes) (pending ++ .paren start :: stack) (commas :: counters)) := by
  match parts with
  | .one phrase =>
      obtain ⟨nodes, pending, pendingBlock, counted, runs⟩ :=
        follow_phrase phrase [] (.paren start :: stack) (block_paren start stack)
          (by simp [Waiting.isName]) output (0 :: counters) rest
      exact ⟨nodes, pending, 0, pendingBlock, by simpa using counted, runs⟩
  | .more text offset beside first last =>
      rename_i m n ls rs
      obtain ⟨firstNodes, firstPending, commas, firstBlock, firstCounted, firstRuns⟩ :=
        follow_parts first output start stack counters
          (⟨⟨.comma, text, offset⟩, beside⟩ :: (rs ++ rest))
      obtain ⟨nodes, pending, pendingBlock, counted, runs⟩ :=
        follow_phrase last [] (.paren start :: stack) (block_paren start stack)
          (by simp [Waiting.isName]) (output ++ firstNodes ++ released firstPending)
          ((commas + 1) :: counters) rest
      refine ⟨firstNodes ++ (released firstPending ++ nodes), pending, commas + 1, pendingBlock,
        ?_, ?_⟩
      · rw [Yard.released_nil, worth_nil] at counted
        rw [worth_append, worth_append]
        omega
      · have arrives : (Yard.mk (output ++ firstNodes) (firstPending ++ .paren start :: stack)
            (commas :: counters)).comma offset =
              .ok ⟨output ++ firstNodes ++ released firstPending, .paren start :: stack,
                (commas + 1) :: counters⟩ := Yard.comma_append firstBlock.inner start offset
        calc List.foldlM follow (Yard.mk output (.paren start :: stack) (0 :: counters))
              ((ls ++ ⟨⟨.comma, text, offset⟩, beside⟩ :: rs) ++ rest)
            = List.foldlM follow
                (Yard.mk (output ++ firstNodes) (firstPending ++ .paren start :: stack)
                  (commas :: counters))
                (⟨⟨.comma, text, offset⟩, beside⟩ :: (rs ++ rest)) := by
              rw [List.append_assoc, List.cons_append, firstRuns]
          _ = ((Yard.mk (output ++ firstNodes) (firstPending ++ .paren start :: stack)
                (commas :: counters)).comma offset >>=
                  fun next => (rs ++ rest).foldlM follow next) := rfl
          _ = (rs ++ rest).foldlM follow
                (Yard.mk (output ++ firstNodes ++ released firstPending) (.paren start :: stack)
                  ((commas + 1) :: counters)) := by rw [arrives]; rfl
          _ = _ := runs
          _ = _ := by
              rw [Yard.appendList_appendList, Yard.appendList_appendList]
end

/-! ## What is read misses nothing -/

/-- A text whose cues are a phrase is read only if the phrase misses no operand. -/
theorem missing_eq_zero {missing : Nat} {lexemes : List Lexeme} {e : Expr}
    (phrase : Phrase missing (cues none lexemes)) (accepted : Expr.ofLexemes lexemes = .ok e) :
    missing = 0 := by
  obtain ⟨nodes, pending, block, counted, runs⟩ :=
    follow_phrase phrase [] [] ⟨by simp, by simp⟩ (by simp) #[] [] []
  have ended : (cues none lexemes).foldlM follow Yard.empty =
      .ok ⟨(#[] : Array Node) ++ nodes, pending, []⟩ := by
    rw [List.append_nil, List.append_nil, List.append_nil] at runs
    exact runs
  rw [Yard.ofLexemes_eq_follow, ended] at accepted
  have built : Expr.ofPostorder (nodes ++ released pending) = .ok e := by
    have finished : (Yard.mk ((#[] : Array Node) ++ nodes) pending []).finish =
        .ok (nodes ++ released pending) := by
      rw [Yard.finish_of_no_paren block.inner]
      simp
    rw [← accepted]
    change _ = Yard.finish _ >>= Expr.ofPostorder
    rw [finished]
    rfl
  have whole := Expr.worth_of_ofPostorder built
  rw [worth_append, counted, Yard.released_nil, worth_nil] at whole
  omega

end Calculator.Infix
