import Calculator.Proofs.Token.Lookahead
import Mathlib.Data.List.Chain

/-!
# A literal is the longest run

A run is said without a scan: every character of it continues a literal on its
own, or is a sign that directly follows an exponent mark, and the run has no
radix mark (`IsRun`). What the scan takes is the longest run that a text begins
with (`longestRun_extent`).

**Nothing too much.** Each character that the scan takes follows the one before
it in a run (`isChain_take_extent`).

**Nothing missing.** The scan takes an exponent mark and its sign in one step, so
when it looks at a sign no exponent mark stands before it. With that invariant it
takes at least what any run takes (`length_le_extent`).

Whether a run has a radix mark is a question about the run, and the scan asks it
about the text. The answers differ only for a run of one character.
-/

set_option autoImplicit false

namespace Calculator.Literal

/-- A text begins with a zero and the mark of a radix. -/
def RadixMarked (text : List Char) : Prop :=
  ∃ mark rest, text = '0' :: mark :: rest ∧ mark ∈ ['x', 'X', 'b', 'B']

/-- A character can follow another one in a literal: it continues literals on its own, or it is a
sign after an exponent mark where such signs count. -/
def Follows (signed : Prop) (previous c : Char) : Prop :=
  isLiteralChar c = true ∨ signed ∧ isExponentMark previous = true ∧ isSign c = true

/-- A text in which every character continues a literal. Signs after exponent marks count unless it
has a radix mark. -/
structure IsRun (text : List Char) : Prop where
  begins : ∀ c ∈ text.head?, isLiteralChar c = true
  follows : text.IsChain (Follows (¬ RadixMarked text))

/-- The longest run that a text begins with. -/
structure LongestRun (text run : List Char) : Prop where
  begins : run <+: text
  isRun : IsRun run
  longest : ∀ other, other <+: text → IsRun other → other <+: run

theorem LongestRun.unique {text run other : List Char} (first : LongestRun text run)
    (second : LongestRun text other) : run = other := by
  have inside : run <+: other := second.longest run first.begins first.isRun
  have around : other <+: run := first.longest other second.begins second.isRun
  exact inside.eq_of_length_le around.length_le

/-! ## The characters that a scan takes -/

/-- The characters that a scan takes follow one another. -/
theorem isChain_take_extent (signed : Bool) (previous : Char) (text : List Char) :
    List.IsChain (Follows (signed = true)) (previous :: text.take (extent signed text)) := by
  induction text using extent.induct signed generalizing previous with
  | case1 => exact .singleton previous
  | case2 c literal =>
      rw [extent, if_pos literal]
      exact .cons_cons (.inl literal) (.singleton c)
  | case3 c stops =>
      rw [extent, if_neg stops]
      exact .singleton previous
  | case4 c next rest stops =>
      rw [extent, if_pos stops]
      exact .singleton previous
  | case5 c next rest continues mark ih =>
      have literal : isLiteralChar c = true := by simpa using continues
      rw [extent, if_neg continues, if_pos mark]
      simp only [Bool.and_eq_true] at mark
      exact .cons_cons (.inl literal) (.cons_cons (.inr ⟨mark.1.1, mark.1.2, mark.2⟩) (ih next))
  | case6 c next rest continues unmarked ih =>
      have literal : isLiteralChar c = true := by simpa using continues
      rw [extent, if_neg continues, if_neg unmarked]
      exact .cons_cons (.inl literal) (ih c)

/-- A character that follows another one continues literals on its own, if it is no sign behind an
exponent mark. -/
theorem Follows.isLiteralChar {signed : Bool} {previous c : Char} {rest : List Char}
    (follows : Follows (signed = true) previous c)
    (apart : (signed && isExponentMark previous && startsWith isSign (c :: rest)) = false) :
    isLiteralChar c = true := by
  rcases follows with literal | ⟨counts, mark, sign⟩
  · exact literal
  · simp [counts, mark, startsWith, sign] at apart

theorem isExponentMark_of_isSign {c : Char} (sign : isSign c = true) :
    isExponentMark c = false := by
  simp only [isSign, Bool.or_eq_true, beq_iff_eq] at sign
  rcases sign with rfl | rfl
  · rfl
  · rfl

/-- Characters that follow one another are taken by a scan that does not begin with a sign behind an
exponent mark. -/
theorem length_le_extent {signed : Bool} {previous : Char} {text more : List Char}
    (isPrefix : more <+: text)
    (chain : List.IsChain (Follows (signed = true)) (previous :: more))
    (apart : (signed && isExponentMark previous && startsWith isSign text) = false) :
    more.length ≤ extent signed text := by
  induction text using extent.induct signed generalizing previous more with
  | case1 => simp [List.prefix_nil.1 isPrefix]
  | case2 c literal =>
      rw [extent, if_pos literal]
      simpa using isPrefix.length_le
  | case3 c stops =>
      rcases more with _ | ⟨first, others⟩
      · exact Nat.zero_le _
      · obtain ⟨rfl, -⟩ := List.cons_prefix_cons.1 isPrefix
        exact absurd ((List.isChain_cons_cons.1 chain).1.isLiteralChar apart) stops
  | case4 c next rest stops =>
      rcases more with _ | ⟨first, others⟩
      · exact Nat.zero_le _
      · obtain ⟨rfl, -⟩ := List.cons_prefix_cons.1 isPrefix
        simp [(List.isChain_cons_cons.1 chain).1.isLiteralChar apart] at stops
  | case5 c next rest continues mark ih =>
      rw [extent, if_neg continues, if_pos mark]
      simp only [Bool.and_eq_true] at mark
      rcases more with _ | ⟨first, _ | ⟨second, others⟩⟩
      · exact Nat.zero_le _
      · exact Nat.le_add_left 1 _
      · obtain ⟨rfl, behindFirst⟩ := List.cons_prefix_cons.1 isPrefix
        obtain ⟨rfl, behindSecond⟩ := List.cons_prefix_cons.1 behindFirst
        have chainBehind := (List.isChain_cons_cons.1 (List.isChain_cons_cons.1 chain).2).2
        exact Nat.add_le_add_right
          (ih behindSecond chainBehind (by simp [isExponentMark_of_isSign mark.2])) 2
  | case6 c next rest continues unmarked ih =>
      rw [extent, if_neg continues, if_neg unmarked]
      rcases more with _ | ⟨first, others⟩
      · exact Nat.zero_le _
      · obtain ⟨rfl, behindFirst⟩ := List.cons_prefix_cons.1 isPrefix
        have chainBehind := (List.isChain_cons_cons.1 chain).2
        exact Nat.add_le_add_right (ih behindFirst chainBehind (Bool.eq_false_iff.2 unmarked)) 1

/-! ## Whole literals -/

/-- A radix mark is seen at the second character. -/
theorem radixMarked_cons {first : Char} {rest : List Char} :
    RadixMarked (first :: rest) ↔ hasRadixMark first rest = true := by
  constructor
  · rintro ⟨mark, others, whole, isMark⟩
    obtain ⟨rfl, rfl⟩ := List.cons.inj whole
    simpa [hasRadixMark, startsWith, isRadixMark, or_assoc] using isMark
  · intro marked
    rcases rest with _ | ⟨mark, others⟩
    · simp [hasRadixMark, startsWith] at marked
    · simp only [hasRadixMark, startsWith, isRadixMark, List.head?_cons, Option.any_some,
        Bool.and_eq_true, Bool.or_eq_true, beq_iff_eq, or_assoc] at marked
      exact ⟨mark, others, by rw [marked.1], by simpa using marked.2⟩

/-- Signs count in a run that keeps the radix mark of its text, as they do for the scan. -/
theorem follows_eq {first : Char} {rest kept : List Char}
    (same : hasRadixMark first kept = hasRadixMark first rest) :
    Follows (¬ RadixMarked (first :: kept)) = Follows ((!hasRadixMark first rest) = true) := by
  have counts : (¬ RadixMarked (first :: kept)) = ((!hasRadixMark first rest) = true) := by
    rw [radixMarked_cons, same, Bool.not_eq_true', Bool.not_eq_true]
  rw [counts]

/-- A scan from a digit or a point takes the longest run. -/
theorem longestRun_extent {first : Char} {rest : List Char} (literal : isLiteralChar first = true)
    (unmarked : isExponentMark first = false) :
    LongestRun (first :: rest)
      (first :: rest.take (extent (!hasRadixMark first rest) rest)) where
  begins := List.cons_prefix_cons.2 ⟨rfl, List.take_prefix _ _⟩
  isRun := by
    constructor
    · simpa using literal
    · rw [follows_eq (hasRadixMark_take (Nat.le_refl _))]
      exact isChain_take_extent _ _ _
  longest := by
    rintro (_ | ⟨c, _ | ⟨second, others⟩⟩) isPrefix run
    · exact List.nil_prefix
    · obtain ⟨rfl, -⟩ := List.cons_prefix_cons.1 isPrefix
      exact List.cons_prefix_cons.2 ⟨rfl, List.nil_prefix⟩
    · obtain ⟨rfl, behindFirst⟩ := List.cons_prefix_cons.1 isPrefix
      have same : hasRadixMark c (second :: others) = hasRadixMark c rest := by
        obtain ⟨behind, rfl⟩ := behindFirst
        rfl
      have chain := run.follows
      rw [follows_eq same] at chain
      have taken := length_le_extent behindFirst chain (by simp [unmarked])
      refine List.cons_prefix_cons.2 ⟨rfl, ?_⟩
      refine List.prefix_of_prefix_length_le behindFirst (List.take_prefix _ _) ?_
      rw [List.length_take]
      exact Nat.le_min.2 ⟨taken, behindFirst.length_le⟩

end Calculator.Literal
