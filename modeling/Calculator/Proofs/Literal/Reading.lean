import Calculator.Proofs.Literal.Extent
import Calculator.Proofs.Literal.Grammar
import Calculator.Proofs.Token.Tiling

/-!
# Literals are read whole

`Arrives` follows the reading of a text from its beginning: over a separator, or
over a piece that is a token. What a text is read as is what was read up to a
place it comes to and then the reading of the rest (`Arrives.ofText_eq`), and these
are all the places where something begins: every lexeme (`Arrives.of_ok`), and the
piece of an error (`Arrives.of_error`).

Where a number begins, with a digit or with a point before a digit, the reading
takes the longest run of characters that continue a literal. How far that run
goes and what it means are two questions, answered by two functions: the run is
that of `longestRun_extent`, and what it means is decided by the grammar
(`value?_eq_some_iff`), whatever part of it the grammar would have taken. The two
meet in `ofText_literal`: the run is one number, or the reading fails with all of
it.
-/

set_option autoImplicit false

namespace Calculator.Lexeme

open Literal (LongestRun Denotes)
open Text (byteLength byteLength_append)

/-! ## Places of a text -/

/-- The reading of a text comes to a place: the lexemes before it, its byte offset and the text from
there on. -/
inductive Arrives (text : String) : List Lexeme → Nat → List Char → Prop where
  | start : Arrives text [] 0 text.toList
  | separator {lexemes : List Lexeme} {offset : Nat} {c : Char} {rest : List Char} :
      Arrives text lexemes offset (c :: rest) → Text.isSeparator c = true →
        Arrives text lexemes (offset + c.utf8Size) rest
  | piece {lexemes : List Lexeme} {offset : Nat} {first : Char} {rest : List Char} {token : Token} :
      Arrives text lexemes offset (first :: rest) → Text.isSeparator first = false →
        (Scan.ofText first rest).token? = some token →
          Arrives text (lexemes ++ [⟨token, String.ofList (pieceText first rest), offset⟩])
            (offset + byteLength (pieceText first rest)) (afterPiece first rest)

variable {text : String} {lexemes : List Lexeme} {offset : Nat} {rest : List Char}

/-- A text is read as what was read up to a place and what is read from there on. -/
theorem Arrives.ofText_eq (arrives : Arrives text lexemes offset rest) :
    ofText text = (ofChars offset rest).map (lexemes ++ ·) := by
  induction arrives with
  | start =>
      rw [ofText]
      cases ofChars 0 text.toList <;> rfl
  | separator _ separates ih => rw [ih, ofChars_separator separates]
  | @piece lexemes offset first rest token _ plain isToken ih =>
      rw [ih, ofChars_piece plain isToken]
      cases ofChars (offset + byteLength (pieceText first rest)) (afterPiece first rest) with
      | error error => rfl
      | ok later => simp [Except.map]

/-- The offset of a place is the length of the text before it. -/
theorem Arrives.stands (arrives : Arrives text lexemes offset rest) :
    ∃ before, text.toList = before ++ rest ∧ offset = byteLength before := by
  induction arrives with
  | start => exact ⟨[], rfl, rfl⟩
  | @separator lexemes offset c rest _ _ ih =>
      obtain ⟨before, whole, place⟩ := ih
      refine ⟨before ++ [c], by simp [whole], ?_⟩
      rw [byteLength_append, ← place, byteLength, byteLength, Nat.add_zero]
  | @piece lexemes offset first rest token _ _ _ ih =>
      obtain ⟨before, whole, place⟩ := ih
      refine ⟨before ++ pieceText first rest, ?_, ?_⟩
      · rw [whole, List.append_assoc, pieceText_append_afterPiece]
      · rw [byteLength_append, place]

/-- Every lexeme of a text, and the end of the text, begins at a place that the reading comes to. -/
theorem Arrives.of_ok (arrives : Arrives text lexemes offset rest) {before after : List Lexeme}
    {lexeme : Lexeme} (cut : ofChars offset rest = .ok (before ++ lexeme :: after)) :
    ∃ later, Arrives text (lexemes ++ before) lexeme.offset later := by
  induction rest using piece_induction generalizing lexemes offset before with
  | empty =>
      rw [ofChars] at cut
      cases before with
      | nil =>
          obtain ⟨rfl, -⟩ := List.cons.inj (Except.ok.inj cut)
          exact ⟨[], by simpa using arrives⟩
      | cons head before => simp at cut
  | separator c rest separates ih =>
      rw [ofChars_separator separates] at cut
      exact ih (arrives.separator separates) cut
  | piece first rest plain ih =>
      obtain ⟨token, others, isToken, later, whole⟩ := (ofChars_piece_eq_ok_iff plain).1 cut
      cases before with
      | nil =>
          obtain ⟨rfl, rfl⟩ := List.cons.inj whole
          exact ⟨_, by simpa using arrives⟩
      | cons head before =>
          obtain ⟨rfl, rfl⟩ := List.cons.inj whole
          obtain ⟨behind, arrived⟩ := ih (arrives.piece plain isToken) later
          exact ⟨behind, by simpa using arrived⟩

/-- The piece that ends a reading with an error begins at a place that the reading comes to. -/
theorem Arrives.of_error (arrives : Arrives text lexemes offset rest) {error : ParseError}
    (failed : ofChars offset rest = .error error) :
    ∃ earlier place later, Arrives text earlier place later ∧ error.offset? = some place := by
  induction rest using piece_induction generalizing lexemes offset with
  | empty =>
      rw [ofChars] at failed
      cases failed
  | separator c rest separates ih =>
      rw [ofChars_separator separates] at failed
      exact ih (arrives.separator separates) failed
  | piece first rest plain ih =>
      cases isToken : (Scan.ofText first rest).token? with
      | none =>
          rw [ofChars_fault plain isToken] at failed
          cases failed
          exact ⟨_, _, _, arrives, offset?_fault _ _ _⟩
      | some token =>
          rw [ofChars_piece plain isToken] at failed
          cases later : ofChars (offset + byteLength (pieceText first rest))
              (afterPiece first rest) with
          | ok others => rw [later] at failed; cases failed
          | error fault =>
              rw [later] at failed
              cases failed
              exact ih (arrives.piece plain isToken) later

/-! ## Literals in a text -/

/-- A number begins with a digit, or with a point before a digit. -/
def BeginsNumber (text : List Char) : Prop :=
  ∃ first rest, text = first :: rest ∧
    (first.isDigit = true ∨ first = '.' ∧ ∃ digit more, rest = digit :: more ∧ digit.isDigit = true)

/-- What begins a number is no separator and no exponent mark, and it continues literals. -/
theorem BeginsNumber.first {first : Char} {rest : List Char}
    (number : BeginsNumber (first :: rest)) :
    (first.isDigit || first == '.') = true ∧ Text.isSeparator first = false ∧
      Literal.isLiteralChar first = true ∧ Literal.isExponentMark first = false := by
  obtain ⟨first, rest, whole, digit | ⟨rfl, -⟩⟩ := number
  · obtain ⟨rfl, rfl⟩ := List.cons.inj whole
    exact ⟨by simp [digit], isSeparator_eq_false (large_of_isDigit digit),
      Literal.isLiteralChar_of_isDigit digit, Literal.isExponentMark_of_isDigit digit⟩
  · obtain ⟨rfl, rfl⟩ := List.cons.inj whole
    exact ⟨rfl, rfl, rfl, rfl⟩

/-- Where a number begins, a literal is scanned. -/
theorem BeginsNumber.scan {first : Char} {rest : List Char}
    (number : BeginsNumber (first :: rest)) :
    Scan.ofText first rest = Scan.literal first rest := by
  rw [Scan.ofText, if_pos]
  obtain ⟨first, rest, whole, digit | ⟨rfl, digit, more, rfl, isDigit⟩⟩ := number
  · obtain ⟨rfl, rfl⟩ := List.cons.inj whole
    simp [digit]
  · obtain ⟨rfl, rfl⟩ := List.cons.inj whole
    simp [Literal.startsWith, isDigit]

/-- Where the reading of a text comes to a number, it takes the longest run that continues a
literal. If the run is a literal of the grammar, it is read as one number with the value that it
denotes, and otherwise the reading fails with the whole run and the offset where it begins. -/
theorem ofText_literal (arrives : Arrives text lexemes offset rest) (number : BeginsNumber rest) :
    ∃ before literal after, text.toList = before ++ literal ++ after ∧ rest = literal ++ after ∧
      offset = byteLength before ∧ LongestRun rest literal ∧
        (∀ value, Denotes literal value → ofText text =
          (ofChars (offset + byteLength literal) after).map
            (lexemes ++ ⟨.number value, String.ofList literal, offset⟩ :: ·)) ∧
        ((∀ value, ¬ Denotes literal value) →
          ofText text = .error (.malformedNumber (String.ofList literal) offset)) := by
  obtain ⟨before, whole, place⟩ := arrives.stands
  have ⟨first, following, spelled, _⟩ := number
  subst spelled
  obtain ⟨begins, plain, continues, unmarked⟩ := number.first
  have token : (Scan.ofText first following).token? =
      (Literal.value? (pieceText first following)).map .number := by
    rw [pieceText, number.scan, Scan.literal]
  have run : LongestRun (first :: following) (pieceText first following) := by
    rw [pieceText, number.scan, Scan.literal]
    exact Literal.longestRun_extent continues unmarked
  refine ⟨before, pieceText first following, afterPiece first following, ?_,
    (pieceText_append_afterPiece _ _).symm, place, run, fun value denotes => ?_, fun refused => ?_⟩
  · rw [whole, List.append_assoc, pieceText_append_afterPiece]
  · rw [Literal.value?_eq_some_iff.2 denotes] at token
    have arrived := arrives.piece plain token
    rw [arrived.ofText_eq]
    simp
  · have noValue : Literal.value? (pieceText first following) = none :=
      Option.eq_none_iff_forall_ne_some.2 fun value read =>
        refused value (Literal.value?_eq_some_iff.1 read)
    rw [noValue] at token
    rw [arrives.ofText_eq, ofChars_fault plain token, fault, if_pos begins]
    rfl

/-- The literal at the beginning of `7e-2+1` goes on over the sign behind its exponent mark. The
radix mark of the one in `2 0b1e-4` ends it before the sign, and an exponent mark is no binary
digit. Sixteen digits `F` behind a radix mark are 64 bits set, which is minus one. -/
theorem ofText_literal_signs :
    ofText "7e-2+1" = (ofChars 4 ['+', '1']).map (⟨.number 0.07, "7e-2", 0⟩ :: ·) ∧
      ofText "0xFFFFFFFFFFFFFFFF*" =
        (ofChars 18 ['*']).map (⟨.number (-1.0), "0xFFFFFFFFFFFFFFFF", 0⟩ :: ·) ∧
      ofText "2 0b1e-4" = .error (.malformedNumber "0b1e" 2) := by
  refine ⟨?_, ?_, ?_⟩
  · have begins : Arrives "7e-2+1" [] 0 ['7', 'e', '-', '2', '+', '1'] := .start
    obtain ⟨_, literal, after, -, whole, -, run, accepted, -⟩ :=
      ofText_literal begins ⟨_, _, rfl, .inl rfl⟩
    obtain rfl : ['7', 'e', '-', '2'] = literal :=
      (Literal.longestRun_extent rfl rfl).unique run
    obtain rfl : ['+', '1'] = after := by simpa using whole
    exact accepted 0.07 (Literal.value?_eq_some_iff.1 (by decide +kernel))
  · have spelled : "0xFFFFFFFFFFFFFFFF*".toList =
        '0' :: 'x' :: (List.replicate 16 'F' ++ ['*']) := by decide +kernel
    have begins : Arrives "0xFFFFFFFFFFFFFFFF*" [] 0
        ('0' :: 'x' :: (List.replicate 16 'F' ++ ['*'])) := spelled ▸ .start
    obtain ⟨_, literal, after, -, whole, -, run, accepted, -⟩ :=
      ofText_literal begins ⟨_, _, rfl, .inl rfl⟩
    obtain rfl : '0' :: 'x' :: List.replicate 16 'F' = literal :=
      (Literal.longestRun_extent rfl rfl).unique run
    obtain rfl : ['*'] = after := by simpa using whole
    have digits : ∀ c ∈ List.replicate 16 'F', c ∈ Base.digitChars .hexadecimal := by
      intro c member
      rw [List.eq_of_mem_replicate member]
      decide
    have value : Binary64.ofInt
        (BitVec.ofNat 64 (Numeral.valueOf 16 (List.replicate 16 'F'))).toInt = -1.0 := by
      decide +kernel
    have denotes := @Literal.Denotes.pattern .hexadecimal ['x'] (List.replicate 16 'F')
      List.mem_cons_self (by decide) digits (by decide +kernel)
    rw [Base.radix, value] at denotes
    exact accepted (-1.0) denotes
  · have begins : Arrives "2 0b1e-4" [] 0 ['2', ' ', '0', 'b', '1', 'e', '-', '4'] := .start
    have blank : Arrives "2 0b1e-4" [⟨.number 2, "2", 0⟩] 1 [' ', '0', 'b', '1', 'e', '-', '4'] :=
      begins.piece rfl (by decide +kernel)
    have arrives : Arrives "2 0b1e-4" [⟨.number 2, "2", 0⟩] 2 ['0', 'b', '1', 'e', '-', '4'] :=
      blank.separator rfl
    obtain ⟨_, literal, _, -, -, -, run, -, refused⟩ :=
      ofText_literal arrives ⟨_, _, rfl, .inl rfl⟩
    obtain rfl : ['0', 'b', '1', 'e'] = literal :=
      (Literal.longestRun_extent rfl rfl).unique run
    refine refused fun value denotes => ?_
    have noValue : Literal.value? ['0', 'b', '1', 'e'] = none := by decide +kernel
    rw [Literal.value?_eq_some_iff.2 denotes] at noValue
    cases noValue

end Calculator.Lexeme
