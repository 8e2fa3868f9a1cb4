import Calculator.Proofs.Token.Tiling

/-!
# Separators part what is read

No piece goes over a separator, and none looks behind one: a separator continues
neither a literal, nor a name, nor a doubled mark, so the scan of a text that a
separator follows is the scan of the text alone (`Scan.ofText_before`). This holds
also where a scan asks for the next character: after an exponent mark, after a zero,
after a point and after the first of two equal marks.

**Two texts.** So a text before a separator is read as it is read alone, and so is
its error if it has one (`ofChars_before`, `ofChars_error_before`). The text behind
is read as at any other place, with its offsets moved (`ofChars_shift`).

**Many texts.** Texts that are joined by blanks are read one after the other
(`exists_cut_intercalate`). Each piece of a text is read alone as the lexeme that it is
(`cut_of_mem`), so the pieces joined by blanks give the same lexemes again, offsets
aside. All of this is in `ofText_separated`.
-/

set_option autoImplicit false

namespace Calculator

/-! ## Scans before a separator -/

namespace Literal

/-- A separator continues no literal, not even as a sign. -/
theorem separator_stops {c : Char} (separates : Text.isSeparator c = true) :
    isLiteralChar c = false ∧ isSign c = false := by
  simp only [Text.isSeparator, Bool.or_eq_true, beq_iff_eq] at separates
  rcases separates with ((((rfl | rfl) | rfl) | rfl) | rfl) | rfl
  all_goals exact ⟨rfl, rfl⟩

theorem extent_of_stops {c : Char} (stops : isLiteralChar c = false) (signed : Bool)
    (rest : List Char) : extent signed (c :: rest) = 0 := by
  cases rest with
  | nil => simp [extent, stops]
  | cons next rest => simp [extent, stops]

/-- A literal ends before a separator. -/
theorem extent_before_le {c : Char} (separates : Text.isSeparator c = true) (signed : Bool)
    (text rest : List Char) : extent signed (text ++ c :: rest) ≤ text.length := by
  obtain ⟨stops, noSign⟩ := separator_stops separates
  induction text using extent.induct signed with
  | case1 => rw [List.nil_append, extent_of_stops stops, List.length_nil]
  | case2 d continues =>
      have unmarked : ¬ (signed && isExponentMark d && isSign c) = true := by simp [noSign]
      rw [List.singleton_append, extent, if_neg (by simp [continues]), if_neg unmarked,
        extent_of_stops stops, List.length_singleton]
  | case3 d stopped =>
      rw [List.singleton_append, extent_of_stops (by simpa using stopped)]
      exact Nat.zero_le _
  | case4 d next more stopped =>
      rw [List.cons_append, extent_of_stops (by simpa using stopped)]
      exact Nat.zero_le _
  | case5 d next more continues mark ih =>
      rw [List.cons_append, List.cons_append, extent, if_neg continues, if_pos mark]
      exact Nat.add_le_add_right ih 2
  | case6 d next more continues unmarked ih =>
      rw [List.cons_append, List.cons_append, extent, if_neg continues, if_neg unmarked]
      exact Nat.add_le_add_right ih 1

end Literal

namespace Scan

open Literal (startsWith)

variable {c : Char}

/-- A name ends before a separator. -/
theorem name_before_le (separates : Text.isSeparator c = true) (first : Char)
    (text rest : List Char) : (name first (text ++ c :: rest)).extra ≤ text.length := by
  have stops : isNameChar c = false := by
    have literal := (Literal.separator_stops separates).1
    simp only [Literal.isLiteralChar, Bool.or_eq_false_iff] at literal
    rw [isNameChar, literal.1.1, literal.1.2]
    rfl
  simp only [name, List.takeWhile_append, List.takeWhile_cons, stops]
  split
  · simp
  · exact (List.takeWhile_prefix _).length_le

/-- A doubled mark ends before a separator. -/
theorem doubled_before_le {mark : Char} (apart : c ≠ mark) (op : BinaryOperator)
    (text rest : List Char) : (doubled mark op (text ++ c :: rest)).extra ≤ text.length := by
  cases text with
  | nil =>
      have single : startsWith (· == mark) ([] ++ c :: rest) = false := by simp [startsWith, apart]
      rw [doubled, single]
      exact Nat.le_refl _
  | cons d text =>
      rw [doubled]
      split
      · exact Nat.le_add_left 1 _
      · exact Nat.zero_le _

theorem symbol_before_le (separates : Text.isSeparator c = true) (first : Char)
    (text rest : List Char) : (symbol first (text ++ c :: rest)).extra ≤ text.length := by
  have apart : c ≠ '<' ∧ c ≠ '>' := by
    constructor
    · rintro rfl
      cases separates
    · rintro rfl
      cases separates
  rw [symbol.eq_def]
  split
  case h_10 => exact doubled_before_le apart.1 _ _ _
  case h_11 => exact doubled_before_le apart.2 _ _ _
  all_goals exact Nat.zero_le _

/-- A piece ends before a separator. -/
theorem ofText_before_le (separates : Text.isSeparator c = true) (first : Char)
    (text rest : List Char) : (ofText first (text ++ c :: rest)).extra ≤ text.length := by
  rw [ofText]
  split
  · exact Literal.extent_before_le separates _ _ _
  · split
    · exact name_before_le separates _ _ _
    · exact symbol_before_le separates _ _ _

/-- A text that a separator follows begins with the same piece as the text alone. -/
theorem ofText_before (separates : Text.isSeparator c = true) (first : Char)
    (text rest : List Char) : ofText first (text ++ c :: rest) = ofText first text := by
  have cut := ofText_take (ofText_before_le separates first text rest)
  rw [List.take_left] at cut
  exact cut.symm

/-- A piece is a part of its text. -/
theorem extra_le (first : Char) (text : List Char) : (ofText first text).extra ≤ text.length := by
  have blank : Text.isSeparator ' ' = true := rfl
  rw [← ofText_before blank first text []]
  exact ofText_before_le blank first text []

end Scan

namespace Lexeme

open Text (byteLength byteLength_append)

/-! ## A text before a separator -/

section Before

variable {c : Char}

theorem pieceText_before (separates : Text.isSeparator c = true) (first : Char)
    (text rest : List Char) : pieceText first (text ++ c :: rest) = pieceText first text := by
  rw [pieceText, pieceText, Scan.ofText_before separates,
    List.take_append_of_le_length (Scan.extra_le first text)]

theorem afterPiece_before (separates : Text.isSeparator c = true) (first : Char)
    (text rest : List Char) :
    afterPiece first (text ++ c :: rest) = afterPiece first text ++ c :: rest := by
  rw [afterPiece, afterPiece, Scan.ofText_before separates,
    List.drop_append_of_le_length (Scan.extra_le first text)]

/-- A text that is refused is refused for the same reason before a separator. -/
theorem ofChars_error_before (separates : Text.isSeparator c = true) {offset : Nat}
    {text : List Char} {error : ParseError} (failed : ofChars offset text = .error error)
    (rest : List Char) : ofChars offset (text ++ c :: rest) = .error error := by
  induction text using piece_induction generalizing offset with
  | empty =>
      rw [ofChars] at failed
      cases failed
  | separator d more blank ih =>
      rw [ofChars_separator blank] at failed
      rw [List.cons_append, ofChars_separator blank, ih failed]
  | piece first more plain ih =>
      have same := Scan.ofText_before separates first more rest
      cases isToken : (Scan.ofText first more).token? with
      | none =>
          rw [ofChars_fault plain isToken] at failed
          rw [List.cons_append, ofChars_fault plain (by rw [same, isToken]),
            pieceText_before separates, failed]
      | some token =>
          rw [ofChars_piece plain isToken] at failed
          rw [List.cons_append, ofChars_piece plain (by rw [same, isToken]),
            pieceText_before separates, afterPiece_before separates]
          cases later : ofChars (offset + byteLength (pieceText first more))
              (afterPiece first more) with
          | ok others => rw [later] at failed; cases failed
          | error fault =>
              rw [later] at failed
              obtain rfl : fault = error := Except.error.inj failed
              rw [ih later]
              rfl

/-- A text that is cut into lexemes is cut into the same ones before a separator, and what follows
is cut from there on. -/
theorem ofChars_before {offset : Nat} {text : List Char} {lexemes : List Lexeme}
    (cut : ofChars offset text = .ok lexemes) :
    ∃ pieces, lexemes = pieces ++ [⟨.endOfText, "", offset + byteLength text⟩] ∧
      ∀ c rest, Text.isSeparator c = true → ofChars offset (text ++ c :: rest) =
        (ofChars (offset + byteLength text) (c :: rest)).map (pieces ++ ·) := by
  induction text using piece_induction generalizing offset lexemes with
  | empty =>
      rw [ofChars] at cut
      cases cut
      refine ⟨[], rfl, fun c rest _ => ?_⟩
      cases later : ofChars offset (c :: rest) <;> simp [byteLength, later, Except.map]
  | separator d more blank ih =>
      rw [ofChars_separator blank] at cut
      obtain ⟨pieces, rfl, before⟩ := ih cut
      refine ⟨pieces, by rw [byteLength, Nat.add_assoc], fun c rest separates => ?_⟩
      rw [List.cons_append, ofChars_separator blank, before c rest separates, byteLength,
        Nat.add_assoc]
  | piece first more plain ih =>
      obtain ⟨token, others, isToken, later, rfl⟩ := (ofChars_piece_eq_ok_iff plain).1 cut
      obtain ⟨pieces, rfl, before⟩ := ih later
      have length : byteLength (first :: more) =
          byteLength (pieceText first more) + byteLength (afterPiece first more) := by
        rw [← byteLength_append, pieceText_append_afterPiece]
      refine ⟨⟨token, String.ofList (pieceText first more), offset⟩ :: pieces, ?_, ?_⟩
      · rw [length, Nat.add_assoc, List.cons_append]
      · intro c rest separates
        have same := Scan.ofText_before separates first more rest
        rw [List.cons_append, ofChars_piece plain (by rw [same, isToken]),
          pieceText_before separates, afterPiece_before separates, before c rest separates, length,
          Nat.add_assoc]
        cases ofChars (offset + (byteLength (pieceText first more) +
            byteLength (afterPiece first more))) (c :: rest) with
        | error error => rfl
        | ok behind => rfl

end Before

/-! ## A text behind separators -/

/-- A lexeme of a text that stands a number of bytes further on. -/
def shift (bytes : Nat) (lexeme : Lexeme) : Lexeme :=
  { lexeme with offset := bytes + lexeme.offset }

/-- Offsets begin where the text begins. -/
theorem ofChars_shift {offset : Nat} {text : List Char} {lexemes : List Lexeme}
    (cut : ofChars offset text = .ok lexemes) (bytes : Nat) :
    ofChars (bytes + offset) text = .ok (lexemes.map (shift bytes)) := by
  induction text using piece_induction generalizing offset lexemes with
  | empty =>
      rw [ofChars] at cut
      cases cut
      rw [ofChars]
      rfl
  | separator c rest separates ih =>
      rw [ofChars_separator separates] at cut
      rw [ofChars_separator separates, Nat.add_assoc]
      exact ih cut
  | piece first rest plain ih =>
      obtain ⟨token, others, isToken, later, rfl⟩ := (ofChars_piece_eq_ok_iff plain).1 cut
      refine (ofChars_piece_eq_ok_iff plain).2 ⟨token, _, isToken, ?_, List.map_cons⟩
      rw [Nat.add_assoc]
      exact ih later

theorem ofChars_separators {gap : List Char}
    (separate : ∀ c ∈ gap, Text.isSeparator c = true) (offset : Nat) (rest : List Char) :
    ofChars offset (gap ++ rest) = ofChars (offset + byteLength gap) rest := by
  induction gap generalizing offset with
  | nil => rfl
  | cons c gap ih =>
      rw [List.forall_mem_cons] at separate
      rw [List.cons_append, ofChars_separator separate.1, ih separate.2, byteLength, Nat.add_assoc]

/-! ## Texts with separators in between -/

variable {first gap second : String}

/-- Two texts with separators in between are cut into the lexemes of the first and those of the
second, moved behind the separators. -/
theorem ofText_append {ls rs : List Lexeme} (inhabited : gap ≠ "")
    (separate : ∀ c ∈ gap.toList, Text.isSeparator c = true) (firstCut : ofText first = .ok ls)
    (secondCut : ofText second = .ok rs) :
    ∃ pieces, ls = pieces ++ [⟨.endOfText, "", first.utf8ByteSize⟩] ∧
      ofText (first ++ gap ++ second) =
        .ok (pieces ++ rs.map (shift (first ++ gap).utf8ByteSize)) := by
  obtain ⟨pieces, rfl, before⟩ := ofChars_before firstCut
  refine ⟨pieces, by rw [Text.utf8ByteSize_eq, Nat.zero_add], ?_⟩
  have behind : ofChars (0 + byteLength first.toList) (gap.toList ++ second.toList) =
      .ok (rs.map (shift (first ++ gap).utf8ByteSize)) := by
    rw [ofChars_separators separate, Text.utf8ByteSize_eq, String.toList_append, byteLength_append,
      Nat.zero_add]
    exact ofChars_shift secondCut _
  obtain ⟨c, rest, spelled⟩ := List.exists_cons_of_ne_nil (l := gap.toList) (by simpa using inhabited)
  rw [spelled] at separate behind
  rw [ofText, String.toList_append, String.toList_append, List.append_assoc, spelled,
    List.cons_append, before _ _ (separate c List.mem_cons_self), ← List.cons_append, behind]
  rfl

/-- A text that is refused is refused for the same reason whatever follows behind separators. -/
theorem ofText_error_append {error : ParseError} (inhabited : gap ≠ "")
    (separate : ∀ c ∈ gap.toList, Text.isSeparator c = true)
    (failed : ofText first = .error error) : ofText (first ++ gap ++ second) = .error error := by
  obtain ⟨c, rest, spelled⟩ := List.exists_cons_of_ne_nil (l := gap.toList) (by simpa using inhabited)
  rw [spelled] at separate
  rw [ofText, String.toList_append, String.toList_append, List.append_assoc, spelled,
    List.cons_append]
  exact ofChars_error_before (separate c List.mem_cons_self) failed _

/-! ## Texts joined by blanks -/

/-- What a lexeme is, wherever it stands. -/
def kind (lexeme : Lexeme) : Token × String := (lexeme.token, lexeme.text)

theorem map_kind_shift (bytes : Nat) (lexemes : List Lexeme) :
    (lexemes.map (shift bytes)).map kind = lexemes.map kind := by
  rw [List.map_map]
  rfl

/-- A text is cut into pieces, and the end of the text follows. -/
def Cut (text : String) (pieces : List Lexeme) : Prop :=
  ofText text = .ok (pieces ++ [⟨.endOfText, "", text.utf8ByteSize⟩])

/-- Two texts with a blank in between are cut into the pieces of both. -/
theorem Cut.append {text more : String} {pieces others : List Lexeme} (cut : Cut text pieces)
    (moreCut : Cut more others) :
    Cut (text ++ " " ++ more) (pieces ++ others.map (shift (text ++ " ").utf8ByteSize)) := by
  have separate : ∀ c ∈ " ".toList, Text.isSeparator c = true := by
    intro c member
    obtain rfl : c = ' ' := by simpa using member
    rfl
  obtain ⟨_, same, joined⟩ := ofText_append (by decide) separate cut moreCut
  obtain rfl := List.append_cancel_right same
  have stop := @String.utf8ByteSize_append (text ++ " ") more
  rw [Cut, joined, stop, List.map_append, List.append_assoc]
  rfl

/-- Texts that are joined by blanks are cut into the pieces of the first, then those of the second,
and so on. -/
theorem exists_cut_intercalate {texts : List String} {lists : List (List Lexeme)}
    (cuts : List.Forall₂ Cut texts lists) :
    ∃ joined, Cut (" ".intercalate texts) joined ∧ joined.map kind = lists.flatten.map kind := by
  induction cuts with
  | nil => exact ⟨[], by rw [String.intercalate_nil, Cut]; decide +kernel, rfl⟩
  | @cons text pieces texts lists cut cuts ih =>
      cases cuts with
      | nil => exact ⟨pieces, by rwa [String.intercalate_singleton], by simp⟩
      | cons _ _ =>
          obtain ⟨joined, behind, same⟩ := ih
          refine ⟨_, by rw [String.intercalate_cons_cons]; exact cut.append behind, ?_⟩
          rw [List.map_append, map_kind_shift, same, List.flatten_cons (l := pieces),
            List.map_append]

/-- The lexeme of a text that is a single piece. -/
def alone (lexeme : Lexeme) : Lexeme := ⟨lexeme.token, lexeme.text, 0⟩

/-- Each piece of a text is also cut off when it is the whole text. -/
theorem cut_of_mem {offset : Nat} {text : List Char} {lexemes : List Lexeme}
    (cut : ofChars offset text = .ok lexemes) {piece : Lexeme} (member : piece ∈ lexemes)
    (isPiece : piece.token ≠ .endOfText) : Cut piece.text [piece.alone] := by
  induction text using piece_induction generalizing offset lexemes with
  | empty =>
      rw [ofChars] at cut
      cases cut
      obtain rfl := List.mem_singleton.1 member
      exact absurd rfl isPiece
  | separator c rest separates ih =>
      rw [ofChars_separator separates] at cut
      exact ih cut member
  | piece first rest plain ih =>
      obtain ⟨token, others, isToken, later, rfl⟩ := (ofChars_piece_eq_ok_iff plain).1 cut
      rcases List.mem_cons.1 member with rfl | behind
      · obtain ⟨kept, whole, same, pieceSame, afterSame⟩ :=
          exists_cut (List.nil_append (afterPiece first rest)).symm
        rw [List.append_nil] at whole
        rw [Cut, ofText, String.toList_ofList, ← whole, ofChars_piece_eq_ok_iff plain]
        refine ⟨token, _, by rw [same, isToken], by rw [afterSame, ofChars], ?_⟩
        rw [pieceSame, whole, Text.utf8ByteSize_eq, String.toList_ofList, Nat.zero_add]
        rfl
      · exact ih later behind

/-- The pieces of a text, joined by blanks, are cut into the same pieces again, with or without the
empty text of the end among them. -/
theorem exists_again {text : String} {lexemes : List Lexeme} (cut : ofText text = .ok lexemes)
    {texts : List String}
    (joined : texts = lexemes.map Lexeme.text ∨ texts = lexemes.dropLast.map Lexeme.text) :
    ∃ again, ofText (" ".intercalate texts) = .ok again ∧ again.map kind = lexemes.map kind := by
  obtain ⟨pieces, rfl, inner⟩ := (tiles_ofChars cut).ends
  have each : List.Forall₂ Cut (pieces.map Lexeme.text) (pieces.map fun piece => [piece.alone]) := by
    rw [List.forall₂_map_left_iff, List.forall₂_map_right_iff, List.forall₂_same]
    exact fun piece member => cut_of_mem cut (List.mem_append_left _ member) (inner piece member)
  have singles : (pieces.map fun piece => [piece.alone]).flatten = pieces.map alone := by
    rw [← List.flatMap_def]
    exact List.flatMap_pure_eq_map alone pieces
  have last : Cut "" [] := by rw [Cut]; decide +kernel
  obtain ⟨lists, cuts, flat⟩ : ∃ lists, List.Forall₂ Cut texts lists ∧
      lists.flatten = pieces.map alone := by
    rcases joined with rfl | rfl
    · rw [List.map_append]
      exact ⟨_, List.rel_append each (.cons last .nil), by simpa using singles⟩
    · rw [List.dropLast_concat]
      exact ⟨_, each, singles⟩
  obtain ⟨again, found, same⟩ := exists_cut_intercalate cuts
  refine ⟨_, found, ?_⟩
  rw [List.map_append, List.map_append, same, flat, List.map_map]
  rfl

/-! ## Separation -/

/-- Two texts with separators in between are cut into the lexemes of the first, without its end, and
those of the second with their offsets moved, and an error of the first is the error of both. So the
pieces of a text are cut again when they are joined by blanks. -/
theorem ofText_separated :
    (∀ first gap second : String, gap ≠ "" → (∀ c ∈ gap.toList, Text.isSeparator c = true) →
      (∀ ls rs, ofText first = .ok ls → ofText second = .ok rs →
        ∃ pieces, ls = pieces ++ [⟨.endOfText, "", first.utf8ByteSize⟩] ∧
          ofText (first ++ gap ++ second) =
            .ok (pieces ++ rs.map (shift (first ++ gap).utf8ByteSize))) ∧
      ∀ error, ofText first = .error error → ofText (first ++ gap ++ second) = .error error) ∧
    ∀ text lexemes, ofText text = .ok lexemes → ∀ texts,
      texts = lexemes.map Lexeme.text ∨ texts = lexemes.dropLast.map Lexeme.text →
        ∃ again, ofText (" ".intercalate texts) = .ok again ∧
          again.map kind = lexemes.map kind := by
  refine ⟨fun first gap second inhabited separate => ⟨fun ls rs => ?_, fun error => ?_⟩, ?_⟩
  · exact ofText_append inhabited separate
  · exact ofText_error_append inhabited separate
  · exact fun text lexemes cut texts => exists_again cut

/-- The exponent mark of `0xE` does not reach the sign behind a tab, two single marks make no shift,
and the pieces of `3<<0xE` are read again with blanks in between. -/
theorem ofText_separated_marks :
    ofText ("0xE" ++ "\t" ++ "+1") = .ok [⟨.number 14, "0xE", 0⟩, ⟨.operator .add, "+", 4⟩,
        ⟨.number 1, "1", 5⟩, ⟨.endOfText, "", 6⟩] ∧
      ofText ("1 <" ++ "\n " ++ "< 2") = .error (.unexpectedCharacter '<' 2) ∧
      ∃ again, ofText (" ".intercalate ["3", "<<", "0xE"]) = .ok again ∧ again.map kind =
        [(.number 3, "3"), (.operator .shiftLeft, "<<"), (.number 14, "0xE"), (.endOfText, "")] := by
  refine ⟨?_, ?_, ?_⟩
  · have firstCut : ofText "0xE" = .ok ([⟨.number 14, "0xE", 0⟩] ++ [⟨.endOfText, "", 3⟩]) := by
      decide +kernel
    have secondCut : ofText "+1" = .ok [⟨.operator .add, "+", 0⟩, ⟨.number 1, "1", 1⟩,
        ⟨.endOfText, "", 2⟩] := by decide +kernel
    obtain ⟨pieces, same, joined⟩ :=
      (ofText_separated.1 "0xE" "\t" "+1" (by decide) (by simp [Text.isSeparator])).1 _ _ firstCut
        secondCut
    obtain rfl := List.append_inj_left' same rfl
    exact joined
  · have failed : ofText "1 <" = .error (.unexpectedCharacter '<' 2) := by decide +kernel
    exact (ofText_separated.1 "1 <" "\n " "< 2" (by decide) (by simp [Text.isSeparator])).2 _ failed
  · have cut : ofText "3<<0xE" = .ok [⟨.number 3, "3", 0⟩, ⟨.operator .shiftLeft, "<<", 1⟩,
        ⟨.number 14, "0xE", 3⟩, ⟨.endOfText, "", 6⟩] := by decide +kernel
    exact ofText_separated.2 _ _ cut _ (.inr rfl)

end Lexeme

end Calculator
