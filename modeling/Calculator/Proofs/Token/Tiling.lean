import Calculator.Proofs.Token.Lookahead
import Mathlib

/-!
# Lexemes tile their text

`Tiles offset text lexemes` says that a text that stands at an offset is a
sequence of separators and pieces, and that the lexemes are the pieces, each
with its own offset, followed by the end of the text. What is cut off is always
such a tiling (`tiles_ofChars`).

**Success.** So nothing of a text is lost (`Lossless`): the end comes once and
last, every other lexeme stands at its offset, the lexemes follow one another
without overlap, and a byte that is in none of them is a separator.

**Failure.** An error points at the character where the first piece begins that
is no token: the text before that character is cut into lexemes. Such a prefix
ends behind a piece, so its pieces are those of the whole text (`Scan.ofText_take`).

Both are stated in `ofText_lossless`.
-/

set_option autoImplicit false

namespace Calculator

/-! ## Bytes of a text -/

namespace Text

/-- The bytes of the separators. -/
def separatorBytes : List UInt8 := [0x20, 0x09, 0x0A, 0x0B, 0x0C, 0x0D]

/-- The bytes of a text in UTF-8. -/
def bytes (text : List Char) : List UInt8 := text.flatMap String.utf8EncodeChar

theorem bytes_append (first second : List Char) :
    bytes (first ++ second) = bytes first ++ bytes second := List.flatMap_append

theorem length_bytes (text : List Char) : (bytes text).length = byteLength text := by
  induction text with
  | nil => rfl
  | cons c rest ih =>
      rw [← List.singleton_append, bytes_append, List.length_append, ih, bytes,
        List.flatMap_singleton, String.length_utf8EncodeChar, List.singleton_append, byteLength]

theorem toByteArray_eq (text : String) : text.toByteArray = (bytes text.toList).toByteArray := by
  rw [bytes, ← List.utf8Encode, ← String.toByteArray_ofList, String.ofList_toList]

/-- The length of a string in bytes is that of its characters. -/
theorem utf8ByteSize_eq (text : String) : text.utf8ByteSize = byteLength text.toList := by
  rw [← length_bytes, ← List.size_toByteArray, ← toByteArray_eq]
  rfl

/-- A separator is a single byte. -/
theorem bytes_separator {c : Char} (separator : isSeparator c = true) :
    ∃ byte ∈ separatorBytes, String.utf8EncodeChar c = [byte] := by
  simp only [isSeparator, Bool.or_eq_true, beq_iff_eq] at separator
  rcases separator with ((((rfl | rfl) | rfl) | rfl) | rfl) | rfl
  all_goals exact ⟨_, by decide, rfl⟩

end Text

namespace Lexeme

open Text (byteLength bytes byteLength_append)

/-! ## One piece after the other -/

/-- The text of the piece that a text begins with. -/
def pieceText (first : Char) (rest : List Char) : List Char :=
  first :: rest.take (Scan.ofText first rest).extra

/-- What follows the piece that a text begins with. -/
def afterPiece (first : Char) (rest : List Char) : List Char :=
  rest.drop (Scan.ofText first rest).extra

theorem pieceText_append_afterPiece (first : Char) (rest : List Char) :
    pieceText first rest ++ afterPiece first rest = first :: rest := by
  rw [pieceText, afterPiece, List.cons_append, List.take_append_drop]

/-- A text is empty, begins with a separator, or begins with a piece. -/
theorem piece_induction {motive : List Char → Prop} (empty : motive [])
    (separator : ∀ c rest, Text.isSeparator c = true → motive rest → motive (c :: rest))
    (piece : ∀ first rest, Text.isSeparator first = false → motive (afterPiece first rest) →
      motive (first :: rest))
    (text : List Char) : motive text := by
  induction long : text.length using Nat.strongRecOn generalizing text with
  | ind n ih =>
      subst long
      cases text with
      | nil => exact empty
      | cons first rest =>
          cases separates : Text.isSeparator first with
          | true => exact separator first rest separates (ih _ (by simp) rest rfl)
          | false =>
              refine piece first rest separates (ih _ ?_ _ rfl)
              rw [afterPiece, List.length_drop, List.length_cons]
              omega

theorem ofChars_separator {c : Char} (separates : Text.isSeparator c = true) (offset : Nat)
    (rest : List Char) : ofChars offset (c :: rest) = ofChars (offset + c.utf8Size) rest := by
  rw [ofChars, if_pos separates]

theorem ofChars_fault {first : Char} {rest : List Char} (plain : Text.isSeparator first = false)
    (noToken : (Scan.ofText first rest).token? = none) (offset : Nat) :
    ofChars offset (first :: rest) = .error (fault first (pieceText first rest) offset) := by
  rw [ofChars, if_neg (by simp [plain])]
  simp only [noToken]
  rfl

theorem ofChars_piece {first : Char} {rest : List Char} {token : Token}
    (plain : Text.isSeparator first = false)
    (isToken : (Scan.ofText first rest).token? = some token) (offset : Nat) :
    ofChars offset (first :: rest) =
      (ofChars (offset + byteLength (pieceText first rest)) (afterPiece first rest)).map
        (⟨token, String.ofList (pieceText first rest), offset⟩ :: ·) := by
  rw [ofChars, if_neg (by simp [plain])]
  simp only [isToken]
  rfl

/-- A text that begins with a piece is cut into its token and what the rest is cut into. -/
theorem ofChars_piece_eq_ok_iff {first : Char} {rest : List Char} {offset : Nat}
    {lexemes : List Lexeme} (plain : Text.isSeparator first = false) :
    ofChars offset (first :: rest) = .ok lexemes ↔
      ∃ token others, (Scan.ofText first rest).token? = some token ∧
        ofChars (offset + byteLength (pieceText first rest)) (afterPiece first rest) = .ok others ∧
        lexemes = ⟨token, String.ofList (pieceText first rest), offset⟩ :: others := by
  constructor
  · intro cut
    cases isToken : (Scan.ofText first rest).token? with
    | none => rw [ofChars_fault plain isToken] at cut; cases cut
    | some token =>
        rw [ofChars_piece plain isToken] at cut
        cases later : ofChars (offset + byteLength (pieceText first rest))
            (afterPiece first rest) with
        | error error => rw [later] at cut; cases cut
        | ok others =>
            rw [later] at cut
            cases cut
            exact ⟨token, others, rfl, rfl, rfl⟩
  · rintro ⟨token, others, isToken, later, rfl⟩
    rw [ofChars_piece plain isToken, later]
    rfl

/-- No piece is the end of the text. -/
theorem token?_ofText_ne (first : Char) (rest : List Char) :
    (Scan.ofText first rest).token? ≠ some .endOfText := by
  rw [Scan.ofText]
  split
  · simp [Scan.literal]
  · split
    · simp [Scan.name]
    · rw [Scan.symbol.eq_def]
      split
      all_goals simp [Scan.operator, Scan.doubled, apply_ite]

/-! ## Tilings -/

/-- The byte offset where the text of a lexeme ends. -/
def stop (lexeme : Lexeme) : Nat := lexeme.offset + lexeme.text.utf8ByteSize

/-- A text at an offset consists of separators and the texts of lexemes, which the end of the text
follows. -/
inductive Tiles : Nat → List Char → List Lexeme → Prop where
  | none (offset : Nat) : Tiles offset [] [⟨.endOfText, "", offset⟩]
  | separator {offset : Nat} {c : Char} {rest : List Char} {lexemes : List Lexeme} :
      Text.isSeparator c = true → Tiles (offset + c.utf8Size) rest lexemes →
        Tiles offset (c :: rest) lexemes
  | piece {offset : Nat} {token : Token} {text rest : List Char} {lexemes : List Lexeme} :
      token ≠ .endOfText → text ≠ [] → Tiles (offset + byteLength text) rest lexemes →
        Tiles offset (text ++ rest) (⟨token, String.ofList text, offset⟩ :: lexemes)

/-- A text is cut into lexemes that tile it. -/
theorem tiles_ofChars {offset : Nat} {text : List Char} {lexemes : List Lexeme}
    (cut : ofChars offset text = .ok lexemes) : Tiles offset text lexemes := by
  induction text using piece_induction generalizing offset lexemes with
  | empty =>
      rw [ofChars] at cut
      cases cut
      exact .none offset
  | separator c rest separates ih =>
      rw [ofChars_separator separates] at cut
      exact .separator separates (ih cut)
  | piece first rest plain ih =>
      obtain ⟨token, others, isToken, later, rfl⟩ := (ofChars_piece_eq_ok_iff plain).1 cut
      rw [← pieceText_append_afterPiece first rest]
      refine .piece ?_ (List.cons_ne_nil _ _) (ih later)
      rintro rfl
      exact token?_ofText_ne first rest isToken

/-- A tiling ends with the end of the text, and only there. -/
theorem Tiles.ends {offset : Nat} {text : List Char} {lexemes : List Lexeme}
    (tiles : Tiles offset text lexemes) :
    ∃ pieces, lexemes = pieces ++ [⟨.endOfText, "", offset + byteLength text⟩] ∧
      ∀ piece ∈ pieces, piece.token ≠ .endOfText := by
  induction tiles with
  | none offset => exact ⟨[], rfl, by simp⟩
  | separator separates tiles ih =>
      obtain ⟨pieces, rfl, inner⟩ := ih
      exact ⟨pieces, by rw [byteLength, Nat.add_assoc], inner⟩
  | piece isPiece nonempty tiles ih =>
      obtain ⟨pieces, rfl, inner⟩ := ih
      refine ⟨_ :: pieces, by rw [byteLength_append, Nat.add_assoc, List.cons_append], ?_⟩
      intro lexeme member
      rcases List.mem_cons.1 member with rfl | later
      · exact isPiece
      · exact inner lexeme later

/-- A piece of a tiling stands in the text where its offset says. -/
theorem Tiles.stands {offset : Nat} {text : List Char} {lexemes : List Lexeme}
    (tiles : Tiles offset text lexemes) {piece : Lexeme} (member : piece ∈ lexemes)
    (isPiece : piece.token ≠ .endOfText) :
    piece.text ≠ "" ∧ ∃ before after, text = before ++ (piece.text.toList ++ after) ∧
      piece.offset = offset + byteLength before := by
  induction tiles with
  | none offset =>
      obtain rfl := List.mem_singleton.1 member
      exact absurd rfl isPiece
  | separator separates tiles ih =>
      rename_i c rest lexemes
      obtain ⟨nonempty, before, after, rfl, place⟩ := ih member
      exact ⟨nonempty, c :: before, after, rfl, by rw [place, byteLength, Nat.add_assoc]⟩
  | piece notEnd nonempty tiles ih =>
      rename_i offset token text rest lexemes
      rcases List.mem_cons.1 member with rfl | later
      · refine ⟨fun empty => nonempty ?_, [], rest, ?_, rfl⟩
        · simpa using empty
        · rw [String.toList_ofList, List.nil_append]
      · obtain ⟨inhabited, before, after, rfl, place⟩ := ih later
        refine ⟨inhabited, text ++ before, after, by rw [List.append_assoc], ?_⟩
        rw [place, byteLength_append, Nat.add_assoc]

/-- Nothing of a tiling stands before its offset. -/
theorem Tiles.le_offset {offset : Nat} {text : List Char} {lexemes : List Lexeme}
    (tiles : Tiles offset text lexemes) {lexeme : Lexeme} (member : lexeme ∈ lexemes) :
    offset ≤ lexeme.offset := by
  induction tiles with
  | none offset =>
      obtain rfl := List.mem_singleton.1 member
      exact Nat.le_refl _
  | separator separates tiles ih => exact Nat.le_trans (Nat.le_add_right _ _) (ih member)
  | piece notEnd nonempty tiles ih =>
      rcases List.mem_cons.1 member with rfl | later
      · exact Nat.le_refl _
      · exact Nat.le_trans (Nat.le_add_right _ _) (ih later)

theorem stop_ofList (token : Token) (text : List Char) (offset : Nat) :
    stop ⟨token, String.ofList text, offset⟩ = offset + byteLength text := by
  rw [stop, Text.utf8ByteSize_eq, String.toList_ofList]

/-- The lexemes of a tiling follow one another. -/
theorem Tiles.ordered {offset : Nat} {text : List Char} {lexemes : List Lexeme}
    (tiles : Tiles offset text lexemes) :
    lexemes.Pairwise fun first second => first.stop ≤ second.offset := by
  induction tiles with
  | none offset => exact List.pairwise_singleton _ _
  | separator separates tiles ih => exact ih
  | piece notEnd nonempty tiles ih =>
      refine List.pairwise_cons.2 ⟨fun later member => ?_, ih⟩
      rw [stop_ofList]
      exact tiles.le_offset member

/-- A byte of a tiled text is in a lexeme or is a separator. -/
theorem Tiles.covered {offset : Nat} {text : List Char} {lexemes : List Lexeme}
    (tiles : Tiles offset text lexemes) {i : Nat} {byte : UInt8}
    (found : (bytes text)[i]? = some byte) :
    (∃ lexeme ∈ lexemes, lexeme.offset ≤ offset + i ∧ offset + i < lexeme.stop) ∨
      byte ∈ Text.separatorBytes := by
  induction tiles generalizing i with
  | none offset => cases found
  | separator separates tiles ih =>
      rename_i offset c rest lexemes
      obtain ⟨single, isSeparator, encoded⟩ := Text.bytes_separator separates
      have width : c.utf8Size = 1 := by rw [← String.length_utf8EncodeChar, encoded]; rfl
      rw [bytes, List.flatMap_cons, encoded, List.singleton_append] at found
      cases i with
      | zero =>
          obtain rfl : single = byte := Option.some_inj.1 found
          exact .inr isSeparator
      | succ i =>
          have later := ih found
          rwa [width, Nat.add_assoc, Nat.add_comm 1] at later
  | piece notEnd nonempty tiles ih =>
      rename_i offset token text rest lexemes
      rw [Text.bytes_append] at found
      rcases Nat.lt_or_ge i (bytes text).length with inside | beyond
      · refine .inl ⟨_, List.mem_cons_self, Nat.le_add_right _ _, ?_⟩
        rw [stop_ofList, ← Text.length_bytes]
        exact Nat.add_lt_add_left inside offset
      · rw [List.getElem?_append_right beyond] at found
        have place : offset + byteLength text + (i - (bytes text).length) = offset + i := by
          rw [Text.length_bytes] at beyond ⊢
          omega
        rcases ih found with ⟨lexeme, member, covers⟩ | isSeparator
        · rw [place] at covers
          exact .inl ⟨lexeme, List.mem_cons_of_mem _ member, covers⟩
        · exact .inr isSeparator

/-- A text is cut into lexemes, and nothing of it is lost. -/
structure Lossless (text : String) (lexemes : List Lexeme) : Prop where
  ends : ∃ pieces, lexemes = pieces ++ [⟨.endOfText, "", text.utf8ByteSize⟩] ∧
    ∀ piece ∈ pieces, piece.token ≠ .endOfText
  stands : ∀ piece ∈ lexemes, piece.token ≠ .endOfText → piece.text ≠ "" ∧
    ∃ before after, text = before ++ piece.text ++ after ∧ piece.offset = before.utf8ByteSize
  ordered : lexemes.Pairwise fun first second => first.stop ≤ second.offset
  covered : ∀ i byte, text.toByteArray.data[i]? = some byte →
    (∃ lexeme ∈ lexemes, lexeme.offset ≤ i ∧ i < lexeme.stop) ∨ byte ∈ Text.separatorBytes

/-- A tiled text is cut into lexemes without loss. -/
theorem Tiles.lossless {text : String} {lexemes : List Lexeme}
    (tiles : Tiles 0 text.toList lexemes) : Lossless text lexemes where
  ends := by
    rw [Text.utf8ByteSize_eq, ← Nat.zero_add (byteLength _)]
    exact tiles.ends
  stands piece member isPiece := by
    obtain ⟨nonempty, before, after, whole, place⟩ := tiles.stands member isPiece
    refine ⟨nonempty, String.ofList before, String.ofList after, ?_, ?_⟩
    · rw [← String.ofList_toList (s := text), whole, String.ofList_append, String.ofList_append,
        String.ofList_toList, String.append_assoc]
    · rw [place, Nat.zero_add, Text.utf8ByteSize_eq, String.toList_ofList]
  ordered := tiles.ordered
  covered i byte found := by
    rw [Text.toByteArray_eq, List.data_toByteArray, List.getElem?_toArray] at found
    have covered := tiles.covered found
    rwa [Nat.zero_add] at covered

/-! ## The first fault -/

theorem offset?_fault (first : Char) (text : List Char) (offset : Nat) :
    (fault first text offset).offset? = some offset := by
  rw [fault]
  split
  · rfl
  · rfl

/-- A text that ends behind its first piece begins with the same piece. -/
theorem exists_cut {first : Char} {rest before after : List Char}
    (split : afterPiece first rest = before ++ after) :
    ∃ kept, first :: kept = pieceText first rest ++ before ∧
      Scan.ofText first kept = Scan.ofText first rest ∧
      pieceText first kept = pieceText first rest ∧ afterPiece first kept = before := by
  have same : Scan.ofText first (rest.take ((Scan.ofText first rest).extra + before.length)) =
      Scan.ofText first rest := Scan.ofText_take (Nat.le_add_right _ _)
  have follows : (rest.drop (Scan.ofText first rest).extra).take before.length = before := by
    rw [← afterPiece, split, List.take_left]
  refine ⟨rest.take ((Scan.ofText first rest).extra + before.length), ?_, same, ?_, ?_⟩
  · rw [List.take_add, follows]
    rfl
  · rw [pieceText, same, List.take_take, Nat.min_eq_left (Nat.le_add_right _ _), pieceText]
  · rw [afterPiece, same, List.drop_take, Nat.add_sub_cancel_left, follows]

/-- A reading that fails does so where the first piece begins that is no token, and the text before
it is read. -/
theorem before_error {offset : Nat} {text : List Char} {error : ParseError}
    (failed : ofChars offset text = .error error) :
    ∃ before first after lexemes, text = before ++ first :: after ∧
      error.offset? = some (offset + byteLength before) ∧
      ofChars offset before = .ok lexemes := by
  induction text using piece_induction generalizing offset with
  | empty =>
      rw [ofChars] at failed
      cases failed
  | separator c rest separates ih =>
      rw [ofChars_separator separates] at failed
      obtain ⟨before, first, after, lexemes, rfl, place, cut⟩ := ih failed
      refine ⟨c :: before, first, after, lexemes, rfl, ?_, ?_⟩
      · rw [place, byteLength, Nat.add_assoc]
      · rw [ofChars_separator separates, cut]
  | piece first rest plain ih =>
      cases isToken : (Scan.ofText first rest).token? with
      | none =>
          rw [ofChars_fault plain isToken] at failed
          cases failed
          exact ⟨[], first, rest, _, rfl, offset?_fault _ _ _, by rw [ofChars]⟩
      | some token =>
          rw [ofChars_piece plain isToken] at failed
          cases later : ofChars (offset + byteLength (pieceText first rest))
              (afterPiece first rest) with
          | ok others => rw [later] at failed; cases failed
          | error fault =>
              rw [later] at failed
              cases failed
              -- The text before the fault still begins with this piece, so it is cut the same way.
              obtain ⟨before, next, after, lexemes, split, place, cut⟩ := ih later
              obtain ⟨kept, whole, same, pieceSame, afterSame⟩ := exists_cut split
              refine ⟨pieceText first rest ++ before, next, after,
                ⟨token, String.ofList (pieceText first rest), offset⟩ :: lexemes, ?_, ?_, ?_⟩
              · rw [← pieceText_append_afterPiece first rest, split, List.append_assoc]
              · rw [place, byteLength_append, Nat.add_assoc]
              · rw [← whole, ofChars_piece_eq_ok_iff plain, same, pieceSame, afterSame]
                exact ⟨token, lexemes, isToken, cut, rfl⟩

/-! ## Whole texts -/

/-- A text that is cut into lexemes is cut without loss. For any other text the error points at a
character, and the text before that character is cut into lexemes. -/
theorem ofText_lossless (text : String) :
    (∀ lexemes, ofText text = .ok lexemes → Lossless text lexemes) ∧
      ∀ error, ofText text = .error error →
        ∃ before after, text = before ++ after ∧ error.offset? = some before.utf8ByteSize ∧
          before.utf8ByteSize < text.utf8ByteSize ∧ ∃ lexemes, ofText before = .ok lexemes := by
  refine ⟨fun lexemes cut => (tiles_ofChars cut).lossless, fun error failed => ?_⟩
  obtain ⟨before, first, after, lexemes, whole, place, cut⟩ := before_error failed
  have joined : text = String.ofList before ++ String.ofList (first :: after) := by
    rw [← String.ofList_append, ← whole, String.ofList_toList]
  refine ⟨String.ofList before, String.ofList (first :: after), joined, ?_, ?_, lexemes, ?_⟩
  · rw [place, Nat.zero_add, Text.utf8ByteSize_eq, String.toList_ofList]
  · have positive := first.utf8Size_pos
    rw [Text.utf8ByteSize_eq, Text.utf8ByteSize_eq, whole, String.toList_ofList, byteLength_append,
      byteLength]
    omega
  · rw [ofText, String.toList_ofList, cut]

/-- The lexemes of `2 <<.5` are cut without loss. Of `2 <<5.é` all is read before the character that
begins no piece. -/
theorem ofText_lossless_shift :
    Lossless "2 <<.5" [⟨.number 2, "2", 0⟩, ⟨.operator .shiftLeft, "<<", 2⟩,
        ⟨.number 0.5, ".5", 4⟩, ⟨.endOfText, "", 6⟩] ∧
      ∃ before after, "2 <<5.é" = before ++ after ∧ some 6 = some before.utf8ByteSize ∧
        before.utf8ByteSize < "2 <<5.é".utf8ByteSize ∧ ∃ lexemes, ofText before = .ok lexemes := by
  have cut : ofText "2 <<.5" = .ok [⟨.number 2, "2", 0⟩, ⟨.operator .shiftLeft, "<<", 2⟩,
      ⟨.number 0.5, ".5", 4⟩, ⟨.endOfText, "", 6⟩] := by decide +kernel
  have failed : ofText "2 <<5.é" = .error (.unexpectedCharacter 'é' 6) := by decide +kernel
  exact ⟨(ofText_lossless _).1 _ cut, (ofText_lossless _).2 _ failed⟩

end Lexeme

end Calculator
