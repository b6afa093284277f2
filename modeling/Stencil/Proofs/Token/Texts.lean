/-
  Substitution in a text.

  The scan goes byte by byte, and where no token starts it keeps a single byte, which may be the first
  one of a character of several bytes.  It then goes on inside that character.  But the opening
  delimiter begins with a first byte, so no token starts there, and the inner bytes are kept one by
  one until the next character.  A token consists of whole characters, so behind it stands a character
  again.  Therefore the pieces of a scan are characters and tokens (`Scan.exists_textPieces`), and what
  is written for them is a text (`ofString_substitute`).
-/
import Stencil.Proofs.Text.Boundaries
import Stencil.Proofs.Token.Segments

namespace Stencil

namespace Token

open Bytes

/-- A piece of a text that is made of characters. -/
inductive TextPiece where
  | character (c : Char)
  | token (name : String)

namespace TextPiece

/-- The characters of the text that a piece stands for. -/
def read (opening closing : String) : TextPiece → List Char
  | character c => [c]
  | token name => opening.toList ++ name.toList ++ closing.toList

/-- The characters that are written for a piece. -/
def written (values : Values) : TextPiece → List Char
  | character c => [c]
  | token name => ((values.get? name).getD "").toList

/-- The pieces of the bytes: those of a character, each for itself, or a token. -/
def pieces : TextPiece → List Piece
  | character c => (String.utf8EncodeChar c).map .kept
  | token name => [.token name]

theorem flatMap_written_pieces (values : Values) (parts : List TextPiece) :
    (parts.flatMap pieces).flatMap (Piece.written values) =
      ofChars (parts.flatMap (written values)) := by
  induction parts with
  | nil => rfl
  | cons part parts ih =>
    rw [List.flatMap_cons, List.flatMap_append, ih, List.flatMap_cons, ofChars_append]
    congr 1
    cases part with
    | character c => rw [pieces, flatMap_written_kept, written, ofChars_cons, ofChars_nil, List.append_nil]
    | token name => rw [pieces, List.flatMap_singleton]; rfl

end TextPiece

variable {names : List String} {opening closing : String} {text : Bytes} {ps : List Piece}

/-- The rest of a character is kept, and then the pieces are characters and tokens.  By induction on the
    scan, for any number of inner bytes that come first. -/
theorem Scan.exists_textPieces_of_inner (hopening : opening ≠ "")
    (h : Scan names (ofString opening) (ofString closing) text ps) (inner : Bytes) {cs : List Char}
    (htext : text = inner ++ ofChars cs) (hinner : ∀ b ∈ inner, IsInner b) :
    ∃ parts : List TextPiece, ps = inner.map .kept ++ parts.flatMap TextPiece.pieces ∧
      cs = parts.flatMap (TextPiece.read opening closing) := by
  induction h generalizing inner cs with
  | done =>
    obtain ⟨rfl, hcs⟩ := List.append_eq_nil_iff.mp htext.symm
    refine ⟨[], rfl, ?_⟩
    cases cs with
    | nil => rfl
    | cons c cs => simp at hcs
  | @token name rest ps _ _ _ ih =>
    have hpart : ofString opening ++ ofString name ++ ofString closing =
        ofChars (opening.toList ++ name.toList ++ closing.toList) := by simp [ofString]
    cases inner with
    | cons b inner =>
      -- no token starts inside a character
      have hstarts : ofString opening <+: b :: (inner ++ ofChars cs) := by
        rw [← List.cons_append, ← htext, List.append_assoc, List.append_assoc]
        exact List.prefix_append _ _
      exact absurd hstarts (not_isPrefix_of_isInner hopening (hinner b List.mem_cons_self))
    | nil =>
      rw [List.nil_append, hpart] at htext
      obtain ⟨cs', rfl, hrest⟩ := exists_of_ofChars_append htext
      obtain ⟨parts, rfl, rfl⟩ := ih [] hrest (List.forall_mem_nil _)
      exact ⟨.token name :: parts, rfl, rfl⟩
  | @kept b rest ps _ _ ih =>
    cases inner with
    | cons b' inner =>
      obtain ⟨rfl, hrest⟩ := List.cons.inj htext
      obtain ⟨parts, rfl, rfl⟩ := ih inner hrest fun x hx => hinner x (List.mem_cons_of_mem b hx)
      exact ⟨parts, rfl, rfl⟩
    | nil =>
      cases cs with
      | nil => cases htext
      | cons c cs =>
        -- the byte is the first one of a character
        obtain ⟨first, inner, hbytes, -, hinner⟩ := exists_encode_cons c
        rw [List.nil_append, ofChars_cons, hbytes, List.cons_append] at htext
        obtain ⟨rfl, hrest⟩ := List.cons.inj htext
        obtain ⟨parts, rfl, rfl⟩ := ih inner hrest hinner
        refine ⟨.character c :: parts, ?_, rfl⟩
        rw [List.flatMap_cons, TextPiece.pieces, hbytes]
        rfl

/-- **A text is scanned in whole characters.** -/
theorem Scan.exists_textPieces (hopening : opening ≠ "") {cs : List Char}
    (h : Scan names (ofString opening) (ofString closing) (ofChars cs) ps) :
    ∃ parts : List TextPiece, ps = parts.flatMap TextPiece.pieces ∧
      cs = parts.flatMap (TextPiece.read opening closing) :=
  h.exists_textPieces_of_inner hopening [] rfl (List.forall_mem_nil _)

end Token

open Token Bytes

/-- Substitution in a text comes to a text. -/
theorem exists_substituteBytes_eq (values : Values) (opening closing text : String) :
    ∃ s, substituteBytes values opening closing (ofString text) = ofString s := by
  by_cases hopening : opening = ""
  · exact ⟨text, by rw [substituteBytes, hopening]; rfl⟩
  · obtain ⟨ps, hscan, -⟩ := substituteFrom_scan values (ofString_ne_nil hopening) (ofString closing)
      (ofString text).length (ofString text) (Nat.le_refl _)
    obtain ⟨parts, rfl, -⟩ := hscan.exists_textPieces hopening
    refine ⟨String.ofList (parts.flatMap (TextPiece.written values)), ?_⟩
    rw [substituteBytes_eq_of_scan hopening hscan, TextPiece.flatMap_written_pieces, ofString,
      String.toList_ofList]

/-- **Substitution in a text loses nothing**, whatever the delimiters, the names and the values are: the
    bytes that it comes to are well formed, they are those of the text that is shown, and reading them
    as characters marks no piece that U+FFFD would have to stand for. -/
theorem ofString_substitute (values : Values) (opening closing text : String) :
    isText (substituteBytes values opening closing (ofString text)) = true ∧
      ofString (substitute values opening closing text) =
        substituteBytes values opening closing (ofString text) ∧
      scalars (substituteBytes values opening closing (ofString text)) =
        (substitute values opening closing text).toList.map some := by
  obtain ⟨s, hs⟩ := exists_substituteBytes_eq values opening closing text
  have hshown : substitute values opening closing text = s := by rw [substitute, hs, lossy_ofString]
  have hread : scalars (ofString s) = s.toList.map some := scalars_ofChars s.toList
  rw [hshown, hs, isText, hread]
  exact ⟨by simp, rfl, rfl⟩

end Stencil
