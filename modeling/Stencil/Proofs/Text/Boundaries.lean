/-
  Where the characters of a text begin.

  A character is written as a first byte and, as the case may be, inner bytes, and no byte is both.  So
  a text that occurs in the bytes of another one never begins inside a character
  (`not_isPrefix_of_isInner`), and what follows it is a text again (`exists_of_ofChars_append`): it
  occurs among the characters (`ofChars_isPrefix_iff`).
-/
import Mathlib.Data.List.Infix
import Stencil.Proofs.Text.Utf8

namespace Stencil.Bytes

variable {as cs : List Char} {rest : Bytes} {b : UInt8}

/-- The byte stands inside a character, behind its first byte. -/
def IsInner (b : UInt8) : Prop := ¬ b.IsUTF8FirstByte

/-- A character is a first byte and inner ones. -/
theorem exists_encode_cons (c : Char) : ∃ first inner, String.utf8EncodeChar c = first :: inner ∧
    ¬ IsInner first ∧ ∀ b ∈ inner, IsInner b := by
  have hplace : ∀ i (hi : i < (String.utf8EncodeChar c).length),
      (String.utf8EncodeChar c)[i].IsUTF8FirstByte ↔ i = 0 :=
    fun i hi => UInt8.isUTF8FirstByte_getElem_utf8EncodeChar
  obtain ⟨first, inner, hbytes⟩ := List.exists_cons_of_ne_nil (String.utf8EncodeChar_ne_nil (c := c))
  simp only [hbytes] at hplace
  refine ⟨first, inner, hbytes, ?_, fun b hb => ?_⟩
  · exact not_not_intro ((hplace 0 (by simp)).mpr rfl)
  · obtain ⟨i, hi, rfl⟩ := List.getElem_of_mem hb
    exact fun hfirst => Nat.succ_ne_zero i ((hplace (i + 1) (by simpa using hi)).mp hfirst)

/-- Bytes that go on inside a character do not begin with a text. -/
theorem not_isPrefix_of_isInner {s : String} (hs : s ≠ "") (hb : IsInner b) :
    ¬ ofString s <+: b :: rest := by
  obtain ⟨c, cs, hcs⟩ := List.exists_cons_of_ne_nil (l := s.toList) (by simpa using hs)
  obtain ⟨first, inner, hbytes, hfirst, -⟩ := exists_encode_cons c
  rw [ofString, hcs, ofChars_cons, hbytes, List.cons_append, List.cons_prefix_cons]
  rintro ⟨rfl, -⟩
  exact hfirst hb

/-- The characters of a text come first, whatever follows it. -/
theorem scalars_ofChars_append (as : List Char) (rest : Bytes) :
    scalars (ofChars as ++ rest) = as.map some ++ scalars rest := by
  induction as with
  | nil => rfl
  | cons a as ih =>
    rw [scalars] at ih
    rw [ofChars_cons, List.append_assoc, scalars, scalarsFrom_encode, ih, List.map_cons,
      List.cons_append]

/-- **What follows a text in the bytes of a text is a text.** -/
theorem exists_of_ofChars_append (h : ofChars as ++ rest = ofChars cs) :
    ∃ cs', cs = as ++ cs' ∧ rest = ofChars cs' := by
  have hread : as.map some ++ scalars rest = cs.map some := by
    rw [← scalars_ofChars_append, h, scalars_ofChars]
  obtain ⟨as', cs', rfl, has, hcs⟩ := List.map_eq_append_iff.mp hread.symm
  obtain rfl : as' = as := (List.map_inj_right fun _ _ => Option.some.inj).mp has
  exact ⟨cs', rfl, (ofChars_of_scalars hcs.symm).symm⟩

/-- A text begins with another one in its bytes as it does in its characters. -/
theorem ofChars_isPrefix_iff : ofChars as <+: ofChars cs ↔ as <+: cs := by
  constructor
  · rintro ⟨rest, hrest⟩
    obtain ⟨cs', rfl, -⟩ := exists_of_ofChars_append hrest
    exact List.prefix_append as cs'
  · rintro ⟨cs', rfl⟩
    rw [ofChars_append]
    exact List.prefix_append _ _

end Stencil.Bytes
