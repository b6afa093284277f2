/-
  Replacements in a text.

  1. **The rounds.**  A loop that looks for `find`, writes what stands before it and the new bytes, and
     goes on behind it, is the relation `Rounds`.  It ends if and only if there is something to find, and
     then it comes to `replaceBytes` (`rounds_iff`): an empty `find` is found again and again at the
     same place, so it has to be left out.
  2. **The characters.**  A text that is looked for begins with the first byte of a character, so it is
     found in the bytes of a text where it is found among the characters, and what is passed over or
     kept are whole characters (`replaceBytes_of_unmatched`, `replaceBytes_append`).  The search of
     the library for a text in a text goes by the same steps, matched and rejected (`ofString_foldl_steps`),
     and so the two replacements agree (`ofString_replace`).
  3. **The list.**  Each replacement takes a text to a text, so the agreement is carried through the
     whole list (`applyReplacements_ofString`).
-/
import Stencil.Proofs.Replacement.Gaps
import Stencil.Proofs.Text.Boundaries
import Stencil.Proofs.Token.Scan

namespace Stencil.Replacement

open Bytes

/-! ## The rounds -/

/-- A loop over what is found first, and what it comes to. -/
inductive Rounds (find new : Bytes) : Bytes → Bytes → Prop where
  /-- Nothing is found any more. -/
  | last {rest : Bytes} (none : Token.cut? find rest = none) : Rounds find new rest rest
  /-- What was found is passed over, and the next round begins behind it. -/
  | round {rest before after output : Bytes} (first : Token.cut? find rest = some (before, after))
      (next : Rounds find new after output) : Rounds find new rest (before ++ new ++ output)

variable {find new content output : Bytes}

/-- Without an occurrence nothing is replaced. -/
theorem replaceBytes_of_cut?_none (h : Token.cut? find content = none) (new : Bytes) :
    replaceBytes find new content = content :=
  replaceBytes_of_absent (Token.not_infix_of_cut?_none h) new

/-- The first occurrence is replaced, and what follows it is replaced on its own. -/
theorem replaceBytes_of_cut?_some {before after : Bytes} (hfind : find ≠ [])
    (h : Token.cut? find content = some (before, after)) (new : Bytes) :
    replaceBytes find new content = before ++ new ++ replaceBytes find new after := by
  refine Token.cut?_induction (motive := fun content before =>
    replaceBytes find new content = before ++ new ++ replaceBytes find new after) ?_ ?_ h
  · exact replaceBytes_append hfind new after
  · intro b bs before hnone hrest
    rw [replaceBytes_cons hnone, hrest]
    rfl

/-- With nothing to find, each round finds it at once and stays where it is. -/
theorem not_rounds_nil : ¬ Rounds [] new content output := by
  intro h
  have hfound : ∀ rest, Token.cut? [] rest = some ([], rest) := fun rest => by cases rest <;> rfl
  generalize hnil : ([] : Bytes) = find at h
  induction h with
  | last hnone =>
    rw [← hnil, hfound] at hnone
    cases hnone
  | round _ _ ih => exact ih

/-- The rounds on what there is to be found come to an end, since what is left gets shorter. -/
theorem rounds_replaceBytes (hfind : find ≠ []) (new content : Bytes) :
    Rounds find new content (replaceBytes find new content) := by
  induction hlength : content.length using Nat.strongRecOn generalizing content with
  | ind n ih =>
    subst hlength
    cases hcut : Token.cut? find content with
    | none =>
      rw [replaceBytes_of_cut?_none hcut]
      exact .last hcut
    | some parts =>
      obtain ⟨before, after⟩ := parts
      have hshorter : after.length < content.length := by
        have hpos := List.length_pos_iff.mpr hfind
        rw [Token.append_of_cut?_some hcut, List.length_append, List.length_append]
        omega
      rw [replaceBytes_of_cut?_some hfind hcut]
      exact .round hcut (ih after.length hshorter after rfl)

/-- **The rounds end if and only if there is something to find**, and then with the replacement. -/
theorem rounds_iff :
    Rounds find new content output ↔ find ≠ [] ∧ output = replaceBytes find new content := by
  constructor
  · intro h
    have hfind : find ≠ [] := by
      rintro rfl
      exact not_rounds_nil h
    refine ⟨hfind, ?_⟩
    induction h with
    | last hnone => rw [replaceBytes_of_cut?_none hnone]
    | round hcut _ ih => rw [replaceBytes_of_cut?_some hfind hcut, ih]
  · rintro ⟨hfind, rfl⟩
    exact rounds_replaceBytes hfind new content

/-! ## The characters -/

variable {pattern : String}

/-- The inner bytes of a character are kept. -/
theorem replaceBytes_append_of_isInner (hpattern : pattern ≠ "") {inner : Bytes}
    (hinner : ∀ b ∈ inner, IsInner b) (new rest : Bytes) :
    replaceBytes (ofString pattern) new (inner ++ rest) =
      inner ++ replaceBytes (ofString pattern) new rest := by
  induction inner with
  | nil => rfl
  | cons b inner ih =>
    obtain ⟨hb, hinner⟩ := List.forall_mem_cons.mp hinner
    rw [List.cons_append, replaceBytes_cons (not_isPrefix_of_isInner hpattern hb), ih hinner]
    rfl

/-- A character at which the text that is looked for does not begin is kept. -/
theorem replaceBytes_ofChars_cons (hpattern : pattern ≠ "") {c : Char} {cs : List Char}
    (h : ¬ pattern.toList <+: c :: cs) (new : Bytes) :
    replaceBytes (ofString pattern) new (ofChars (c :: cs)) =
      String.utf8EncodeChar c ++ replaceBytes (ofString pattern) new (ofChars cs) := by
  have hstarts : ¬ ofString pattern <+: ofChars (c :: cs) := mt ofChars_isPrefix_iff.mp h
  obtain ⟨first, inner, hbytes, -, hinner⟩ := exists_encode_cons c
  rw [ofChars_cons, hbytes, List.cons_append] at hstarts ⊢
  rw [replaceBytes_cons hstarts, replaceBytes_append_of_isInner hpattern hinner]
  rfl

/-- Characters at none of which the text that is looked for begins are kept. -/
theorem replaceBytes_of_unmatched (hpattern : pattern ≠ "") (mid rest : List Char)
    (h : ∀ before after, mid = before ++ after → after ≠ [] → ¬ pattern.toList <+: after ++ rest)
    (new : Bytes) :
    replaceBytes (ofString pattern) new (ofChars (mid ++ rest)) =
      ofChars mid ++ replaceBytes (ofString pattern) new (ofChars rest) := by
  induction mid with
  | nil => rfl
  | cons c mid ih =>
    have hc : ¬ pattern.toList <+: c :: (mid ++ rest) := h [] (c :: mid) rfl (List.cons_ne_nil c mid)
    have hmid := ih fun before after hsplit hne => h (c :: before) after (by rw [hsplit]; rfl) hne
    rw [List.cons_append, replaceBytes_ofChars_cons hpattern hc, hmid, ofChars_cons, List.append_assoc]

open String.Slice.Pattern (SearchStep)

/-- What is written for a step of the search in a text. -/
def writtenStep {s : String.Slice} (new : String) (sofar : String) : SearchStep s → String
  | .matched .. => sofar ++ new.toSlice
  | .rejected start stop => sofar ++ s.slice! start stop

open String.Slice.Pattern.Model

/-- The text that is looked for does not begin in what the search rejected. -/
theorem not_isPrefix_of_rejected {s : String.Slice} {start stop : s.Pos}
    (hnone : ∀ pos, start ≤ pos → pos < stop → ¬ MatchesAt pattern pos)
    {before mid rest : String} (hstart : start.Splits before (mid ++ rest))
    (hstop : stop.Splits (before ++ mid) rest) {first last : List Char}
    (hmid : mid.toList = first ++ last) (hlast : last ≠ []) :
    ¬ pattern.toList <+: last ++ rest.toList := by
  rintro ⟨behind, hbehind⟩
  obtain rfl : mid = String.ofList first ++ String.ofList last := by
    rw [← String.ofList_append, ← hmid, String.ofList_toList]
  have hlast' : String.ofList last ++ rest = pattern ++ String.ofList behind := by
    rw [← String.toList_inj]
    simpa using hbehind.symm
  rw [String.append_assoc] at hstart
  have hpos := hstart.splits_rotateRight
  refine hnone hstart.rotateRight ?_ ?_ ?_
  · exact (hstart.le_iff_exists_eq_append hpos).mpr ⟨String.ofList first, rfl, rfl⟩
  · refine (hpos.lt_iff_exists_eq_append hstop).mpr ⟨String.ofList last, ?_, ?_, rfl⟩
    · simpa using hlast
    · rw [String.append_assoc]
  · exact ForwardStringSearcher.matchesAt_iff_splits.mpr ⟨_, _, hpos.of_eq rfl hlast'⟩

/-- What the steps of a search write is the replacement in the bytes.  By induction on the steps, from
    the place where they begin. -/
theorem ofString_foldl_steps (hpattern : pattern ≠ "") (new : String) {s : String.Slice}
    {start : s.Pos} {steps : List (SearchStep s)} (h : IsValidSearchFrom pattern start steps)
    {before after : String} (hsplit : start.Splits before after) (sofar : String) :
    ofString (steps.foldl (writtenStep new) sofar) =
      ofString sofar ++ replaceBytes (ofString pattern) (ofString new) (ofString after) := by
  induction h generalizing before after sofar with
  | endPos =>
    obtain rfl : after = "" := (String.Slice.splits_endPos_iff.mp hsplit).2
    exact (List.append_nil _).symm
  | matched hmatch _ ih =>
    obtain ⟨before', rest, hstart, hstop⟩ :=
      ForwardStringSearcher.isLongestMatchAt_iff_splits.mp hmatch
    obtain ⟨rfl, rfl⟩ := hsplit.eq hstart
    rw [List.foldl_cons, ih hstop, ofString_append, replaceBytes_append (ofString_ne_nil hpattern),
      writtenStep, String.appendSlice_eq, ofString_append, String.copy_toSlice, List.append_assoc]
  | @mismatched steps start stop hlt hnone _ ih =>
    have hle : start ≤ stop := Std.le_of_lt hlt
    obtain ⟨before', rest, hstart, hstop⟩ := String.Slice.copy_slice_eq_iff_splits.mp ⟨hle, rfl⟩
    obtain ⟨rfl, rfl⟩ := hsplit.eq hstart
    have hunmatched := replaceBytes_of_unmatched hpattern (s.slice start stop hle).copy.toList rest.toList
      (fun first last hmid hlast => not_isPrefix_of_rejected hnone hstart hstop hmid hlast)
      (ofString new)
    rw [← String.toList_append] at hunmatched
    rw [List.foldl_cons, ih hstop, writtenStep, String.appendSlice_eq,
      ← String.Slice.slice_eq_slice! (h := hle), ofString_append, List.append_assoc]
    exact congrArg _ hunmatched.symm

/-- **The replacement in a text is the replacement in its bytes.** -/
theorem ofString_replace (hpattern : pattern ≠ "") (new text : String) :
    ofString (text.replace pattern new) =
      replaceBytes (ofString pattern) (ofString new) (ofString text) := by
  have hsteps : text.replace pattern new = (String.Slice.Pattern.ToForwardSearcher.toSearcher pattern
      text.toSlice).toList.foldl (writtenStep new) "" := by
    rw [String.replace, String.Slice.replace, ← Std.Iter.foldl_toList]
    congr
    funext sofar step
    cases step <;> rfl
  have hsearch := (ForwardStringSearcher.lawfulToForwardSearcherModel hpattern).isValidSearchFrom_toList
    text.toSlice
  rw [hsteps, ofString_foldl_steps hpattern new hsearch (String.Slice.splits_startPos _),
    String.copy_toSlice]
  rfl

/-! ## The list -/

theorem apply_of_ne {r : Replacement} (hne : r.find ≠ "") (content : Bytes) :
    r.apply content = replaceBytes (ofString r.find) (ofString r.replaceWith) content := by
  rw [apply, if_neg (by simpa [String.isEmpty_iff] using hne)]

/-- A replacement takes a text to a text. -/
theorem apply_ofString (r : Replacement) (text : String) :
    r.apply (ofString text) = ofString (r.applyToText text) := by
  rw [apply, applyToText]
  split
  · rfl
  · next hne => exact (ofString_replace (by simpa [String.isEmpty_iff] using hne) _ _).symm

theorem isText_ofString (s : String) : isText (ofString s) = true := by
  rw [isText, ofString, scalars_ofChars]
  simp

/-- Every content on the way is a text. -/
theorem isText_of_mem_scanl (rs : List Replacement) (text : String) {content : Bytes}
    (h : content ∈ rs.scanl (fun content r => r.apply content) (ofString text)) :
    isText content = true := by
  induction rs generalizing text with
  | nil =>
    rw [List.scanl_nil, List.mem_singleton] at h
    rw [h, isText_ofString]
  | cons r rs ih =>
    rw [List.scanl_cons, List.mem_cons, apply_ofString] at h
    rcases h with rfl | h
    · exact isText_ofString text
    · exact ih _ h

/-- **Replacements in the bytes of a text are replacements in the text.**  One after the other they come
    to the bytes of what the replacements in the text come to, and every content on the way is a text.
    The rounds of a replacement end, and with that content, if and only if there is something to find;
    a replacement without is left out. -/
theorem applyReplacements_ofString (rs : List Replacement) (text : String) :
    applyReplacements rs (ofString text) = ofString (applyReplacementsToText rs text) ∧
      (∀ content ∈ rs.scanl (fun content r => r.apply content) (ofString text), isText content = true) ∧
      ∀ (r : Replacement) (content output : Bytes),
        Rounds (ofString r.find) (ofString r.replaceWith) content output ↔
          r.find ≠ "" ∧ output = r.apply content := by
  refine ⟨?_, fun content => isText_of_mem_scanl rs text, fun r content output => ?_⟩
  · exact List.foldl_hom ofString fun text r => apply_ofString r text
  · rw [rounds_iff]
    constructor
    · rintro ⟨hfind, rfl⟩
      have hne : r.find ≠ "" := fun hempty => hfind (by rw [hempty]; rfl)
      exact ⟨hne, (apply_of_ne hne content).symm⟩
    · rintro ⟨hne, rfl⟩
      exact ⟨ofString_ne_nil hne, apply_of_ne hne content⟩

/-- Nothing to find, occurrences that overlap and write their own text again, and characters of two
    bytes. -/
theorem applyReplacementsToText_umlauts :
    let rs : List Replacement := [⟨"", "!"⟩, ⟨"ää", "äää"⟩, ⟨"ä", "Ä"⟩]
    applyReplacementsToText rs "äää" = "ÄÄÄÄ" ∧
      ofString "ääää" ∈ rs.scanl (fun content r => r.apply content) (ofString "äää") ∧
      isText (ofString "ääää") = true := by
  intro rs
  obtain ⟨htext, hway, -⟩ := applyReplacements_ofString rs "äää"
  have hbytes : applyReplacements rs (ofString "äää") = ofString "ÄÄÄÄ" := by decide +kernel
  have hmem : ofString "ääää" ∈ rs.scanl (fun content r => r.apply content) (ofString "äää") := by
    decide +kernel
  exact ⟨ofString_injective (htext.symm.trans hbytes), hmem, hway _ hmem⟩

end Stencil.Replacement
