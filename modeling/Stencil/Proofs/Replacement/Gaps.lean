/-
  A replacement puts new bytes between the same gaps.

  `Gaps find content gaps` reads a content from the left.  Where `find` starts it is passed over, and a
  gap ends; any other byte belongs to the gap it stands in.  So the content is its gaps with `find`
  between them (`Gaps.intercalate`), and the replacement is the same gaps with the new bytes between
  them (`exists_gaps`).  The gaps do not depend on what is put between them.
-/
import Mathlib.Data.List.Infix
import Stencil.Replacement

namespace Stencil.Replacement

/-- What stands before, between and behind the occurrences of `find`, read from the left. -/
inductive Gaps (find : Bytes) : Bytes → List Bytes → Prop where
  | done : Gaps find [] [[]]
  /-- An occurrence is passed over, and a new gap begins behind it. -/
  | found {rest : Bytes} {gaps : List Bytes} (next : Gaps find rest gaps) :
      Gaps find (find ++ rest) ([] :: gaps)
  /-- Where `find` does not start, the byte belongs to the gap. -/
  | kept {b : UInt8} {rest gap : Bytes} {gaps : List Bytes} (none : ¬ find <+: b :: rest)
      (next : Gaps find rest (gap :: gaps)) : Gaps find (b :: rest) ((b :: gap) :: gaps)

variable {find content : Bytes} {gaps : List Bytes}

theorem Gaps.ne_nil (h : Gaps find content gaps) : gaps ≠ [] := by
  cases h <;> exact List.cons_ne_nil _ _

/-- The content is its gaps with `find` between them. -/
theorem Gaps.intercalate (h : Gaps find content gaps) : List.intercalate find gaps = content := by
  induction h with
  | done => simp
  | found next ih => rw [List.intercalate_cons_of_ne_nil next.ne_nil, List.nil_append, ih]
  | kept _ _ ih => rw [List.intercalate_cons_cons_left, ih]

/-- Bytes of an occurrence that are still to be passed over are passed over. -/
theorem replaceFrom_skip (find new : Bytes) (skip : Nat) (content : Bytes) :
    replaceFrom find new skip content = replaceFrom find new 0 (content.drop skip) := by
  induction content generalizing skip with
  | nil =>
    rw [List.drop_nil]
    cases skip <;> rfl
  | cons b bs ih =>
    cases skip with
    | zero => rfl
    | succ skip =>
      rw [replaceFrom, List.drop_succ_cons]
      exact ih skip

/-- An occurrence at the start is replaced. -/
theorem replaceBytes_append (hfind : find ≠ []) (new rest : Bytes) :
    replaceBytes find new (find ++ rest) = new ++ replaceBytes find new rest := by
  obtain ⟨b, bs, rfl⟩ := List.exists_cons_of_ne_nil hfind
  have hstarts : (b :: bs).isPrefixOf (b :: (bs ++ rest)) = true :=
    List.isPrefixOf_iff_prefix.mpr (List.prefix_append (b :: bs) rest)
  rw [replaceBytes, List.cons_append, replaceFrom, if_pos hstarts, replaceFrom_skip]
  simp [replaceBytes]

/-- A byte at which `find` does not start is kept. -/
theorem replaceBytes_cons {b : UInt8} {bs : Bytes} (h : ¬ find <+: b :: bs) (new : Bytes) :
    replaceBytes find new (b :: bs) = b :: replaceBytes find new bs := by
  rw [replaceBytes, replaceFrom, if_neg (mt List.isPrefixOf_iff_prefix.mp h)]
  rfl

/-- Where `find` does not occur, nothing is replaced. -/
theorem replaceBytes_of_absent (h : ¬ find <:+: content) (new : Bytes) :
    replaceBytes find new content = content := by
  induction content with
  | nil => rfl
  | cons b bs ih =>
    rw [replaceBytes_cons (fun hstarts => h hstarts.isInfix), ih fun hin => h (List.infix_cons hin)]

/-- What holds of nothing, and on what is read of an occurrence and of a byte at which none starts, holds
    of every content.  By induction on the length of what is left to be read. -/
theorem occurrence_induction (hfind : find ≠ []) {motive : Bytes → Prop} (nil : motive [])
    (found : ∀ rest, motive rest → motive (find ++ rest))
    (kept : ∀ b rest, ¬ find <+: b :: rest → motive rest → motive (b :: rest)) (content : Bytes) :
    motive content := by
  induction hlength : content.length using Nat.strongRecOn generalizing content with
  | ind n ih =>
    subst hlength
    by_cases hstarts : find <+: content
    · obtain ⟨rest, rfl⟩ := hstarts
      have hshorter : rest.length < (find ++ rest).length := by
        have hpos := List.length_pos_iff.mpr hfind
        rw [List.length_append]
        omega
      exact found rest (ih rest.length hshorter rest rfl)
    · cases content with
      | nil => exact nil
      | cons b rest => exact kept b rest hstarts (ih rest.length (Nat.lt_succ_self _) rest rfl)

/-- **A replacement puts new bytes between the gaps of the content.** -/
theorem exists_gaps (hfind : find ≠ []) (content : Bytes) :
    ∃ gaps, Gaps find content gaps ∧
      ∀ new, replaceBytes find new content = List.intercalate new gaps := by
  induction content using occurrence_induction hfind with
  | nil => exact ⟨[[]], .done, fun new => by simp [replaceBytes, replaceFrom]⟩
  | found rest ih =>
    obtain ⟨gaps, hgaps, hnew⟩ := ih
    refine ⟨[] :: gaps, .found hgaps, fun new => ?_⟩
    rw [replaceBytes_append hfind, hnew, List.intercalate_cons_of_ne_nil hgaps.ne_nil, List.nil_append]
  | kept b rest hnone ih =>
    obtain ⟨gaps, hgaps, hnew⟩ := ih
    obtain ⟨gap, gaps, rfl⟩ := List.exists_cons_of_ne_nil hgaps.ne_nil
    refine ⟨(b :: gap) :: gaps, .kept hnone hgaps, fun new => ?_⟩
    rw [replaceBytes_cons hnone, hnew, List.intercalate_cons_cons_left]

/-- A gap is a part of the content. -/
theorem infix_intercalate (sep : Bytes) {gap : Bytes} (h : gap ∈ gaps) :
    gap <:+: List.intercalate sep gaps := by
  induction gaps with
  | nil => cases h
  | cons first gaps ih =>
    rcases List.mem_cons.mp h with rfl | hrest
    · cases gaps with
      | nil => simp
      | cons next gaps =>
        rw [List.intercalate_cons_cons, List.append_assoc]
        exact (List.prefix_append _ _).isInfix
    · obtain ⟨next, gaps, rfl⟩ := List.exists_cons_of_ne_nil (List.ne_nil_of_mem hrest)
      rw [List.intercalate_cons_cons]
      exact (ih hrest).trans (List.suffix_append _ _).isInfix

/-! ## Replacements that change nothing -/

/-- A replacement that finds nothing sees one gap. -/
theorem Gaps.absent_of_singleton {gap : Bytes} (hfind : find ≠ [])
    (h : Gaps find content [gap]) : ¬ find <:+: content := by
  generalize hone : [gap] = gaps at h
  induction h generalizing gap with
  | done => exact fun hin => hfind (List.infix_nil.mp hin)
  | found next => exact absurd (List.cons.inj hone).2.symm next.ne_nil
  | kept none _ ih =>
    obtain ⟨-, rfl⟩ := List.cons.inj hone
    exact fun hin => (List.infix_cons_iff.mp hin).elim none (ih rfl)

theorem length_intercalate (sep gap : Bytes) (gaps : List Bytes) :
    (List.intercalate sep (gap :: gaps)).length =
      (gap :: gaps).flatten.length + gaps.length * sep.length := by
  induction gaps generalizing gap with
  | nil => simp
  | cons next gaps ih =>
    rw [List.intercalate_cons_cons, List.length_append, List.length_append, ih next, List.length_cons,
      Nat.succ_mul]
    simp only [List.flatten_cons, List.length_append]
    omega

/-- Between two gaps or more, different texts make different contents. -/
theorem eq_of_intercalate_eq {sep sep' gap next : Bytes} {gaps : List Bytes}
    (h : List.intercalate sep (gap :: next :: gaps) = List.intercalate sep' (gap :: next :: gaps)) :
    sep = sep' := by
  have hlength : sep.length = sep'.length := by
    have htotal := congrArg List.length h
    rw [length_intercalate, length_intercalate, Nat.add_left_cancel_iff] at htotal
    exact Nat.eq_of_mul_eq_mul_left (Nat.succ_pos _) htotal
  simp only [List.intercalate_cons_cons, List.append_assoc, List.append_cancel_left_eq] at h
  exact (List.append_inj h hlength).1

variable {r : Replacement} {rs : List Replacement}

theorem apply_of_absent (h : r.find ≠ "" → ¬ Bytes.ofString r.find <:+: content) :
    r.apply content = content := by
  rw [apply]
  split
  · rfl
  · next hne => exact replaceBytes_of_absent (h (by simpa [String.isEmpty_iff] using hne)) _

/-- **A replacement changes every text in which it finds something**: the same gaps with another text
    between them are another text. -/
theorem apply_eq_self_iff (hne : r.find ≠ "") (hchanges : r.find ≠ r.replaceWith) (content : Bytes) :
    r.apply content = content ↔ ¬ Bytes.ofString r.find <:+: content := by
  refine ⟨fun hsame hin => ?_, fun habsent => apply_of_absent fun _ => habsent⟩
  obtain ⟨gaps, hgaps, hnew⟩ := exists_gaps (Bytes.ofString_ne_nil hne) content
  rw [apply, if_neg (by simpa [String.isEmpty_iff] using hne), hnew, ← hgaps.intercalate] at hsame
  match gaps, hgaps, hsame with
  | [], hgaps, _ => exact hgaps.ne_nil rfl
  | [_], hgaps, _ => exact hgaps.absent_of_singleton (Bytes.ofString_ne_nil hne) hin
  | _ :: _ :: _, _, hsame => exact hchanges (Bytes.ofString_injective (eq_of_intercalate_eq hsame)).symm

theorem applyReplacements_append (before after : List Replacement) (content : Bytes) :
    applyReplacements (before ++ after) content =
      applyReplacements after (applyReplacements before content) := by
  rw [applyReplacements, List.foldl_append]
  rfl

/-- Replacements that leave a content alone one by one leave it alone together. -/
theorem applyReplacements_of_forall (h : ∀ r ∈ rs, r.apply content = content) :
    applyReplacements rs content = content := by
  induction rs with
  | nil => rfl
  | cons r rs ih =>
    obtain ⟨hr, hrs⟩ := List.forall_mem_cons.mp h
    rw [applyReplacements, List.foldl_cons, hr]
    exact ih hrs

/-- Replacements of texts that do not occur change nothing. -/
theorem applyReplacements_of_absent
    (h : ∀ r ∈ rs, r.find ≠ "" → ¬ Bytes.ofString r.find <:+: content) :
    applyReplacements rs content = content :=
  applyReplacements_of_forall fun r hr => apply_of_absent (h r hr)

end Stencil.Replacement
