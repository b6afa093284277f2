/-
  A part of a text that stays while the text around it is replaced.

  `Beside part kept` says where `part` can be in a text around `kept`: before it or behind it, but not
  across its ends.  It speaks of every text, so it can be used again after each replacement.  A part that
  holds neither the first nor the last byte of `kept` can only lie inside of it (`beside_of_not_mem`).

  If all that is looked for lies beside `kept`, the replacements work on what is before and on what is
  behind, each for itself (`applyReplacements_around`).
-/
import Stencil.Proofs.Replacement.Gaps

namespace Stencil

/-- Where `part` occurs in a text around `kept`, it lies before `kept` or behind it, or it is `kept`. -/
def Beside (part kept : Bytes) : Prop :=
  ∀ before after x y, before ++ kept ++ after = x ++ part ++ y →
    x ++ part <+: before ∨ part ++ y <:+ after ∨ x = before ∧ y = after

/-- A part that holds neither end of `kept` lies beside it, unless it lies inside. -/
theorem beside_of_not_mem {part kept : Bytes} (hne : kept ≠ [])
    (hfirst : ∀ b ∈ kept.head?, b ∉ part) (hlast : ∀ b ∈ kept.getLast?, b ∉ part)
    (habsent : ¬ part <:+: kept) : Beside part kept := by
  intro before after x y htext
  rw [List.append_assoc, List.append_assoc, List.append_eq_append_iff] at htext
  rcases htext with ⟨a, rfl, hrest⟩ | ⟨a, rfl, hrest⟩
  · -- the part begins where `kept` begins, or further on
    rcases List.append_eq_append_iff.mp hrest with ⟨e, rfl, hafter⟩ | ⟨e, rfl, hover⟩
    · exact .inr (.inl ⟨e, hafter.symm⟩)
    · rcases List.append_eq_append_iff.mp hover with ⟨g, rfl, -⟩ | ⟨g, hpart, hafter⟩
      · exact absurd ⟨a, g, by simp⟩ habsent
      · -- it goes on behind the end of `kept`, if there is anything of it before
        cases e using List.reverseRecOn with
        | nil => exact .inr (.inl ⟨[], by simpa using hover⟩)
        | append_singleton e b => exact absurd (by simp [hpart]) (hlast b (by simp))
  · -- the part begins before `kept`
    rcases List.append_eq_append_iff.mp hrest with ⟨g, rfl, -⟩ | ⟨g, hpart, hkept⟩
    · exact .inl ⟨g, by simp⟩
    · obtain ⟨b, bs, rfl⟩ := List.exists_cons_of_ne_nil hne
      cases g with
      | nil => exact .inl ⟨[], by simp [hpart]⟩
      | cons c g =>
        obtain ⟨rfl, -⟩ := List.cons.inj hkept
        exact absurd (by simp [hpart]) (hfirst _ rfl)

namespace Replacement

variable {find kept : Bytes}

/-- Nothing is found in `kept` by a search that reaches it. -/
theorem replaceBytes_kept (hfind : find ≠ []) (hbeside : Beside find kept)
    (habsent : ¬ find <:+: kept) (new after : Bytes) :
    replaceBytes find new (kept ++ after) = kept ++ replaceBytes find new after := by
  suffices h : ∀ front rest, front ++ rest = kept →
      replaceBytes find new (rest ++ after) = rest ++ replaceBytes find new after from h [] kept rfl
  intro front rest hkept
  induction rest generalizing front with
  | nil => rfl
  | cons b rest ih =>
    have hnone : ¬ find <+: b :: (rest ++ after) := by
      rintro ⟨y, hy⟩
      have htext : [] ++ kept ++ after = front ++ find ++ y := by simp [← hkept, hy]
      rcases hbeside [] after front y htext with hbefore | hbehind | ⟨rfl, rfl⟩
      · exact hfind (List.append_eq_nil_iff.mp (List.prefix_nil.mp hbefore)).2
      · -- too little is left behind `kept`
        have hlength := congrArg List.length hy
        have hle := hbehind.length_le
        simp only [List.length_append, List.length_cons] at hlength hle
        omega
      · have hsame : kept = find := by simpa using htext
        exact habsent (hsame ▸ List.infix_refl _)
    rw [List.cons_append, replaceBytes_cons hnone, ih (front ++ [b]) (by simpa using hkept)]
    rfl

/-- **A replacement works around a part beside which it finds what it looks for.** -/
theorem replaceBytes_around (hfind : find ≠ []) (hbeside : Beside find kept)
    (habsent : ¬ find <:+: kept) (new before after : Bytes) :
    replaceBytes find new (before ++ kept ++ after) =
      replaceBytes find new before ++ kept ++ replaceBytes find new after := by
  induction before using occurrence_induction hfind with
  | nil =>
    rw [List.nil_append, replaceBytes_kept hfind hbeside habsent]
    rfl
  | found rest ih =>
    rw [replaceBytes_append hfind, List.append_assoc, List.append_assoc, replaceBytes_append hfind,
      ← List.append_assoc, ih]
    simp only [List.append_assoc]
  | kept b rest hstarts ih =>
    have hnone : ¬ find <+: b :: (rest ++ kept ++ after) := by
      rintro ⟨y, hy⟩
      rcases hbeside (b :: rest) after [] y hy.symm with hbefore | hbehind | ⟨hnil, -⟩
      · exact hstarts hbefore
      · have hlength := congrArg List.length hy
        have hle := hbehind.length_le
        simp only [List.length_append, List.length_cons] at hlength hle
        omega
      · cases hnil
    rw [List.cons_append, List.cons_append, replaceBytes_cons hnone, replaceBytes_cons hstarts, ih]
    rfl

theorem apply_around {r : Replacement} (hbeside : Beside (Bytes.ofString r.find) kept)
    (habsent : ¬ Bytes.ofString r.find <:+: kept) (before after : Bytes) :
    r.apply (before ++ kept ++ after) = r.apply before ++ kept ++ r.apply after := by
  simp only [apply]
  split
  · rfl
  · next hne =>
    exact replaceBytes_around (Bytes.ofString_ne_nil (by simpa [String.isEmpty_iff] using hne)) hbeside
      habsent _ before after

/-- Replacements work around a part beside which they all find what they look for. -/
theorem applyReplacements_around {rs : List Replacement}
    (hbeside : ∀ r ∈ rs, Beside (Bytes.ofString r.find) kept)
    (habsent : ∀ r ∈ rs, ¬ Bytes.ofString r.find <:+: kept) (before after : Bytes) :
    applyReplacements rs (before ++ kept ++ after) =
      applyReplacements rs before ++ kept ++ applyReplacements rs after := by
  induction rs generalizing before after with
  | nil => rfl
  | cons r rs ih =>
    obtain ⟨hr, hrs⟩ := List.forall_mem_cons.mp hbeside
    obtain ⟨hr', hrs'⟩ := List.forall_mem_cons.mp habsent
    simp only [applyReplacements, List.foldl_cons, apply_around hr hr']
    exact ih hrs hrs' _ _

end Replacement

end Stencil
