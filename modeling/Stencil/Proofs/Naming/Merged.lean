/-
  Rules that are merged: longest first, and in their order among equal lengths.

  `LongestFirst size given sorted` says what sorting is for, without saying how it is done: the members
  are the same, none comes before a longer one, and those of one length keep their order.  That leaves
  one list only (`LongestFirst.unique`), and sorting gives it (`longestFirst_sortBy`).  So sorting a list
  that is in order changes nothing (`sortBy_of_pairwise`).

  The rules of a generation from a source tree are those of its configuration and those derived from the
  two names, merged (`merged_extend`).
-/
import Stencil.Naming.Rules
import Stencil.Proofs.Sorted

namespace Stencil

/-! ## Sorting by length -/

/-- The members in descending order of their sizes, and among equal sizes in the order given. -/
structure LongestFirst {α : Type} (size : α → Nat) (given sorted : List α) : Prop where
  perm : sorted.Perm given
  descending : sorted.Pairwise fun a b => size b ≤ size a
  ties : ∀ n, (sorted.filter fun a => size a = n) = given.filter fun a => size a = n

section Sorting

variable {α : Type} {size : α → Nat} {given sorted sorted' : List α}

/-- Sorting gives it: members of one size are in order, so they keep theirs. -/
theorem longestFirst_sortBy (size : α → Nat) (xs : List α) :
    LongestFirst size xs (sortBy (LongerFirst size) xs) where
  perm := sortBy_perm xs
  descending := by
    refine pairwise_sortBy (fun a b => ?_) (fun a b c hab hbc => ?_) xs
    · exact Nat.le_total (size b) (size a)
    · exact Nat.le_trans hbc hab
  ties n := by
    have hsame : (xs.filter fun a => size a = n).Pairwise (LongerFirst size) := by
      refine List.pairwise_of_forall_mem_list fun a ha b hb => ?_
      simp only [List.mem_filter, decide_eq_true_eq] at ha hb
      exact Nat.le_of_eq (hb.2.trans ha.2.symm)
    have hsub : (xs.filter fun a => size a = n).Sublist
        ((sortBy (LongerFirst size) xs).filter fun a => size a = n) := by
      simpa using (sublist_sortBy hsame List.filter_sublist).filter fun a => decide (size a = n)
    exact (hsub.eq_of_length ((sortBy_perm xs).symm.filter _).length_eq).symm

/-- **There is one such list.**  By induction on the list: the first member is the first one of the
    greatest size. -/
theorem LongestFirst.unique (h : LongestFirst size given sorted)
    (h' : LongestFirst size given sorted') : sorted = sorted' := by
  have hties : ∀ n, (sorted.filter fun a => size a = n) = sorted'.filter fun a => size a = n :=
    fun n => (h.ties n).trans (h'.ties n).symm
  have hperm : sorted.Perm sorted' := h.perm.trans h'.perm.symm
  have hdescending := h.descending
  have hdescending' := h'.descending
  clear h h'
  induction sorted generalizing sorted' with
  | nil => exact (List.nil_perm.mp hperm).symm
  | cons a as ih =>
    cases sorted' with
    | nil => exact absurd hperm.length_eq (by simp)
    | cons b bs =>
      obtain ⟨ha, has⟩ := List.pairwise_cons.mp hdescending
      obtain ⟨hb, hbs⟩ := List.pairwise_cons.mp hdescending'
      have hsize : size a = size b := by
        have hle : size a ≤ size b := by
          rcases List.mem_cons.mp (hperm.mem_iff.mp List.mem_cons_self) with heq | hmem
          · exact Nat.le_of_eq (congrArg size heq)
          · exact hb a hmem
        have hge : size b ≤ size a := by
          rcases List.mem_cons.mp (hperm.mem_iff.mpr List.mem_cons_self) with heq | hmem
          · exact Nat.le_of_eq (congrArg size heq)
          · exact ha b hmem
        omega
      have hfirst := hties (size a)
      rw [List.filter_cons_of_pos (by simp), List.filter_cons_of_pos (by simp [hsize])] at hfirst
      obtain ⟨rfl, -⟩ := List.cons.inj hfirst
      refine congrArg (List.cons a) (ih (fun n => ?_) ((List.perm_cons a).mp hperm) has hbs)
      have hn := hties n
      rw [List.filter_cons, List.filter_cons] at hn
      split at hn
      · exact (List.cons.inj hn).2
      · exact hn

/-- A relation along the list given holds along the sorted one between members of one size. -/
theorem LongestFirst.pairwise {R : α → α → Prop} (h : LongestFirst size given sorted)
    (hR : given.Pairwise R) :
    sorted.Pairwise fun a b => size b < size a ∨ (size b = size a ∧ R a b) := by
  rw [List.pairwise_iff_forall_sublist]
  intro a b hsub
  have hle : size b ≤ size a := List.pairwise_iff_forall_sublist.mp h.descending hsub
  rcases Nat.lt_or_eq_of_le hle with hlt | heq
  · exact .inl hlt
  · refine .inr ⟨heq, ?_⟩
    have hties := hsub.filter fun x => size x = size a
    rw [h.ties, List.filter_cons_of_pos (by simp), List.filter_cons_of_pos (by simp [heq])] at hties
    exact List.pairwise_iff_forall_sublist.mp hR (hties.trans List.filter_sublist)

end Sorting

/-! ## Merged rules -/

/-- The rules given and the derived ones together, longest first, those given first among equal
    lengths. -/
structure Rules.Merged (given derived merged : Rules) : Prop where
  replacements : LongestFirst (fun r : Replacement => r.find.utf8ByteSize)
    (given.replacements ++ derived.replacements) merged.replacements
  renames : LongestFirst (fun r : RenameRule => r.old.utf8ByteSize)
    (given.renames ++ derived.renames) merged.renames

theorem Rules.merged_extend (given derived : Rules) : given.Merged derived (given.extend derived) :=
  ⟨longestFirst_sortBy _ _, longestFirst_sortBy _ _⟩

/-- There is one way to merge rules. -/
theorem Rules.Merged.unique {given derived merged merged' : Rules} (h : given.Merged derived merged)
    (h' : given.Merged derived merged') : merged = merged' := by
  have hreplacements := h.replacements.unique h'.replacements
  have hrenames := h.renames.unique h'.renames
  cases merged
  cases merged'
  exact Rules.mk.injEq .. ▸ ⟨hreplacements, hrenames⟩

/-- The rename rules are put in order once more before they are applied, which changes nothing. -/
theorem Rules.Merged.sortLongest_renames {given derived merged : Rules}
    (h : given.Merged derived merged) : RenameRule.sortLongest merged.renames = merged.renames :=
  sortBy_of_pairwise h.renames.descending

/-- The longest come first already. -/
structure Rules.IsSorted (rules : Rules) : Prop where
  replacements : rules.replacements.Pairwise fun a b => b.find.utf8ByteSize ≤ a.find.utf8ByteSize
  renames : rules.renames.Pairwise fun a b => b.old.utf8ByteSize ≤ a.old.utf8ByteSize

/-- Without further rules, rules in order stay as they are. -/
theorem Rules.IsSorted.extend_nothing {rules : Rules} (h : rules.IsSorted) : rules.extend {} = rules := by
  rw [Rules.extend, List.append_nil, List.append_nil, Replacement.sortLongest, RenameRule.sortLongest,
    sortBy_of_pairwise h.replacements, sortBy_of_pairwise h.renames]

end Stencil
