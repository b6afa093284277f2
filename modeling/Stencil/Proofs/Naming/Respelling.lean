/-
  Does every spelling of the old name become that spelling of the new one?

  The derived rules are applied one after the other, the longest first.

  1. **The rules.** The texts that are looked for differ from each other and are not empty
     (`renamings_deriveRules`), and they stand longest first.  So no rule finds anything in a text that a
     later rule looks for (`Renamings.absent`).
  2. **One text.** Up to its own rule such a text is left alone, its own rule puts the new spelling in
     its place, and what the later rules do to the new spelling is the result (`Renamings.apply_find`).
     The order of the rules says nothing about that last step.
  3. **When it is exact.** A rule changes every text in which it finds something (`apply_eq_self_iff`).
     So the rules are exact if and only if no rule looks for a text inside a spelling put by a rule
     before it.  That is so whenever the new name does not contain the old one, both reduced to their
     letters and digits.
-/
import Stencil.Proofs.Naming.Core
import Stencil.Proofs.Naming.Derivation
import Stencil.Proofs.Replacement.Gaps

namespace Stencil

/-! ## The derived rules -/

namespace Replacement

/-- Rules each of which changes something, for different texts, the longest first. -/
structure Renamings (rs : List Replacement) : Prop where
  nonempty : ∀ r ∈ rs, r.find ≠ ""
  changes : ∀ r ∈ rs, r.find ≠ r.replaceWith
  distinct : rs.Pairwise fun r later => r.find ≠ later.find
  descending : rs.Pairwise fun r later => later.find.utf8ByteSize ≤ r.find.utf8ByteSize

theorem renamings_deriveRules (source target : String) :
    Renamings (deriveRules source target).replacements where
  nonempty := by
    intro r hr
    obtain ⟨_, -, -, -, hne, -, -⟩ := exists_change_of_isDerived (.inl hr)
    exact hne
  changes := by
    intro r hr
    obtain ⟨_, -, -, -, -, hchanges, -⟩ := exists_change_of_isDerived (.inl hr)
    exact hchanges
  distinct := by
    have hderivation := derivation_decidingChanges source target
    rw [hderivation.replacements]
    exact List.pairwise_map.mpr hderivation.distinct
  descending := (longestFirst_sortBy _ _).descending

/-- A derived rule goes from one spelling of the old name to the same spelling of the new one. -/
theorem exists_convention_of_mem {source target : String} {r : Replacement}
    (h : r ∈ (deriveRules source target).replacements) : ∃ k : Convention,
      r.find = k.spell (trim source) ∧ r.replaceWith = k.spell (trim target) := by
  obtain ⟨c, ⟨hold, hnew⟩, hfind, hreplace, -⟩ := exists_change_of_isDerived (.inl h)
  exact ⟨c.convention, hfind ▸ eq_spell_of_lookup hold, hreplace ▸ eq_spell_of_lookup hnew⟩

/-! ## One text -/

/-- The text of a rule becomes what replaces it. -/
theorem apply_find {r : Replacement} (h : r.find ≠ "") :
    r.apply (Bytes.ofString r.find) = Bytes.ofString r.replaceWith := by
  have hwhole := replaceBytes_append (Bytes.ofString_ne_nil h) (Bytes.ofString r.replaceWith) []
  rw [apply, if_neg (by simpa [String.isEmpty_iff] using h)]
  simpa [replaceBytes, replaceFrom] using hwhole

/-! ## The whole list -/

section Renamings

variable {rs before after : List Replacement} {r : Replacement}

/-- A rule finds nothing in the text of a later rule: that one is no longer, and another one. -/
theorem Renamings.absent (h : Renamings rs) :
    rs.Pairwise fun r later => ¬ Bytes.ofString r.find <:+: Bytes.ofString later.find := by
  refine (h.distinct.and h.descending).imp ?_
  rintro r later ⟨hne, hle⟩ hin
  refine hne (Bytes.ofString_injective (hin.eq_of_length ?_))
  have hge := hin.length_le
  rw [Bytes.length_ofString, Bytes.length_ofString] at hge ⊢
  omega

/-- **The text of a rule becomes its new spelling, and then whatever the later rules make of that.** -/
theorem Renamings.apply_find (h : Renamings rs) (hsplit : rs = before ++ r :: after) :
    applyReplacements rs (Bytes.ofString r.find) =
      applyReplacements after (Bytes.ofString r.replaceWith) := by
  have habsent := h.absent
  have hne := h.nonempty r (by simp [hsplit])
  rw [hsplit] at habsent ⊢
  have hbefore : applyReplacements before (Bytes.ofString r.find) = Bytes.ofString r.find :=
    applyReplacements_of_forall fun q hq =>
      apply_of_absent fun _ => (List.pairwise_append.mp habsent).2.2 q hq r List.mem_cons_self
  rw [applyReplacements_append, hbefore, applyReplacements, List.foldl_cons, Replacement.apply_find hne]
  rfl

/-- Every text that a rule looks for becomes what the rule puts for it, and no rule rewrites what a rule
    before it puts. -/
structure Undisturbed (rs : List Replacement) : Prop where
  exact : ∀ r ∈ rs, applyReplacements rs (Bytes.ofString r.find) = Bytes.ofString r.replaceWith
  kept : rs.Pairwise fun r later =>
    later.apply (Bytes.ofString r.replaceWith) = Bytes.ofString r.replaceWith

/-- What is not rewritten later is what comes out. -/
theorem Renamings.undisturbed (h : Renamings rs) (hkept : rs.Pairwise fun r later =>
    later.apply (Bytes.ofString r.replaceWith) = Bytes.ofString r.replaceWith) : Undisturbed rs where
  exact := by
    intro r hr
    obtain ⟨before, after, hsplit⟩ := List.append_of_mem hr
    rw [h.apply_find hsplit]
    rw [hsplit] at hkept
    exact applyReplacements_of_forall
      (List.pairwise_cons.mp (List.pairwise_append.mp hkept).2.1).1
  kept := hkept

theorem Renamings.undisturbed_iff (h : Renamings rs) : Undisturbed rs ↔
    rs.Pairwise fun r later => ¬ Bytes.ofString later.find <:+: Bytes.ofString r.replaceWith := by
  have hrewrites : ∀ r later : Replacement, later ∈ rs →
      (later.apply (Bytes.ofString r.replaceWith) = Bytes.ofString r.replaceWith ↔
        ¬ Bytes.ofString later.find <:+: Bytes.ofString r.replaceWith) :=
    fun r later hlater => apply_eq_self_iff (h.nonempty later hlater) (h.changes later hlater) _
  have hpairwise : (rs.Pairwise fun r later : Replacement =>
      later.apply (Bytes.ofString r.replaceWith) = Bytes.ofString r.replaceWith) ↔
      rs.Pairwise fun r later : Replacement =>
        ¬ Bytes.ofString later.find <:+: Bytes.ofString r.replaceWith :=
    List.Pairwise.iff_of_mem fun _ hlater => hrewrites _ _ hlater
  exact ⟨fun hrs => hpairwise.mp hrs.kept, fun habsent => h.undisturbed (hpairwise.mpr habsent)⟩

end Renamings

/-- A new name whose letters and digits do not contain those of the old one holds no spelling of it. -/
theorem absent_of_core {source target : String} (hsource : IsAscii source.toList)
    (htarget : IsAscii target.toList)
    (hcore : ¬ core (Bytes.ofString source) <:+: core (Bytes.ofString target)) {r later : Replacement}
    (hr : r ∈ (deriveRules source target).replacements)
    (hlater : later ∈ (deriveRules source target).replacements) :
    ¬ Bytes.ofString later.find <:+: Bytes.ofString r.replaceWith := by
  intro hin
  obtain ⟨k, hfind, -⟩ := exists_convention_of_mem hlater
  obtain ⟨j, -, hnew⟩ := exists_convention_of_mem hr
  have hspelled := core_infix hin
  rw [hfind, hnew, k.core_spell (isAscii_trim hsource), j.core_spell (isAscii_trim htarget),
    core_trim, core_trim] at hspelled
  exact hcore hspelled

/-- **When the derived rules are exact.**
    (1) The text of a rule becomes the new spelling, and then whatever the later rules make of that.
    (2) Every text of a rule becomes exactly its new spelling, and no rule rewrites what one before it
        wrote, if and only if no rule looks for a text inside a spelling put by a rule before it.
    (3) That is so whenever the new name does not contain the old one, both reduced to letters and digits
        in lower case. -/
theorem undisturbed_deriveRules_iff (source target : String) :
    (∀ before r after, (deriveRules source target).replacements = before ++ r :: after →
      applyReplacements (deriveRules source target).replacements (Bytes.ofString r.find) =
        applyReplacements after (Bytes.ofString r.replaceWith)) ∧
    (Undisturbed (deriveRules source target).replacements ↔
      (deriveRules source target).replacements.Pairwise fun r later =>
        ¬ Bytes.ofString later.find <:+: Bytes.ofString r.replaceWith) ∧
    (IsAscii source.toList → IsAscii target.toList →
      ¬ core (Bytes.ofString source) <:+: core (Bytes.ofString target) →
      Undisturbed (deriveRules source target).replacements) := by
  have hrules := renamings_deriveRules source target
  refine ⟨fun _ _ _ hsplit => hrules.apply_find hsplit, hrules.undisturbed_iff, ?_⟩
  intro hsource htarget hcore
  refine hrules.undisturbed_iff.mpr (List.pairwise_of_forall_mem_list fun r hr later hlater => ?_)
  exact absent_of_core hsource htarget hcore hr hlater

/-- Two names of which neither is part of the other. -/
theorem undisturbed_newApp : Undisturbed (deriveRules "MyBank" "NewApp").replacements :=
  (undisturbed_deriveRules_iff "MyBank" "NewApp").2.2 (by decide) (by decide) (by decide +kernel)

/-- The new name contains the old one in capitals.  So the rule for capitals, which comes after the one
    for `Cli`, rewrites the end of what that one put. -/
theorem not_undisturbed_cli :
    (⟨"Cli", "MyCLI"⟩ : Replacement) ∈ (deriveRules "cli" "myCLI").replacements ∧
    applyReplacements (deriveRules "cli" "myCLI").replacements (Bytes.ofString "Cli") =
      Bytes.ofString "MyMY_CLI" ∧
    ¬ Undisturbed (deriveRules "cli" "myCLI").replacements := by
  have hmem : (⟨"Cli", "MyCLI"⟩ : Replacement) ∈ (deriveRules "cli" "myCLI").replacements := by
    decide +kernel
  have hresult : applyReplacements (deriveRules "cli" "myCLI").replacements (Bytes.ofString "Cli") =
      Bytes.ofString "MyMY_CLI" := by decide +kernel
  refine ⟨hmem, hresult, fun h => ?_⟩
  have hwritten := (h.exact _ hmem).symm.trans hresult
  exact absurd (Bytes.ofString_injective hwritten) (by decide)

end Replacement

end Stencil
