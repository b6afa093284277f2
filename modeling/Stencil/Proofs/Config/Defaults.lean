/-
  The gaps of a configuration are filled once.

  The lists of patterns of a configuration are merged behind the built-in tables wherever they are used:
  when a configuration is read, when a walk is prepared, and when a template is described.  So the same
  list is merged several times, on different ways.

  1. **One list.**  Merging goes through the patterns one by one.  What it adds to those that are there are
     the others, trimmed, each at its first place (`addPatterns_eq`).
  2. **A table and a list.**  The table stays in front as it is, because its entries are trimmed, show
     something and differ (`IsTable`).  So a merged list is known in full (`Completes`), and it is a table
     itself: merging it behind the same table once more changes nothing (`mergePatterns_mergePatterns`).
  3. **A configuration.**  All its lists have this form, so it does not matter how often its gaps are
     filled, nor where (`Config.withDefaults_complete`).
-/
import Mathlib.Data.List.Nodup
import Stencil.Config
import Stencil.Proofs.Token.Delimiters

namespace Stencil

variable {table own kept ps : List String} {p : String}

/-! ## One list -/

/-- Nothing is left of a blank pattern. -/
theorem trim_of_isBlank (h : isBlank p = true) : trim p = "" := by
  have hall : ∀ c ∈ p.toList, isBlankChar c = true := List.all_eq_true.mp h
  have hstart : trimStartChars p.toList = [] := List.dropWhile_eq_nil_iff.mpr hall
  rw [trim, trimChars, hstart]
  rfl

/-- Nothing is left of a text without the white space around it exactly if it is blank. -/
theorem isEmpty_trim (p : String) : (trim p).isEmpty = isBlank p := by
  cases hblank : isBlank p with
  | true =>
    rw [trim_of_isBlank hblank]
    rfl
  | false => exact String.isEmpty_eq_false_iff.mpr (ne_empty_of_isBlank (isBlank_trim hblank))

/-- The patterns that show something, without the white space around them. -/
def shownPatterns (ps : List String) : List String := (ps.filter fun p => !isBlank p).map trim

/-- Patterns are shown one by one, trimmed, and blank ones are not. -/
theorem shownPatterns_cons (p : String) (ps : List String) :
    shownPatterns (p :: ps) = if isBlank p then shownPatterns ps else trim p :: shownPatterns ps := by
  rw [shownPatterns, List.filter_cons]
  cases isBlank p <;> rfl

/-- What is shown is a trimmed pattern that is not blank. -/
theorem mem_shownPatterns : p ∈ shownPatterns ps ↔ ∃ q ∈ ps, isBlank q = false ∧ trim q = p := by
  simp [shownPatterns, and_assoc]

/-- **What merging adds** to the patterns that are there: the others, each at its first place.  By
    induction on the patterns that are left. -/
theorem addPatterns_eq (kept ps : List String) : addPatterns kept ps =
    kept ++ ((shownPatterns ps).filter fun p => !kept.contains p).eraseDups := by
  induction ps generalizing kept with
  | nil => exact (List.append_nil kept).symm
  | cons p ps ih =>
    rw [addPatterns, shownPatterns_cons, isEmpty_trim]
    cases isBlank p with
    | true => exact ih kept
    | false =>
      rw [Bool.false_or, if_neg Bool.false_ne_true, List.filter_cons]
      cases hthere : kept.contains (trim p) with
      | true => exact ih kept
      | false =>
        -- from now on the pattern itself is there too
        have hrest : (shownPatterns ps).filter (fun q => !(kept ++ [trim p]).contains q) =
            ((shownPatterns ps).filter fun q => !kept.contains q).filter fun q => !q == trim p := by
          rw [List.filter_filter]
          refine List.filter_congr fun q _ => ?_
          rw [List.contains_append, Bool.not_or, Bool.and_comm, List.contains_cons, List.contains_nil,
            Bool.or_false]
        rw [if_neg Bool.false_ne_true, ih, hrest, Bool.not_false, if_pos rfl, List.eraseDups_cons,
          List.append_assoc, List.singleton_append]

/-- What is there once patterns are merged. -/
theorem mem_addPatterns : p ∈ addPatterns kept ps ↔ p ∈ kept ∨ p ∈ shownPatterns ps := by
  rw [addPatterns_eq, List.mem_append, List.mem_eraseDups, List.mem_filter]
  by_cases hthere : p ∈ kept <;> simp [hthere]

/-- Merging leaves no pattern twice. -/
theorem nodup_addPatterns (h : kept.Nodup) (ps : List String) : (addPatterns kept ps).Nodup := by
  induction ps generalizing kept with
  | nil => exact h
  | cons p ps ih =>
    rw [addPatterns]
    refine ih ?_
    split
    · exact h
    · rename_i hnew
      rw [Bool.or_eq_true, not_or, List.contains_iff_mem] at hnew
      exact List.concat_eq_append ▸ h.concat hnew.2

/-- A list in which nothing stands twice stays as it is. -/
theorem eraseDups_of_nodup (h : ps.Nodup) : ps.eraseDups = ps := by
  induction ps with
  | nil => rfl
  | cons p ps ih =>
    obtain ⟨hnew, hrest⟩ := List.nodup_cons.mp h
    have hall : (ps.filter fun q => !q == p) = ps := by
      refine List.filter_eq_self.mpr fun q hq => ?_
      have hne : q ≠ p := fun heq => hnew (heq ▸ hq)
      simpa using hne
    rw [List.eraseDups_cons, hall, ih hrest]

/-! ## A table and a list -/

/-- Patterns as they stand in a table: they show something, there is no white space around them, and they
    differ. -/
structure IsTable (table : List String) : Prop where
  shown : ∀ p ∈ table, isBlank p = false
  trimmed : ∀ p ∈ table, trim p = p
  distinct : table.Nodup

instance (table : List String) : Decidable (IsTable table) :=
  decidable_of_iff ((∀ p ∈ table, isBlank p = false) ∧ (∀ p ∈ table, trim p = p) ∧ table.Nodup)
    ⟨fun h => ⟨h.1, h.2.1, h.2.2⟩, fun h => ⟨h.1, h.2, h.3⟩⟩

/-- The built-in lists are tables: their patterns are trimmed, and none stands in one twice. -/
theorem isTable_ignoreFolders : IsTable Defaults.ignoreFolders := by decide +kernel

theorem isTable_ignoreFiles : IsTable Defaults.ignoreFiles := by decide +kernel

theorem isTable_staticFiles : IsTable Defaults.staticFiles := by decide +kernel

/-- The patterns of a configuration that are not built in, each at its first place. -/
def ownPatterns (table own : List String) : List String :=
  ((shownPatterns own).filter fun p => !table.contains p).eraseDups

example : ownPatterns ["a", "b"] [" c", "b ", "\t", "a", "d", "c"] = ["c", "d"] := by decide +kernel

/-- The list has the built-in patterns first and then the others of a configuration, in the order in which
    they are declared.  It is clean, and every pattern of the configuration that shows something stands in
    it once. -/
structure Completes (table own list : List String) : Prop extends IsTable list where
  ahead : list = table ++ ownPatterns table own
  once : ∀ p ∈ own, isBlank p = false → list.count (trim p) = 1

namespace IsTable

variable (h : IsTable table)

include h

/-- The patterns of a table are shown as they are. -/
theorem shownPatterns_eq : shownPatterns table = table := by
  have hall : (table.filter fun p => !isBlank p) = table :=
    List.filter_eq_self.mpr fun p hp => by rw [h.shown p hp]; rfl
  rw [shownPatterns, hall]
  exact (List.map_congr_left h.trimmed).trans (List.map_id table)

/-- Behind a table patterns are merged as if it had always been there. -/
theorem mergePatterns_eq (own : List String) : mergePatterns table own = addPatterns table own := by
  have hnew : (table.filter fun p => !([] : List String).contains p) = table :=
    List.filter_eq_self.mpr fun p _ => rfl
  rw [mergePatterns, addPatterns_eq [] table, h.shownPatterns_eq, hnew, eraseDups_of_nodup h.distinct]
  rfl

/-- What is merged behind a table is a table. -/
theorem merged (own : List String) : IsTable (mergePatterns table own) := by
  rw [h.mergePatterns_eq]
  refine ⟨fun p hp => ?_, fun p hp => ?_, nodup_addPatterns h.distinct own⟩
  · rcases mem_addPatterns.mp hp with hp | hp
    · exact h.shown p hp
    · obtain ⟨q, -, hshown, rfl⟩ := mem_shownPatterns.mp hp
      exact isBlank_trim hshown
  · rcases mem_addPatterns.mp hp with hp | hp
    · exact h.trimmed p hp
    · obtain ⟨q, -, -, rfl⟩ := mem_shownPatterns.mp hp
      exact trim_trim q

/-- **A merged list in full.** -/
theorem completes (own : List String) : Completes table own (mergePatterns table own) where
  toIsTable := h.merged own
  ahead := (h.mergePatterns_eq own).trans (addPatterns_eq table own)
  once := by
    intro p hp hshown
    refine List.count_eq_one_of_mem (h.merged own).distinct ?_
    rw [h.mergePatterns_eq]
    exact mem_addPatterns.mpr (.inr (mem_shownPatterns.mpr ⟨p, hp, hshown, rfl⟩))

/-- **Merging twice is merging once.** -/
theorem mergePatterns_mergePatterns (own : List String) :
    mergePatterns table (mergePatterns table own) = mergePatterns table own := by
  obtain ⟨hclean, hahead, -⟩ := h.completes own
  have hdistinct := hclean.distinct
  rw [hahead, List.nodup_append] at hdistinct
  obtain ⟨-, hown, hapart⟩ := hdistinct
  -- of the merged list only what is not built in is added again
  have hbuiltIn : (table.filter fun p => !table.contains p) = [] :=
    List.filter_eq_nil_iff.mpr fun p hp => by simp [hp]
  have hrest : ((ownPatterns table own).filter fun p => !table.contains p) = ownPatterns table own := by
    refine List.filter_eq_self.mpr fun p hp => ?_
    have hne : p ∉ table := fun hmem => hapart p hmem p hp rfl
    simpa using hne
  rw [h.mergePatterns_eq (mergePatterns table own), addPatterns_eq, hclean.shownPatterns_eq,
    hahead, List.filter_append, hbuiltIn, hrest, List.nil_append, eraseDups_of_nodup hown]

end IsTable

/-! ## A configuration -/

namespace Config

variable (c : Config)

/-- With the defaults added, matching goes by the same patterns as without, since it adds them itself. -/
theorem folderPatterns_withDefaults : c.withDefaults.folderPatterns = c.folderPatterns :=
  isTable_ignoreFolders.mergePatterns_mergePatterns c.ignoreFolders

theorem filePatterns_withDefaults : c.withDefaults.filePatterns = c.filePatterns :=
  isTable_ignoreFiles.mergePatterns_mergePatterns c.ignoreFiles

theorem staticGlobs_withDefaults : c.withDefaults.staticGlobs = c.staticGlobs :=
  isTable_staticFiles.mergePatterns_mergePatterns c.staticFiles

/-- A default takes the place of an empty path once. -/
theorem pathOr_pathOr {default : String} (h : default ≠ "") (p : Path) :
    pathOr (pathOr p default) default = pathOr p default := by
  have hshown : (Path.ofString default).text.isEmpty = false :=
    List.isEmpty_eq_false_iff.mpr (Bytes.ofString_ne_nil h)
  by_cases hempty : p.text.isEmpty = true
  · rw [pathOr, pathOr, if_pos hempty, hshown, if_neg Bool.false_ne_true]
  · rw [pathOr, pathOr, if_neg hempty, if_neg hempty]

/-- Gaps are filled once. -/
theorem withDefaults_withDefaults : c.withDefaults.withDefaults = c.withDefaults := by
  have hsource : pathOr (pathOr c.sourceRoot ".") "." = pathOr c.sourceRoot "." :=
    pathOr_pathOr (by decide) c.sourceRoot
  have htemplate : pathOr (pathOr c.templateRoot Defaults.templateRoot) Defaults.templateRoot =
      pathOr c.templateRoot Defaults.templateRoot := pathOr_pathOr (by decide) c.templateRoot
  rw [withDefaults, folderPatterns_withDefaults, filePatterns_withDefaults, staticGlobs_withDefaults]
  simp only [withDefaults, Delimiters.normalized_normalized, hsource, htemplate]

/-- **Defaults are merged once and for all.**
    (1) A configuration whose gaps are filled has none.
    (2) The lists that a walk is prepared with are the same before and after, with any extra patterns, and
        those of the files that are copied as they are stand in the configuration itself then.
    (3) Each of them is complete.
    (4) The delimiters show something, and there is no white space around them. -/
theorem withDefaults_complete (extra : List String) :
    c.withDefaults.withDefaults = c.withDefaults ∧
    (c.withDefaults.folderPatterns = c.folderPatterns ∧ c.withDefaults.filePatterns = c.filePatterns ∧
      c.withDefaults.ignoreRules extra = c.ignoreRules extra ∧
      c.withDefaults.staticGlobs = c.staticGlobs ∧
      c.withDefaults.staticGlobs = c.withDefaults.staticFiles) ∧
    (Completes Defaults.ignoreFolders c.ignoreFolders c.folderPatterns ∧
      Completes Defaults.ignoreFiles c.ignoreFiles c.filePatterns ∧
      Completes Defaults.staticFiles c.staticFiles c.staticGlobs) ∧
    (isBlank c.withDefaults.delimiters.opening = false ∧
      trim c.withDefaults.delimiters.opening = c.withDefaults.delimiters.opening) ∧
    (isBlank c.withDefaults.delimiters.closing = false ∧
      trim c.withDefaults.delimiters.closing = c.withDefaults.delimiters.closing) := by
  have hrules : c.withDefaults.ignoreRules extra = c.ignoreRules extra := by
    rw [ignoreRules, folderPatterns_withDefaults, filePatterns_withDefaults]
    rfl
  exact ⟨c.withDefaults_withDefaults,
    ⟨c.folderPatterns_withDefaults, c.filePatterns_withDefaults, hrules, c.staticGlobs_withDefaults,
      c.staticGlobs_withDefaults⟩,
    ⟨isTable_ignoreFolders.completes c.ignoreFolders, isTable_ignoreFiles.completes c.ignoreFiles,
      isTable_staticFiles.completes c.staticFiles⟩,
    ⟨c.delimiters.isBlank_opening, c.delimiters.trim_opening⟩,
    c.delimiters.isBlank_closing, c.delimiters.trim_closing⟩

end Config

end Stencil
