/-
  One more pattern for files.

  A pattern is added to the files that a configuration leaves out.  What becomes of a walk?

  1. **The rules.**  Merged or not, a list of patterns matches what one of its patterns matches
     (`matchesPath_read_iff`).  So the rules leave out what they left out before, and the files that the
     new pattern hides (`ignores_leavingOut`).  Folders are not tested with it.
  2. **The walk.**  Files are not entered, so leaving one out is as good as not showing it to the visitor
     (`sparing`).  The walk with the pattern does what the walk without it does for a visitor who is not
     shown the hidden files; only the number of entries left out differs (`agree_walkSource`).
-/
import Stencil.Proofs.Config.Defaults
import Stencil.Proofs.Pattern.Literal
import Stencil.Proofs.Task
import Stencil.Walk

namespace Stencil

/-! ## The rules -/

namespace PatternSet

variable {ps qs : List String} {path : String}

/-- A list of patterns matches what one of them matches. -/
theorem matchesPath_read_iff : (read ps).matchesPath path = true ↔ ∃ p ∈ ps, ∃ pattern,
    Pattern.read? p = some pattern ∧ pattern.matchesPath (Bytes.ofString (forwardSlashes path)) = true := by
  rw [matchesPath, read, List.any_eq_true]
  simp only [List.mem_filterMap]
  constructor
  · rintro ⟨pattern, ⟨p, hp, hread⟩, hmatch⟩
    exact ⟨p, hp, pattern, hread, hmatch⟩
  · rintro ⟨p, hp, pattern, hread, hmatch⟩
    exact ⟨pattern, ⟨p, hp, hread⟩, hmatch⟩

theorem matchesPath_read_append (ps qs : List String) (path : String) :
    (read (ps ++ qs)).matchesPath path = ((read ps).matchesPath path || (read qs).matchesPath path) := by
  rw [matchesPath, read, List.filterMap_append, List.any_append]
  rfl

/-- The white space around a pattern does not count. -/
theorem read?_trim (p : String) : Pattern.read? (trim p) = Pattern.read? p := by
  rw [Pattern.read?, trim, String.toList_ofList, trimChars_trimChars]
  rfl

/-- Nor do blank patterns, and patterns that are there already. -/
theorem matchesPath_read_addPatterns (kept ps : List String) (path : String) :
    (read (addPatterns kept ps)).matchesPath path =
      ((read kept).matchesPath path || (read ps).matchesPath path) := by
  rw [Bool.eq_iff_iff, Bool.or_eq_true, matchesPath_read_iff, matchesPath_read_iff, matchesPath_read_iff]
  constructor
  · rintro ⟨p, hp, hmatch⟩
    rcases mem_addPatterns.mp hp with hkept | hshown
    · exact .inl ⟨p, hkept, hmatch⟩
    · obtain ⟨q, hq, -, rfl⟩ := mem_shownPatterns.mp hshown
      rw [read?_trim] at hmatch
      exact .inr ⟨q, hq, hmatch⟩
  · rintro (⟨p, hp, hmatch⟩ | ⟨p, hp, pattern, hread, hmatch⟩)
    · exact ⟨p, mem_addPatterns.mpr (.inl hp), hmatch⟩
    · -- a pattern that is read is not blank
      have hshown : isBlank p = false := by
        cases hblank : isBlank p with
        | false => rfl
        | true =>
          rw [← read?_trim, trim_of_isBlank hblank] at hread
          cases hread
      refine ⟨trim p, mem_addPatterns.mpr (.inr (mem_shownPatterns.mpr ⟨p, hp, hshown, rfl⟩)), pattern,
        ?_, hmatch⟩
      rw [read?_trim, hread]

end PatternSet

/-- The configuration with one more pattern of files that are left out. -/
def Config.leavingOut (c : Config) (pattern : String) : Config :=
  { c with ignoreFiles := c.ignoreFiles ++ [pattern] }

/-- **The rules with one more pattern** leave out what they left out before, and the files that the pattern
    hides. -/
theorem Config.ignores_leavingOut (c : Config) (pattern : String) (extra : List String) (path : String)
    (isFolder : Bool) : ((c.leavingOut pattern).ignoreRules extra).ignores path isFolder =
      ((c.ignoreRules extra).ignores path isFolder || (!isFolder && hides pattern path)) := by
  have hfiles : ∀ p, ((c.leavingOut pattern).ignoreRules extra).files.matchesPath p =
      ((c.ignoreRules extra).files.matchesPath p || (PatternSet.read [pattern]).matchesPath p) := by
    intro p
    simp only [ignoreRules, IgnoreRules.read, filePatterns, mergePatterns, leavingOut,
      PatternSet.matchesPath_read_addPatterns, PatternSet.matchesPath_read_append, Bool.or_assoc]
  have hfolders : ((c.leavingOut pattern).ignoreRules extra).folders = (c.ignoreRules extra).folders := rfl
  have hextra : ((c.leavingOut pattern).ignoreRules extra).extra = (c.ignoreRules extra).extra := rfl
  rw [IgnoreRules.ignores_eq, IgnoreRules.ignores_eq, hfolders, hextra, hides]
  cases isFolder with
  | true => simp
  | false =>
    simp only [PatternSet.matchesEnd, hfiles, Bool.false_eq_true, if_false, Bool.not_false, Bool.true_and]
    ac_rfl

/-! ## The walk -/

namespace Walk

section Alike

variable {β γ : Type} {R : β → γ → Prop} {visit : β → Sighting → Task (β × Bool)}
  {visit' : γ → Sighting → Task (γ × Bool)} {unread : β → Error → Task β} {unread' : γ → Error → Task γ}

/-- Visitors are alike if they do the same at every entry and, where it is a directory, both enter it or
    both do not. -/
def VisitorsAlike (R : β → γ → Prop) (visit : β → Sighting → Task (β × Bool))
    (visit' : γ → Sighting → Task (γ × Bool)) : Prop :=
  ∀ b c s, R b c → Task.Agree (fun r r' => R r.1 r'.1 ∧ (s.kind = .directory → r.2 = r'.2)) (visit b s)
    (visit' c s)

variable (hvisit : VisitorsAlike R visit visit')
  (hunread : ∀ b c e, R b c → Task.Agree R (unread b e) (unread' c e))

include hvisit hunread

/-- Walks of visitors who are alike do the same.  By induction on the depth that is left. -/
theorem agree_descend (fuel : Nat) (directory : Path) (listing : List (Name × Kind)) {b : β} {c : γ}
    (h : R b c) : Task.Agree R (descend visit unread fuel directory listing b)
      (descend visit' unread' fuel directory listing c) := by
  induction fuel generalizing directory listing b c with
  | zero => exact Task.Agree.pure h
  | succ fuel ih =>
    refine Task.Agree.foldlM (fun b c child h => ?_) listing h
    obtain ⟨name, kind⟩ := child
    refine Task.Agree.bind_same fun inside => ?_
    refine (hvisit b c ⟨entryPath directory name, kind⟩ h).bind ?_
    rintro ⟨b', enter⟩ ⟨c', enter'⟩ ⟨h', henter⟩
    dsimp only at h' henter ⊢
    by_cases hkind : kind = .directory
    · obtain rfl := henter hkind
      split
      · cases inside with
        | ok listing => exact ih _ listing h'
        | error fault => exact hunread b' c' _ h'
      · exact Task.Agree.pure h'
    · rw [if_neg fun hboth => hkind hboth.1, if_neg fun hboth => hkind hboth.1]
      exact Task.Agree.pure h'

theorem agree_walkTree (root : Path) {b : β} {c : γ} (h : R b c) :
    Task.Agree R (walkTree root visit unread b) (walkTree root visit' unread' c) := by
  refine Task.Agree.bind_same fun listing => ?_
  split
  · exact agree_descend hvisit hunread _ _ _ h
  · exact Task.Agree.pure h
  · exact hunread b c _ h

end Alike

section Sparing

variable {β : Type}

/-- The visitor is not shown the hidden entries, unless they are directories. -/
def sparing (hidden : String → Bool) (visit : β → Sighting → String → Task β) (value : β)
    (sighting : Sighting) (relative : String) : Task β :=
  if sighting.kind ≠ .directory ∧ hidden relative = true then return value
  else visit value sighting relative

/-- When nothing is hidden the visitor is shown everything. -/
theorem sparing_nothing (visit : β → Sighting → String → Task β) :
    sparing (fun _ => false) visit = visit := by
  funext value sighting relative
  rw [sparing, if_neg fun h => Bool.false_ne_true h.2]

/-- **Leaving files out is not showing them to the visitor**, but for the number of entries left out. -/
theorem agree_walkSource {rules rules' : IgnoreRules} {hidden : String → Bool}
    (hrules : ∀ path isFolder,
      rules'.ignores path isFolder = (rules.ignores path isFolder || (!isFolder && hidden path)))
    (root : Path) (skip : List Path) (visit : β → Sighting → String → Task β) (value : β) :
    Task.Agree (fun r r' => r.1 = r'.1) (walkSource root skip rules' visit value)
      (walkSource root skip rules (sparing hidden visit) value) := by
  refine agree_walkTree ?_ (fun _ _ e _ w => .inl ⟨e, w, rfl, rfl⟩) root rfl
  rintro ⟨b, n⟩ ⟨_, n'⟩ s rfl
  unfold visitSource
  dsimp only
  split
  · exact Task.Agree.pure ⟨rfl, fun _ => rfl⟩
  refine Task.Agree.bind_same fun isDirectory => ?_
  split
  · refine Task.Agree.bind_same fun _ => ?_
    exact Task.Agree.pure ⟨rfl, fun _ => rfl⟩
  refine Task.Agree.bind_same fun relative => ?_
  rw [hrules, sparing]
  cases hignored : rules.ignores relative (decide (s.kind = .directory)) with
  | true => exact Task.Agree.pure ⟨rfl, fun _ => rfl⟩
  | false =>
    rw [Bool.false_or, if_neg Bool.false_ne_true]
    by_cases hhidden : s.kind ≠ .directory ∧ hidden relative = true
    · -- a hidden file is left out here and not shown there, and neither is entered
      obtain ⟨hkind, hmatch⟩ := hhidden
      rw [if_pos (by simp [hkind, hmatch]), if_pos ⟨hkind, hmatch⟩]
      exact Task.Agree.pure ⟨rfl, fun hdir => absurd hdir hkind⟩
    · rw [if_neg (by simpa using hhidden), if_neg hhidden]
      refine Task.Agree.bind_same fun value => ?_
      exact Task.Agree.pure ⟨rfl, fun _ => rfl⟩

end Sparing

end Walk

end Stencil
