/-
  What a survey finds.

  A survey walks through the source tree as a build does, but it only looks.  So the walk can fail for
  nothing but what it reads: the paths of the directories that it enters, and the names on the way.  Where
  the paths are short enough and the names are texts it succeeds (`Reads.walkTree`), and then it is its
  tour, like any walk that succeeds: the survey counts the files of the tour and changes nothing
  (`run_survey`).
-/
import Stencil.Proofs.Build.Image
import Stencil.Proofs.Disk.Straight
import Stencil.Proofs.Path.Places
import Stencil.Starter

namespace Stencil

open Disk

namespace Task

/-- A loop that cannot fail in any round and changes nothing. -/
theorem exists_foldlM {β γ : Type} {step : β → γ → Task β} {w : World} {cs : List γ}
    (hstep : ∀ b, ∀ c ∈ cs, ∃ b', (step b c).run w = .ok b' w) (b : β) :
    ∃ b', (cs.foldlM step b).run w = .ok b' w := by
  induction cs generalizing b with
  | nil => exact ⟨b, rfl⟩
  | cons c cs ih =>
    obtain ⟨b', hround⟩ := hstep b c List.mem_cons_self
    obtain ⟨b'', hrest⟩ := ih (fun b c hc => hstep b c (List.mem_cons_of_mem _ hc)) b'
    exact ⟨b'', by rw [List.foldlM_cons, EStateM.run_bind, hround]; exact hrest⟩

end Task

namespace Disk

variable {d : Disk} {x : Location} {e : Entry}

/-- All names on the disk are texts. -/
def IsTextual (d : Disk) : Prop := ∀ x e, d.get? x = some e → ∀ name ∈ x, Path.IsText name

theorem isTextual_of_all (texts : List String)
    (h : (d.table.all fun e => e.1.all (texts.map Bytes.ofString).contains) = true) : d.IsTextual := by
  intro x e he name hname
  have hne : x ≠ [] := List.ne_nil_of_mem hname
  have hlisted := List.all_eq_true.mp (of_all_table h hne he) name hname
  obtain ⟨s, -, hs⟩ := List.mem_map.mp (List.contains_iff_mem.mp hlisted)
  exact ⟨s, hs.symm⟩

/-- A directory with a short path can be listed. -/
theorem list_pathOf (hdir : isDirectoryAt d.table x = true)
    (hshort : (pathOf x).text.length < maxPath) : d.list (pathOf x) = .ok (d.children x) := by
  obtain ⟨mode, hmode⟩ := isDirectoryAt_iff.mp hdir
  rw [list, find_pathOf hmode Kind.noConfusion hshort]
  exact if_pos hdir

end Disk

namespace Walk

variable {β : Type} {visit : β → Sighting → Task (β × Bool)} {unread : β → Error → Task β}
  {admits : Location → Bool} {top dir : Location} {w : World} {e : Entry}

/-- The visitor of a walk below `top` never fails and changes nothing, and enters what is admitted
    alone. -/
structure Reads (visit : β → Sighting → Task (β × Bool)) (w : World) (admits : Location → Bool)
    (top : Location) : Prop where
  visited : ∀ value {x e}, w.disk.get? x = some e → top <+: x → ∃ value' enter,
    (visit value ⟨pathOf x, e.kind⟩).run w = .ok (value', enter) w ∧ (enter = true → admits x = true)

namespace Reads

variable (h : Reads visit w admits top) (hread : IsReadable w.disk (w.disk.tour admits top))

include h hread

/-- A walk through a directory that cannot fail.  By induction on the depth that is left. -/
theorem descend {fuel : Nat} (hway : top = dir ∨ Admitted admits top dir) (value : β) :
    ∃ value', (Walk.descend visit unread fuel (pathOf dir) (w.disk.children dir) value).run w =
      .ok value' w := by
  induction fuel generalizing dir value with
  | zero => exact ⟨value, rfl⟩
  | succ fuel ih =>
    rw [descend_succ]
    refine Task.exists_foldlM (fun value child hchild => ?_) value
    obtain ⟨e, he, hkind⟩ := mem_children.mp hchild
    have hbelow : top <+: dir ++ [child.1] := (prefix_of_way hway).trans (List.prefix_append dir _)
    obtain ⟨value', enter, hvisit, henter⟩ := h.visited value he hbelow
    have hlook : (Task.look (·.list (pathOf (dir ++ [child.1])))).run w =
        .ok (w.disk.list (pathOf (dir ++ [child.1]))) w := rfl
    rw [entryPath_pathOf he, ← hkind, meet, EStateM.run_bind, hlook]
    simp only [EStateM.run_bind, hvisit]
    by_cases hgo : e.kind = .directory ∧ enter = true
    · have hdir : isDirectoryAt w.disk.table (dir ++ [child.1]) = true := by
        rw [isDirectoryAt_of_get? he]
        exact Entry.isDirectory_iff_kind.mpr hgo.1
      have hadmitted : Admitted admits top (dir ++ [child.1]) := Admitted.concat hway (henter hgo.2)
      have hshort := hread _ (mem_tour.mpr ⟨hadmitted, e, he⟩) hdir
      rw [if_pos hgo, list_pathOf hdir hshort]
      exact ih (.inr hadmitted) value'
    · rw [if_neg hgo]
      exact ⟨value', rfl⟩

/-- **A walk that cannot fail**: the visitor does not, and all that is entered can be read. -/
theorem walkTree (he : w.disk.get? top = some e) (hkind : e.kind ≠ .link)
    (hshort : (pathOf top).text.length < maxPath) (value : β) :
    ∃ value', (Stencil.walkTree (pathOf top) visit unread value).run w = .ok value' w := by
  have hfind : w.disk.find false (pathOf top) = .ok top := find_pathOf he hkind hshort
  have hentry : w.disk.entryItself (pathOf top) = .ok e := by
    rw [entryItself, hfind]
    simp only [Except.bind, he, Option.map_some, Option.getD_some]
  have hlook : (Task.look (rootListing · (pathOf top))).run w =
      .ok (rootListing w.disk (pathOf top)) w := rfl
  rw [Stencil.walkTree, EStateM.run_bind, hlook, rootListing, hentry]
  cases e with
  | file mode content => exact ⟨value, rfl⟩
  | link target => exact absurd rfl hkind
  | directory mode =>
    dsimp only
    rw [list_pathOf (isDirectoryAt_iff.mpr ⟨mode, he⟩) hshort]
    exact h.descend hread (.inl rfl) value

end Reads

/-- A visitor of a source tree who does not fail makes for a walk that does not, if the names in the tree
    are texts. -/
theorem reads_visitSource {skip : List Location} {rules : IgnoreRules}
    {visitEntry : β → Sighting → String → Task β} (hlinkless : w.disk.IsLinkless)
    (htexts : w.disk.IsTextual) (htop : IsDescent top) (hskip : ∀ s ∈ skip, IsDescent s)
    (hvisit : ∀ value sighting relative, ∃ value',
      (visitEntry value sighting relative).run w = .ok value' w) :
    Reads (visitSource (pathOf top) (skip.map pathOf) rules visitEntry) w
      (admitsSource w.disk top skip rules) top := by
  refine ⟨?_⟩
  rintro ⟨value, ignored⟩ x e he hbelow
  have hx : IsDescent x := isDescent_of_get? he
  obtain ⟨steps, rfl⟩ := hbelow
  obtain ⟨relative, hrelative, -⟩ := relativePath_eq htop
    (fun n hn => hx n (List.mem_append_right top hn))
    (fun n hn => htexts _ e he n (List.mem_append_right top hn))
  have hkind : decide (e.kind = .directory) = isDirectoryAt w.disk.table (top ++ steps) := by
    rw [isDirectoryAt_of_get? he, Bool.eq_iff_iff, decide_eq_true_eq]
    exact Entry.isDirectory_iff_kind.symm
  have hlink : decide (e.kind = .link) = false :=
    decide_eq_false (kind_ne_link (hlinkless _) he)
  rw [visitSource, admitsSource, hrelative]
  dsimp only
  rw [any_startsWith hskip hx, hkind, hlink]
  -- passed over, left out by the rules, or visited
  cases skip.any (isBelow · (top ++ steps)) with
  | true => exact ⟨_, false, rfl, fun hfalse => by cases hfalse⟩
  | false =>
    have hlook : (Task.look (·.isDirectory (pathOf (top ++ steps)))).run w =
        .ok (w.disk.isDirectory (pathOf (top ++ steps))) w := rfl
    have hanswer : (ofExcept (.ok relative) : Task String).run w = .ok relative w := rfl
    simp only [if_neg Bool.false_ne_true, EStateM.run_bind, hlook, Bool.false_and, hanswer]
    cases rules.ignores relative (isDirectoryAt w.disk.table (top ++ steps)) with
    | true => exact ⟨_, false, rfl, fun hfalse => by cases hfalse⟩
    | false =>
      obtain ⟨value', hvisited⟩ := hvisit value ⟨pathOf (top ++ steps), e.kind⟩ relative
      refine ⟨(value', ignored), true, ?_, fun _ => rfl⟩
      simp only [if_neg Bool.false_ne_true, EStateM.run_bind, hvisited]
      rfl

end Walk

/-! ## The survey -/

/-- The number of files among some locations. -/
def countFiles (d : Disk) (xs : List Location) : Nat :=
  xs.countP fun x => (d.get? x).map Entry.kind = some .file

namespace Survey

variable {c : Config} {source : Location} {w w' : World}

/-- What a survey does with an entry. -/
def visit (files : Nat) (sighting : Sighting) (_ : String) : Task Nat :=
  return if sighting.kind = .directory then files else files + 1

/-- What a survey passes over. -/
def skip (c : Config) (d : Disk) : List Location := (d.reach c.templateRoot).toOption.toList

/-- The entries of a source tree that a survey meets. -/
def met (c : Config) (d : Disk) (source : Location) : List Location :=
  d.tour (Walk.admitsSource d source (skip c d) (Build.rules c d source)) source

theorem isDescent_of_mem_skip {d : Disk} {s : Location} (hs : s ∈ skip c d) : IsDescent s := by
  obtain ⟨e, he⟩ := exists_get?_of_reach (mem_toList_reach.mp hs)
  exact isDescent_of_get? he

/-- The walk of a survey counts the files that it meets, on a disk without links. -/
theorem walkSource_eq_ok {files ignored : Nat} (hlinkless : w.disk.IsLinkless)
    (hsource : IsDescent source)
    (h : (walkSource (pathOf source) ((skip c w.disk).map pathOf) (Build.rules c w.disk source) visit
      0).run w = .ok (files, ignored) w') :
    files = countFiles w.disk (met c w.disk source) := by
  refine (Walk.walkSource_eq_ok
    (J := fun done files w₁ => files = countFiles w.disk done ∧ w₁.disk = w.disk)
    (hlinkless.isPlain source) hsource (fun s => isDescent_of_mem_skip) ?_ ?_ ?_ ⟨rfl, rfl⟩ h).1
  · rintro done files w₁ x e relative files' w₂ ⟨rfl, hdisk⟩ he - - hvisit
    obtain ⟨rfl, rfl⟩ := Task.pure_eq_ok hvisit
    refine ⟨?_, hdisk⟩
    rw [countFiles, countFiles, List.countP_append, List.countP_singleton, he]
    cases e with
    | file mode content => rfl
    | directory mode => rfl
    | link target => exact absurd he (hlinkless x target)
  · intro done files w₁ x target w₂ _ he
    exact absurd he (hlinkless x target)
  · rintro done files w₁ dir listing ⟨-, hdisk⟩ hdir - hlist
    rw [hdisk] at hlist
    exact (spells_pathOf (isDescent_of_isDirectoryAt hdir)).children_of_list (hlinkless.isPlain dir) hlist

end Survey

/-- **A survey counts the files of its tour**, if all that it enters can be read. -/
theorem run_survey {c : Config} {source : Location} {w : World} (hlinkless : w.disk.IsLinkless)
    (htexts : w.disk.IsTextual) (hfound : w.disk.reach c.sourceRoot = .ok source)
    (hshort : (pathOf source).text.length < maxPath)
    (hread : Walk.IsReadable w.disk (Survey.met c w.disk source)) :
    ∃ s, (survey c).run w = .ok s w ∧ s.files = countFiles w.disk (Survey.met c w.disk source) := by
  obtain ⟨e, he, hkind⟩ := exists_unlinked_of_reach hfound
  have hsource : IsDescent source := isDescent_of_get? he
  have hreads : Walk.Reads (visitSource (pathOf source) ((Survey.skip c w.disk).map pathOf)
      (Build.rules c w.disk source) Survey.visit) w
      (Walk.admitsSource w.disk source (Survey.skip c w.disk) (Build.rules c w.disk source)) source :=
    Walk.reads_visitSource hlinkless htexts hsource (fun s => Survey.isDescent_of_mem_skip)
      fun files sighting relative => ⟨_, rfl⟩
  obtain ⟨⟨files, ignored⟩, hwalk⟩ : ∃ r, (walkSource (pathOf source)
      ((Survey.skip c w.disk).map pathOf) (Build.rules c w.disk source) Survey.visit 0).run w =
      .ok r w := by
    rw [walkSource]
    exact hreads.walkTree hread he hkind hshort (0, 0)
  have hcounted : files = countFiles w.disk (Survey.met c w.disk source) :=
    Survey.walkSource_eq_ok hlinkless hsource hwalk
  -- what is looked up before the walk is what the tour goes by
  have hextra : (Task.look (Config.readIgnoreFile · (pathOf source))).run w =
      .ok (Config.readIgnoreFile w.disk (pathOf source)) w := rfl
  have htemplate : (Task.look (·.realPath c.templateRoot)).run w =
      .ok (w.disk.realPath c.templateRoot) w := rfl
  have hskip : (w.disk.realPath c.templateRoot).toOption.toList = (Survey.skip c w.disk).map pathOf :=
    toList_realPath w.disk c.templateRoot
  refine ⟨⟨files, ignored, (Config.readIgnoreFile w.disk (pathOf source)).length⟩, ?_, hcounted⟩
  rw [Build.rules] at hwalk
  rw [survey, EStateM.run_bind, run_canonicalSource hfound]
  dsimp only
  rw [EStateM.run_bind, hextra]
  dsimp only
  rw [EStateM.run_bind, htemplate]
  dsimp only
  rw [hskip, EStateM.run_bind]
  unfold Survey.visit at hwalk
  rw [hwalk]
  rfl

end Stencil
