/-
  May the template root hold the source tree?

  An earlier template is taken away with all that is in it, and the directory of the new one is passed
  over by the walk, so neither may hold the source tree.  The guard against that looks where the path of
  the template root leads before anything is made.  A path that steps back out of a missing directory
  leads nowhere yet: `src/missing/..` passes, is made, and is the source tree itself.

  So the guard holds exactly for the paths that lead at or above the source tree before whenever they
  come to do so (`guardsSource_iff`), which a path without a step back does.

  The earlier template is looked up on one disk and made again on another, the one without it
  (`cleared`).  There its path leads nowhere (`find_cleared_ne_ok`).
-/
import Stencil.Proofs.Disk.Straight
import Stencil.Proofs.Phases
import Stencil.Proofs.Refusal

namespace Stencil

open Disk

namespace Disk

variable {d : Disk} {p : Path} {loc x : Location}

/-! ## What is taken away -/

/-- A disk keeps the one without a tree. -/
theorem keeps_eraseTree (d : Disk) (hne : loc ≠ []) : Keeps (d.eraseTree loc) d := by
  refine ⟨rfl, fun {x e} he => ?_⟩
  rw [get?_eraseTree d hne] at he
  split at he
  · cases he
  · exact ⟨e, he, .refl e⟩

/-- The path of what was taken away leads nowhere. -/
theorem find_eraseTree_ne_ok (hne : loc ≠ []) (hloc : d.find true p = .ok loc) (x : Location) :
    (d.eraseTree loc).find true p ≠ .ok x := by
  intro hfind
  -- what is found is found on the whole disk too, and so it is what was taken away
  obtain rfl : x = loc :=
    Except.ok.inj (((keeps_eraseTree d hne).find hfind).symm.trans hloc)
  obtain ⟨e, he⟩ := exists_get?_of_find hfind
  rw [get?_eraseTree d hne, if_pos (List.prefix_refl x)] at he
  cases he

/-- A directory with a short path can be taken away with all that it holds. -/
theorem removeTree_eq_ok (hproper : (pathOf loc).Admissible) (hdir : isDirectoryAt d.table loc = true) :
    d.removeTree (pathOf loc) = .ok (d.eraseTree loc) := by
  obtain ⟨mode, hmode⟩ := isDirectoryAt_iff.mp hdir
  rw [removeTree, find_of_spells (spells_of_get? hmode) hproper hdir]
  dsimp only [bind, Except.bind]
  rw [hmode]

end Disk

namespace Build

variable {c : Config} {template p : Path} {now : Timestamp} {w : World} {source x : Location}

/-! ## A build behind its guard -/

section

variable (hsource : w.disk.reach c.sourceRoot = .ok source) (hp : w.disk.absolute template = .ok p)

include hsource hp

/-- A build that finds its source tree goes on with its guard. -/
theorem run_buildTemplate : (buildTemplate c template now).run w =
    (do removeExisting (pathOf source) p; refill c (pathOf source) p now).run w := by
  have habsolute : (Task.query (·.absolute template)).run w = .ok p w := by
    rw [Task.run_query, hp]
  rw [buildTemplate, EStateM.run_bind, run_canonicalSource hsource]
  simp only [EStateM.run_bind, habsolute]
  rfl

/-- The guard refuses a path that leads at or above the source tree, before anything is done. -/
theorem run_of_holding {y : Location} (hy : w.disk.find true p = .ok y) (hholds : y <+: source) :
    (buildTemplate c template now).run w = .error (.config (.templateHoldsSource p)) w := by
  obtain ⟨e, he⟩ := exists_get?_of_reach hsource
  rw [run_buildTemplate hsource hp, EStateM.run_bind,
    run_removeExisting (isDescent_of_get? he), hy]
  dsimp only
  rw [if_pos hholds]

/-- It refuses no other. -/
theorem exists_holding_of_refusal {e : Error} {w' : World} (hrefusal : e.isRefusal = true)
    (h : (buildTemplate c template now).run w = .error e w') :
    ∃ y, w.disk.find true p = .ok y ∧ y <+: source := by
  obtain ⟨entry, hentry⟩ := exists_get?_of_reach hsource
  rw [run_buildTemplate hsource hp] at h
  rcases Task.bind_eq_error h with hguard | ⟨u, w₁, -, hrest⟩
  · rw [run_removeExisting (isDescent_of_get? hentry)] at hguard
    cases hfind : w.disk.find true p with
    | error fault =>
      rw [hfind] at hguard
      cases hguard
    | ok y =>
      rw [hfind] at hguard
      dsimp only at hguard
      by_cases hholds : y <+: source
      · exact ⟨y, rfl, hholds⟩
      · rw [if_neg hholds] at hguard
        rw [Task.NeverRefuses.change _ w e w' hguard] at hrefusal
        cases hrefusal
  · rw [neverRefuses_refill _ _ _ _ w₁ e w' hrest] at hrefusal
    cases hrefusal

end

/-! ## What the rest of a build keeps -/

/-- A visit of a build only adds to the disk. -/
theorem keeps_visit (d : Disk) (c : Config) (template : Path) (globs : PatternSet)
    (report : BuildReport) (sighting : Sighting) (relative : String) :
    Task.Keeps (Disk.Keeps d) (visit c template globs report sighting relative) fun _ => True := by
  refine (Task.Keeps.ofExcept _).bind fun target _ => ?_
  split
  · exact (execute_keeps d _).bind fun _ _ => Task.Keeps.pure trivial
  · refine (Task.Keeps.query _).bind fun static _ => ?_
    refine keeps_forFile.bind fun operation _ => ?_
    exact (execute_keeps d operation).bind fun _ _ => Task.Keeps.pure trivial

/-- So does the writing of the description. -/
theorem keeps_save (d : Disk) (m : Metadata) (template : Path) :
    Task.Keeps (Disk.Keeps d) (m.save template) fun _ => True :=
  Task.Keeps.change fun _ _ h hwrite => h.trans (keeps_write hwrite)

/-! ## Where the template root is -/

/-- The directory that the path of a template root denotes: where it leads now, or where it leads once an
    earlier template is taken away and its directories are made. -/
def Denotes (d : Disk) (p : Path) (x : Location) : Prop :=
  d.find true p = .ok x ∨
    ∃ d', (cleared d p).makeDirectories p = (d', .ok ()) ∧ d'.find true p = .ok x

/-- A template root that denotes the source tree, or a directory that holds it, is refused, and nothing
    is changed. -/
def GuardsSource (c : Config) (template : Path) (now : Timestamp) (w : World) : Prop :=
  ∀ source p x, w.disk.reach c.sourceRoot = .ok source → w.disk.absolute template = .ok p →
    Denotes w.disk p x → x <+: source →
    ∃ problem w', (buildTemplate c template now).run w = .error (.config problem) w' ∧
      w'.disk = w.disk

/-- Where no earlier template holds the source tree, its path leads nowhere once it is taken away. -/
theorem find_cleared_ne_ok {d : Disk} {source : Location}
    (hout : ∀ y, d.find true p = .ok y → ¬ y <+: source) (x : Location) :
    (cleared d p).find true p ≠ .ok x := by
  cases hfind : d.find true p with
  | error fault =>
    rw [cleared, hfind]
    dsimp only
    rw [hfind]
    exact fun h => by cases h
  | ok y =>
    have hne : y ≠ [] := by
      rintro rfl
      exact hout [] hfind List.nil_prefix
    rw [cleared, hfind]
    exact find_eraseTree_ne_ok hne hfind x

/-- A path without a step back denotes no directory that holds the source tree, unless it leads to one
    now. -/
theorem exists_holding_of_spells {d : Disk} {loc : Location} {e : Entry} (hp : p.Spells loc)
    (he : d.get? source = some e) (hx : Denotes d p x) (hholds : x <+: source) :
    ∃ y, d.find true p = .ok y ∧ y <+: source := by
  rcases hx with hnow | ⟨d', hmade, hfound⟩
  · exact ⟨x, hnow, hholds⟩
  by_contra hnone
  have hout : ∀ y, d.find true p = .ok y → ¬ y <+: source :=
    fun y hy hbelow => hnone ⟨y, hy, hbelow⟩
  -- the directory is new, so nothing lies below it, and the source tree does
  have hfree : (cleared d p).get? x = none :=
    free_of_makeDirectories hp.back_not_mem_names (find_cleared_ne_ok hout) hmade hfound
  have hsource : (cleared d p).get? source = some e := (get?_cleared hout).trans he
  exact not_below_of_free hfree hsource hholds

/-- From the start to the end, a build keeps what is on the disk. -/
theorem keeps_of_walk_and_save {source p : Path} {skip : List Path} {rules : IgnoreRules}
    {globs : PatternSet} {m : Metadata} {start : BuildReport} {result : BuildReport × Nat}
    {ws ww w' : World} {u : Unit}
    (hwalk : (walkSource source skip rules (visit c p globs) start).run ws = .ok result ww)
    (hsave : (m.save p).run ww = .ok u w') : Disk.Keeps ws.disk w'.disk := by
  have hwalked : Disk.Keeps ws.disk ww.disk :=
    (Task.keeps_walkSource (R := fun _ => True) _ _ _
      (fun b s relative _ => keeps_visit ws.disk c _ _ b s relative) trivial).of_ok
      (.of_get? rfl fun _ => rfl) hwalk
  exact (keeps_save ws.disk _ _).of_ok hwalked hsave

/-- A build that succeeds ends with its template root where it put it. -/
theorem denotes_of_buildTemplate {report : BuildReport} {w' : World} {top : Location}
    (hp : w.disk.absolute template = .ok p)
    (hrun : (buildTemplate c template now).run w = .ok report w')
    (htop : w'.disk.find true p = .ok top) : Denotes w.disk p top := by
  obtain ⟨source, p', top', ignored, ws, ww, -, hstart, hwalk, hsave⟩ := buildTemplate_eq_ok hrun
  obtain rfl : p' = p := Except.ok.inj (hstart.named.symm.trans hp)
  obtain rfl : top' = top :=
    Except.ok.inj (((keeps_of_walk_and_save hwalk hsave).find hstart.found).symm.trans htop)
  exact .inr ⟨ws.disk, hstart.made, hstart.found⟩

/-- **When the guard holds**: exactly when every path that comes to denote a directory that holds the
    source tree leads to one before, which a path without a step back does.  Then no build succeeds at
    or above the source tree. -/
theorem guardsSource_iff (c : Config) (template : Path) (now : Timestamp) (w : World) :
    (GuardsSource c template now w ↔
      ∀ source p x, w.disk.reach c.sourceRoot = .ok source → w.disk.absolute template = .ok p →
        Denotes w.disk p x → x <+: source → ∃ y, w.disk.find true p = .ok y ∧ y <+: source) ∧
    (Path.back ∉ template.names → GuardsSource c template now w) ∧
    (GuardsSource c template now w → ∀ source p top report w',
      w.disk.reach c.sourceRoot = .ok source → w.disk.absolute template = .ok p →
      (buildTemplate c template now).run w = .ok report w' → w'.disk.find true p = .ok top →
      ¬ top <+: source) := by
  have hguards : (∀ source p x, w.disk.reach c.sourceRoot = .ok source →
      w.disk.absolute template = .ok p → Denotes w.disk p x → x <+: source →
      ∃ y, w.disk.find true p = .ok y ∧ y <+: source) → GuardsSource c template now w := by
    intro hleads source p x hsource hp hx hholds
    obtain ⟨y, hy, hbelow⟩ := hleads source p x hsource hp hx hholds
    exact ⟨_, w, run_of_holding hsource hp hy hbelow, rfl⟩
  refine ⟨⟨?_, hguards⟩, ?_, ?_⟩
  · intro hguard source p x hsource hp hx hholds
    obtain ⟨problem, w', hrefused, -⟩ := hguard source p x hsource hp hx hholds
    exact exists_holding_of_refusal hsource hp rfl hrefused
  · intro hback
    refine hguards fun source p x hsource hp hx hholds => ?_
    obtain ⟨e, he⟩ := exists_get?_of_reach hsource
    exact exists_holding_of_spells (spells_absolute hback hp) he hx hholds
  · intro hguard source p top report w' hsource hp hrun htop hholds
    have hdenotes : Denotes w.disk p top := denotes_of_buildTemplate hp hrun htop
    obtain ⟨problem, w₁, hrefused, -⟩ := hguard source p top hsource hp hdenotes hholds
    rw [hrefused] at hrun
    cases hrun

/-- The root of the disk holds the source tree, and is refused. -/
theorem guardsSource_root :
    let c : Config := { sourceRoot := .ofString "/src" }
    let root : Path := .ofString "/"
    GuardsSource c root default ⟨twoFolders, []⟩ ∧
      ∃ w', (buildTemplate c root default).run ⟨twoFolders, []⟩ =
        .error (.config (.templateHoldsSource root)) w' := by
  intro c root
  have hback : Path.back ∉ root.names := by decide +kernel
  have hrefused : (buildTemplate c root default).failure? ⟨twoFolders, []⟩ =
      some (.config (.templateHoldsSource root)) := by decide +kernel
  exact ⟨(guardsSource_iff c root default ⟨twoFolders, []⟩).2.1 hback,
    Task.exists_run_of_failure? hrefused⟩

/-- **A step back out of a missing directory**: the build succeeds with the source tree as its template
    root, leaves everything out as part of the template, and writes the description into the source
    tree. -/
theorem not_guardsSource_twoFolders :
    let c : Config := { sourceRoot := .ofString "/src" }
    let inside : Path := .ofString "/src/way/.."
    ¬ GuardsSource c inside default ⟨twoFolders, []⟩ ∧
      twoFolders.get? [Bytes.ofString "src", Bytes.ofString Defaults.metadataFile] = none ∧
      ∃ w', (buildTemplate c inside default).run ⟨twoFolders, []⟩ = .ok ⟨0, 0, 0⟩ w' ∧
        (w'.disk.get? [Bytes.ofString "src", Bytes.ofString Defaults.metadataFile]).isSome := by
  intro c inside
  have hanswer : ((buildTemplate c inside default).observe fun d =>
      (d.find true inside,
        (d.get? [Bytes.ofString "src", Bytes.ofString Defaults.metadataFile]).isSome)).answer?
      ⟨twoFolders, []⟩ = some (⟨0, 0, 0⟩, .ok [Bytes.ofString "src"], true) := by decide +kernel
  obtain ⟨w', hobserved⟩ := Task.exists_run_of_answer? hanswer
  obtain ⟨hrun, hseen⟩ := Task.observe_eq_ok hobserved
  obtain ⟨htop, hthere⟩ := Prod.mk.inj hseen
  refine ⟨fun hguard => ?_, by decide +kernel, w', hrun, hthere⟩
  have hsource : twoFolders.reach c.sourceRoot = .ok [Bytes.ofString "src"] := by decide +kernel
  have hinside : twoFolders.absolute inside = .ok inside := by decide +kernel
  have hdenotes : Denotes twoFolders inside [Bytes.ofString "src"] :=
    denotes_of_buildTemplate (w := ⟨twoFolders, []⟩) hinside hrun htop
  obtain ⟨problem, w₁, hrefused, -⟩ :=
    hguard _ _ _ hsource hinside hdenotes (List.prefix_refl _)
  rw [hrefused] at hrun
  cases hrun

end Build

end Stencil
