/-
  Is an earlier template replaced?

  What lies at the template root is taken away before anything is made, so that what it held makes no
  difference: from there on the build is the one on the disk without it (`run_of_existing`,
  `run_of_absent`).

  But what is taken away is the directory that the path leads to, and what is made again is the path as
  it is spelled.  Where a link lies at the path, the directory behind it goes and the link stays, at
  which no directory can be made: the earlier template is lost and the build fails
  (`run_of_link`).  Only when the link lies in the directory that it leads to, it goes too.

  So a template root that is a directory itself is replaced, and a link to a directory elsewhere never
  is (`renews_or_loses`).
-/
import Stencil.Proofs.Build.Root

namespace Stencil

open Disk

namespace Task

variable {α β : Type} {x : Task α} {f : α → Task β} {w w' : World} {a : α}

theorem diskAfter_bind (h : x.run w = .ok a w') :
    (x >>= f).diskAfter w = (f a).diskAfter w' := by
  rw [diskAfter, diskAfter, EStateM.run_bind, h]

end Task

namespace Disk

variable {d : Disk} {p : Path} {loc top above x : Location} {name : Name}

theorem isDirectory_eq_false (h : ∀ x, d.find true p ≠ .ok x) : d.isDirectory p = false := by
  rw [isDirectory, entry]
  cases hfind : d.find true p with
  | error fault => rfl
  | ok x => exact absurd hfind (h x)

theorem length_pathOf_mono (h : loc <+: top) :
    (pathOf loc).text.length ≤ (pathOf top).text.length := by
  by_cases hne : loc = []
  · have hslash : (pathOf loc).text.length = 1 := by
      rw [hne]
      rfl
    rw [hslash]
    exact Nat.succ_le_of_lt (List.length_pos_of_ne_nil (List.cons_ne_nil _ _))
  · have hne' : top ≠ [] := fun heq => hne (List.prefix_nil.mp (heq ▸ h))
    rw [text_pathOf hne, text_pathOf hne']
    exact (h.sublist.flatMap _).length_le

/-- What a straight path leads to is what lies at its place, unless that is a link. -/
theorem exists_get?_of_find_spells (hp : p.Spells (above ++ [name]))
    (habove : isDirectoryAt d.table above = true) (hloc : d.find true p = .ok loc) :
    (∃ target, d.get? (above ++ [name]) = some (.link target)) ∨ loc = above ++ [name] := by
  by_cases hlink : ∃ target, d.get? (above ++ [name]) = some (.link target)
  · exact .inl hlink
  · refine .inr (hp.eq_of_find (fun q hq target htarget => ?_) hloc)
    rcases List.prefix_concat_iff.mp hq with rfl | hq
    · exact hlink ⟨target, htarget⟩
    · obtain ⟨mode, hmode⟩ := exists_directory_above habove hq
      rw [htarget] at hmode
      cases hmode

end Disk

namespace Build

variable {c : Config} {template p : Path} {now : Timestamp} {w : World}
  {source loc above : Location} {name : Name}

/-! ## Without the earlier template -/

section

variable (hsource : w.disk.reach c.sourceRoot = .ok source) (hp : w.disk.absolute template = .ok p)
  (hloc : w.disk.find true p = .ok loc) (hdir : isDirectoryAt w.disk.table loc = true)
  (hout : ¬ loc <+: source) (hshort : (pathOf loc).text.length < maxPath)

include hsource hp hloc hdir hout hshort

/-- Once the guard is passed, a build goes on without the earlier template. -/
theorem run_of_existing : (buildTemplate c template now).run w =
    (refill c (pathOf source) p now).run ⟨w.disk.eraseTree loc, w.events⟩ := by
  obtain ⟨e, he⟩ := exists_get?_of_reach hsource
  obtain ⟨mode, hmode⟩ := isDirectoryAt_iff.mp hdir
  have hremoved : w.disk.removeTree (pathOf loc) = .ok (w.disk.eraseTree loc) :=
    removeTree_eq_ok (Path.admissible_pathOf (isProper_of_get? hmode) hshort) hdir
  have hguard : (removeExisting (pathOf source) p).run w =
      .ok () ⟨w.disk.eraseTree loc, w.events⟩ := by
    rw [run_removeExisting (isDescent_of_get? he), hloc]
    dsimp only
    rw [if_neg hout, Task.run_change, hremoved]
  rw [run_buildTemplate hsource hp, EStateM.run_bind, hguard]

/-- **What the earlier template held makes no difference**: a build that succeeds on the disk without it
    succeeds with it, in the same way. -/
theorem run_of_absent {report : BuildReport} {w₀ : World}
    (h : (buildTemplate c template now).run ⟨w.disk.eraseTree loc, w.events⟩ = .ok report w₀) :
    (buildTemplate c template now).run w = .ok report w₀ := by
  have hne : loc ≠ [] := fun heq => hout (heq ▸ List.nil_prefix)
  obtain ⟨source', -, -, -, -, -, hfound, -⟩ := buildTemplate_eq_ok h
  -- the source tree that is found there is found here too
  obtain rfl : source' = source :=
    Except.ok.inj (((keeps_eraseTree w.disk hne).reach hfound).symm.trans hsource)
  obtain ⟨e, he⟩ := exists_get?_of_reach hfound
  have hguard : (removeExisting (pathOf source') p).run ⟨w.disk.eraseTree loc, w.events⟩ =
      .ok () ⟨w.disk.eraseTree loc, w.events⟩ := by
    rw [run_removeExisting (isDescent_of_get? he)]
    cases hfind : (w.disk.eraseTree loc).find true p with
    | error fault => rfl
    | ok x => exact absurd hfind (find_eraseTree_ne_ok hne hloc x)
  rw [run_buildTemplate (w := ⟨w.disk.eraseTree loc, w.events⟩) hfound hp, EStateM.run_bind,
    hguard] at h
  rw [run_of_existing hsource hp hloc hdir hout hshort]
  exact h

end

/-- A template root that is made is there when the build ends, however it ends. -/
theorem isDirectory_of_refill (c : Config) (source : Path) (now : Timestamp) {d : Disk}
    (hmade : w.disk.makeDirectories p = (d, .ok ())) (hdir : d.isDirectory p = true) :
    ((refill c source p now).diskAfter w).isDirectory p = true := by
  have hmake : (Task.makeDirectories p).run w = .ok () { w with disk := d } := by
    rw [Task.run_makeDirectories, hmade]
  rw [refill, Task.diskAfter_bind hmake]
  -- all that follows keeps the directories that are made
  refine ((?_ : Task.Keeps (Disk.Keeps d) _ fun _ => True) _ (.of_get? rfl fun _ => rfl)).1.isDirectory
    hdir
  refine (Task.Keeps.query _).bind fun template _ => ?_
  refine (Task.Keeps.look _).bind fun extra _ => ?_
  refine (Task.keeps_walkSource (R := fun _ => True) source _ _
    (fun b s relative _ => keeps_visit d c template _ b s relative) trivial).bind ?_
  rintro ⟨report, ignored⟩ -
  exact (keeps_save d _ template).bind fun _ _ => Task.Keeps.pure trivial

/-! ## The template root of a straight path -/

/-- A new template takes the place of the one that is there: the build succeeds whenever it succeeds on
    the disk without the earlier one, with the same outcome, and however it ends there is a template
    root. -/
structure Renews (c : Config) (template : Path) (now : Timestamp) (w : World) (p : Path)
    (absent : Disk) : Prop where
  same : ∀ report w₀, (buildTemplate c template now).run ⟨absent, w.events⟩ = .ok report w₀ →
    (buildTemplate c template now).run w = .ok report w₀
  there : ((buildTemplate c template now).diskAfter w).isDirectory p = true

section

variable (hsource : w.disk.reach c.sourceRoot = .ok source) (hp : w.disk.absolute template = .ok p)
  (hloc : w.disk.find true p = .ok loc) (hdir : isDirectoryAt w.disk.table loc = true)
  (hout : ¬ loc <+: source) (hdescends : p.DescendsTo (above ++ [name]))
  (habove : isDirectoryAt w.disk.table above = true)

include hsource hp hloc hdir hout hdescends habove

/-- **A directory at the template root is replaced**, and so is a link there that is taken away with the
    directory. -/
theorem renews_of_isPrefix (hway : loc <+: above ++ [name]) :
    Renews c template now w p (w.disk.eraseTree loc) := by
  have hne : loc ≠ [] := fun heq => hout (heq ▸ List.nil_prefix)
  have hshort : (pathOf loc).text.length < maxPath :=
    (length_pathOf_mono hway).trans_lt (hdescends.length_pathOf_le.trans_lt hdescends.short)
  refine ⟨fun report w₀ h => run_of_absent hsource hp hloc hdir hout hshort h, ?_⟩
  -- something lies at the template root, so that its name can be used
  have hproper : isProper (above ++ [name]) = true := by
    rcases exists_get?_of_find_spells hdescends.toSpells habove hloc with ⟨target, hlink⟩ | heq
    · exact isProper_of_get? hlink
    · obtain ⟨mode, hmode⟩ := isDirectoryAt_iff.mp hdir
      exact heq ▸ isProper_of_get? hmode
  have hopen : (w.disk.eraseTree loc).IsOpen (above ++ [name]) := by
    intro x hx
    by_cases hbelow : loc <+: x
    · exact .inl (by rw [get?_eraseTree _ hne, if_pos hbelow])
    · -- what is left on the way lies above the last name
      have hx' : x <+: above := (List.prefix_concat_iff.mp hx).resolve_left
        fun heq => hbelow (heq ▸ hway)
      obtain ⟨mode, hmode⟩ := exists_directory_above habove hx'
      refine .inr (isDirectoryAt_iff.mpr ⟨mode, ?_⟩)
      rw [get?_eraseTree _ hne, if_neg hbelow, hmode]
  obtain ⟨d, hmade, hroot⟩ := exists_makeDirectories hdescends hproper hopen
  have hthere : d.isDirectory p = true :=
    isDirectory_of_spells hdescends.toSpells hdescends.toAdmissible hroot
  have hkept := isDirectory_of_refill (w := ⟨w.disk.eraseTree loc, w.events⟩) c (pathOf source) now
    hmade hthere
  rw [Task.diskAfter, run_of_existing hsource hp hloc hdir hout hshort]
  exact hkept

/-- **A directory behind a link at the template root is lost.** -/
theorem run_of_link (haside : ¬ loc <+: above ++ [name])
    (hshort : (pathOf loc).text.length < maxPath) :
    (buildTemplate c template now).run w =
      .error (.io .occupied) ⟨w.disk.eraseTree loc, w.events⟩ := by
  have hne : loc ≠ [] := fun heq => hout (heq ▸ List.nil_prefix)
  obtain ⟨target, hlink⟩ : ∃ target, w.disk.get? (above ++ [name]) = some (.link target) := by
    refine (exists_get?_of_find_spells hdescends.toSpells habove hloc).resolve_right ?_
    rintro rfl
    exact haside (List.prefix_refl _)
  have hname : Path.isEntryName name = true :=
    List.all_eq_true.mp (isProper_of_get? hlink) name (by simp)
  -- the link is left, and the directory that it lies in
  have hlink' : (w.disk.eraseTree loc).get? (above ++ [name]) = some (.link target) := by
    rw [get?_eraseTree _ hne, if_neg haside, hlink]
  have habove' : isDirectoryAt (w.disk.eraseTree loc).table above = true := by
    have hdropped := isDirectoryAt_dropLast hlink'
    rwa [List.dropLast_concat] at hdropped
  have hnowhere : (w.disk.eraseTree loc).isDirectory p = false :=
    isDirectory_eq_false (find_eraseTree_ne_ok hne hloc)
  have hmake : (Task.makeDirectories p).run ⟨w.disk.eraseTree loc, w.events⟩ =
      .error (.io .occupied) ⟨w.disk.eraseTree loc, w.events⟩ := by
    rw [Task.run_makeDirectories, makeDirectories_of_link hdescends habove' hname hlink' hnowhere]
  rw [run_of_existing hsource hp hloc hdir hout hshort, refill, EStateM.run_bind, hmake]

end

/-- **When an earlier template is replaced.**  What it held never makes a difference.  For a template
    root in a directory that is reached without links or steps back, it is replaced if the root is that
    directory itself, or a link that lies in the directory that it leads to; behind any other link the
    directory is taken away and the build fails. -/
theorem renews_or_loses (now : Timestamp) (hsource : w.disk.reach c.sourceRoot = .ok source)
    (hp : w.disk.absolute template = .ok p) (hloc : w.disk.find true p = .ok loc)
    (hdir : isDirectoryAt w.disk.table loc = true) (hout : ¬ loc <+: source) :
    ((pathOf loc).text.length < maxPath → ∀ report w₀,
      (buildTemplate c template now).run ⟨w.disk.eraseTree loc, w.events⟩ = .ok report w₀ →
      (buildTemplate c template now).run w = .ok report w₀) ∧
    (Path.back ∉ template.names →
      isDirectoryAt w.disk.table (w.disk.spelled template).dropLast = true →
      (loc <+: w.disk.spelled template →
        Renews c template now w p (w.disk.eraseTree loc)) ∧
      (¬ loc <+: w.disk.spelled template → (pathOf loc).text.length < maxPath →
        (buildTemplate c template now).run w =
          .error (.io .occupied) ⟨w.disk.eraseTree loc, w.events⟩ ∧
        ¬ Renews c template now w p (w.disk.eraseTree loc))) := by
  refine ⟨fun hshort report w₀ h => run_of_absent hsource hp hloc hdir hout hshort h, ?_⟩
  intro hback habove
  have hdescends : p.DescendsTo (w.disk.spelled template) :=
    descendsTo_absolute hback hp (Path.admissible_of_find hloc)
  -- the root of the disk holds everything, so the path does not spell it
  have hne : w.disk.spelled template ≠ [] := by
    intro heq
    rw [heq] at hdescends
    have hplain : w.disk.IsPlain [] := isPlain_of_get? (get?_nil w.disk) Kind.noConfusion
    exact hout (hdescends.eq_of_find hplain hloc ▸ List.nil_prefix)
  obtain ⟨above, name, hspelled⟩ : ∃ above name, w.disk.spelled template = above ++ [name] :=
    ⟨_, _, (List.dropLast_concat_getLast hne).symm⟩
  rw [hspelled] at hdescends habove ⊢
  rw [List.dropLast_concat] at habove
  refine ⟨renews_of_isPrefix hsource hp hloc hdir hout hdescends habove, ?_⟩
  intro haside hshort
  have hrun : (buildTemplate c template now).run w =
      .error (.io .occupied) ⟨w.disk.eraseTree loc, w.events⟩ :=
    run_of_link hsource hp hloc hdir hout hdescends habove haside hshort
  refine ⟨hrun, fun hrenews => ?_⟩
  have hlost : (w.disk.eraseTree loc).isDirectory p = false :=
    isDirectory_eq_false (find_eraseTree_ne_ok (fun heq => hout (heq ▸ List.nil_prefix)) hloc)
  have hthere := hrenews.there
  rw [Task.diskAfter, hrun, hlost] at hthere
  cases hthere

/-- A template root that is a directory. -/
theorem renews_twoFolders :
    let c : Config := { sourceRoot := .ofString "/src" }
    let old : Path := .ofString "/old"
    Renews c old default ⟨twoFolders, []⟩ old (twoFolders.eraseTree [Bytes.ofString "old"]) ∧
      ∃ w₁, (buildTemplate c old default).run ⟨twoFolders, []⟩ = .ok ⟨1, 1, 0⟩ w₁ := by
  intro c old
  have hsource : twoFolders.reach c.sourceRoot = .ok [Bytes.ofString "src"] := by decide +kernel
  have hold : twoFolders.absolute old = .ok old := by decide +kernel
  have hloc : twoFolders.find true old = .ok [Bytes.ofString "old"] := by decide +kernel
  have hdir : isDirectoryAt twoFolders.table [Bytes.ofString "old"] = true := by decide +kernel
  have hout : ¬ [Bytes.ofString "old"] <+: [Bytes.ofString "src"] := by decide +kernel
  have hrenews := (renews_or_loses (w := ⟨twoFolders, []⟩) default hsource hold hloc hdir hout).2
    (by decide +kernel) (by decide +kernel)
  have hanswer : (buildTemplate c old default).answer? ⟨twoFolders, []⟩ = some ⟨1, 1, 0⟩ := by
    decide +kernel
  exact ⟨hrenews.1 (by decide +kernel), Task.exists_run_of_answer? hanswer⟩

/-- The two folders, and a link to the second. -/
def linkedFolders : Disk := twoFolders.put [Bytes.ofString "t"] (.link (Bytes.ofString "old"))

/-- **A link at the template root**: the build succeeds where neither the link nor the directory behind
    it is there; with them it takes the directory away and fails. -/
theorem not_renews_linkedFolders :
    let c : Config := { sourceRoot := .ofString "/src" }
    let link : Path := .ofString "/t"
    ¬ Renews c link default ⟨linkedFolders, []⟩ link (linkedFolders.eraseTree [Bytes.ofString "old"]) ∧
      (∃ w₀, (buildTemplate c link default).run ⟨twoFolders.eraseTree [Bytes.ofString "old"], []⟩ =
        .ok ⟨1, 1, 0⟩ w₀) ∧
      isDirectoryAt linkedFolders.table [Bytes.ofString "old"] = true ∧
      ∃ w₁, (buildTemplate c link default).run ⟨linkedFolders, []⟩ = .error (.io .occupied) w₁ ∧
        w₁.disk.get? [Bytes.ofString "old"] = none := by
  intro c link
  have hanswer : (buildTemplate c link default).answer?
      ⟨twoFolders.eraseTree [Bytes.ofString "old"], []⟩ = some ⟨1, 1, 0⟩ := by decide +kernel
  have hfailure : (buildTemplate c link default).failure? ⟨linkedFolders, []⟩ =
      some (.io .occupied) := by decide +kernel
  have hnowhere : ((buildTemplate c link default).diskAfter ⟨linkedFolders, []⟩).isDirectory link =
      false := by decide +kernel
  have hlost : ((buildTemplate c link default).diskAfter ⟨linkedFolders, []⟩).get?
      [Bytes.ofString "old"] = none := by decide +kernel
  obtain ⟨w₁, hrun⟩ := Task.exists_run_of_failure? hfailure
  rw [Task.diskAfter, hrun] at hlost
  refine ⟨fun hrenews => ?_, Task.exists_run_of_answer? hanswer, by decide +kernel, w₁, hrun, hlost⟩
  have hthere := hrenews.there
  rw [hnowhere] at hthere
  cases hthere

end Build

end Stencil
