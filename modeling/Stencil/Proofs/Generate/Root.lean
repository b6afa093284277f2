/-
  Is the output root new?

  A project may only be made where there is nothing, and the output path is tested for that before
  anything is written.  But the test asks where the path leads, and a path that steps back out of a
  missing directory leads nowhere until that directory is made: then `missing/../there` leads to
  `there`, and the project is written into a directory with everything that lies in it.

  So the root is new exactly when nothing lies where the output path aims (`makesNewRoot_iff`), which
  is always so when the path does not step back.  When it is new, nothing that was there before is
  changed.
-/
import Stencil.Proofs.Generate.Confinement

namespace Stencil.Origin

open Disk

variable {o : Origin} {output : Path} {resolver : Variables → Resolution} {w : World}

/-- If the making of a project comes to an output root, nothing lay there before. -/
def MakesNewRoot (o : Origin) (output : Path) (resolver : Variables → Resolution) (w : World) : Prop :=
  ∀ path root w₁, (o.start output resolver).run w = .ok (path, root) w₁ →
    w.disk.get? root.names = none

/-- Then nothing that was there before is changed, also when the making fails before there is a root. -/
theorem MakesNewRoot.get?_eq_some {x : Location} {e : Entry}
    (hnew : o.MakesNewRoot output resolver w) (config : Option Path) (he : w.disk.get? x = some e) :
    ((o.generate output resolver config).diskAfter w).get? x = some e := by
  cases hstart : (o.start output resolver).run w with
  | ok found w₁ =>
    obtain ⟨path, root⟩ := found
    have hroot := hnew path root w₁ hstart
    obtain ⟨hgrown, hconfined⟩ := confined_of_new config hstart hroot
    exact hconfined.get?_of_some hroot hgrown he
  | error fault w₁ =>
    obtain ⟨w₂, hdisk, hrun⟩ := Origin.run_generate_of_error hstart
    rw [Task.diskAfter, hrun config]
    dsimp only
    rw [hdisk]
    have hkept : Grown (fun _ => True) w.disk (Task.diskAfter (o.start output resolver) w) := by
      refine (keeps_start o output resolver (fun d p hd => ?_) w (Grown.refl _)).1
      exact hd.trans ((grown_of_makeDirectoriesFrom_aim d _).2.mono fun _ _ => trivial)
    rw [Task.diskAfter, hstart] at hkept
    exact hkept.get?_of_some he

/-- The output root lies where the output path aimed before. -/
theorem aimsAt_of_start {path root : Path} {w₁ : World}
    (h : (o.start output resolver).run w = .ok (path, root) w₁) : w.disk.AimsAt path root.names := by
  obtain ⟨-, hmade, hfound, -⟩ := start_eq_ok h
  exact aimsAt_of_makeDirectories hmade hfound

/-- **When the output root is new**: exactly when nothing lies where the output path aims, and so
    always when the path goes down from the root of the disk without a step back.  When it is new,
    nothing that was there before is changed, whatever comes of the making. -/
theorem makesNewRoot_iff (o : Origin) (output : Path) (resolver : Variables → Resolution) (w : World) :
    (o.MakesNewRoot output resolver w ↔
      ∀ path root w₁, (o.start output resolver).run w = .ok (path, root) w₁ →
        ∃ x, w.disk.AimsAt path x ∧ w.disk.get? x = none) ∧
    ((∀ path root w₁, (o.start output resolver).run w = .ok (path, root) w₁ →
        path.isAbsolute = true ∧ Path.back ∉ path.names) →
      o.MakesNewRoot output resolver w) ∧
    (o.MakesNewRoot output resolver w → ∀ config x e, w.disk.get? x = some e →
      ((o.generate output resolver config).diskAfter w).get? x = some e) := by
  refine ⟨⟨?_, ?_⟩, ?_, fun hnew config x e he => hnew.get?_eq_some config he⟩
  · intro hnew path root w₁ h
    exact ⟨root.names, aimsAt_of_start h, hnew path root w₁ h⟩
  · intro haims path root w₁ h
    obtain ⟨x, hx, hfree⟩ := haims path root w₁ h
    exact (aimsAt_of_start h).unique hx ▸ hfree
  · -- without a step back only what is missing has missing things below it
    intro hstraight path root w₁ h
    obtain ⟨-, hback⟩ := hstraight path root w₁ h
    obtain ⟨⟨fault, hmissing⟩, hmade, hfound, -⟩ := start_eq_ok h
    exact free_of_makeDirectories hback (find_ne_ok_of_entryItself hmissing) hmade hfound

/-- A path that goes down to where nothing is. -/
theorem makesNewRoot_twoFolders :
    folderSource.MakesNewRoot (.ofString "/new") nothingAsked ⟨twoFolders, []⟩ := by
  have hanswer : (folderSource.start (.ofString "/new") nothingAsked).answer? ⟨twoFolders, []⟩ =
      some (.ofString "/new", .ofString "/new") := by decide +kernel
  obtain ⟨w₂, hstart⟩ := Task.exists_run_of_answer? hanswer
  refine (makesNewRoot_iff folderSource (.ofString "/new") nothingAsked ⟨twoFolders, []⟩).2.1 ?_
  intro path root w₁ h
  rw [hstart] at h
  cases h
  decide +kernel

/-- **A step back out of a missing directory**: the output root is the directory `old`, and the file in
    it is overwritten. -/
theorem not_makesNewRoot_twoFolders :
    ¬ folderSource.MakesNewRoot (.ofString "/way/../old") nothingAsked ⟨twoFolders, []⟩ ∧
      twoFolders.get? [Bytes.ofString "old", Bytes.ofString "a"] = some (.file Entry.fileMode [2]) ∧
      ((folderSource.generate (.ofString "/way/../old") nothingAsked none).diskAfter
        ⟨twoFolders, []⟩).get? [Bytes.ofString "old", Bytes.ofString "a"] =
          some (.file Entry.fileMode [1]) := by
  refine ⟨?_, by decide +kernel, by decide +kernel⟩
  have hanswer : (folderSource.start (.ofString "/way/../old") nothingAsked).answer?
      ⟨twoFolders, []⟩ = some (.ofString "/way/../old", .ofString "/old") := by decide +kernel
  obtain ⟨w₁, hstart⟩ := Task.exists_run_of_answer? hanswer
  intro hnew
  have hthere : twoFolders.get? (Path.ofString "/old").names ≠ none := by decide +kernel
  exact hthere (hnew _ _ w₁ hstart)

end Stencil.Origin
