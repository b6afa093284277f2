/-
  The copy of the configuration.

  A project may keep the configuration that it was made with.  The copy is a favour: it is made last,
  whatever goes wrong with it is only told, and it is made in one place.

  1. **The copying** always succeeds.  It puts a file at one place of the root, or it changes nothing
     (`Copied`, `run_copyConfig`), and it lets one event be seen.
  2. **It comes last.**  A making with a configuration is the making without one, and then the copying
     (`Material.fill_eq`).  When the making fails, before its root is there or behind that, it fails the
     same way.
  3. **It leads nowhere else.**  The place lies below the root, and where there were no links before a
     making there are none when the copying begins (`stableBelow_linkless`).
-/
import Stencil.Proofs.Disk.Keep
import Stencil.Proofs.Generate.Confinement

namespace Stencil

open Disk Generate Path

variable {w w' : World} {root : Location}

/-- Where the configuration is copied to, if it has the name of a file. -/
def copiedTo (root : Location) (config : Option Path) : Option Location :=
  (config.bind Path.fileName?).map fun name => root ++ [name]

/-- The copying of a configuration: at its own place below the root there is a file with the mode and the
    content of what the path leads to, or nothing is changed.  A file that is copied onto itself is
    emptied. -/
structure Copied (root : Location) (config : Path) (w w' : World) : Prop where
  done : w'.disk = w.disk ∨ ∃ name origin mode content, config.fileName? = some name ∧
    w.disk.find true config = .ok origin ∧ w.disk.get? origin = some (.file mode content) ∧
    w'.disk.get? (root ++ [name]) =
      some (.file mode (if root ++ [name] = origin then [] else content))
  elsewhere : ∀ x, copiedTo root (some config) ≠ some x → w'.disk.get? x = w.disk.get? x
  here : w'.disk.here = w.disk.here
  told : ∃ event, w'.events = w.events ++ [event]

theorem Copied.unchanged {config : Path} {event : Event} :
    Copied root config w { w with events := w.events ++ [event] } :=
  ⟨.inl rfl, fun _ _ => rfl, rfl, event, rfl⟩

/-- **The copying of the configuration** never fails, and changes at most its own place. -/
theorem run_copyConfig (hroot : IsDescent root) (hplain : ∀ y, root <+: y → w.disk.IsPlain y)
    (config : Path) : ∃ w', (copyConfig (pathOf root) (some config)).run w = .ok () w' ∧
      Copied root config w w' := by
  unfold copyConfig
  dsimp only
  cases hname : config.fileName? with
  | none => exact ⟨_, rfl, Copied.unchanged⟩
  | some name =>
    have hstep : IsStep name := isStep_of_fileName? hname
    have hspells := spells_pathOf (hroot.concat hstep)
    dsimp only
    rw [EStateM.run_bind, EStateM.run_get]
    dsimp only
    rw [join_pathOf hroot hstep]
    cases hcopy : w.disk.copy config (pathOf (root ++ [name])) with
    | error fault => exact ⟨_, rfl, Copied.unchanged⟩
    | ok d =>
      obtain ⟨origin, mode, content, hfind, hfile, hchanged⟩ :=
        changed_of_copy hspells (hplain _ (List.prefix_append root _)) hcopy
      refine ⟨_, rfl, .inr ⟨name, origin, mode, content, hname, hfind, hfile, hchanged.get?_self⟩,
        fun x hx => hchanged.get?_of_ne ?_, (keeps_copy hcopy).here, _, rfl⟩
      rintro rfl
      rw [copiedTo, Option.bind_some, hname] at hx
      exact hx rfl

/-- So what lies elsewhere stays, whatever is copied. -/
theorem get?_of_copyConfig {config : Option Path} {x : Location} {u : Unit} (hroot : IsDescent root)
    (hplain : ∀ y, root <+: y → w.disk.IsPlain y)
    (h : (copyConfig (pathOf root) config).run w = .ok u w') (hx : copiedTo root config ≠ some x) :
    w'.disk.get? x = w.disk.get? x := by
  cases config with
  | none =>
    obtain ⟨-, rfl⟩ := Task.pure_eq_ok h
    rfl
  | some config =>
    obtain ⟨w₁, hrun, hcopied⟩ := run_copyConfig hroot hplain config
    rw [hrun] at h
    cases h
    exact hcopied.elsewhere x hx

namespace Origin

variable {o : Origin} {output : Path} {resolver : Variables → Resolution}

/-- With a configuration to copy, the making of a project ends as it does without. -/
structure CopiesLast (o : Origin) (output : Path) (resolver : Variables → Resolution) (config : Path)
    (w : World) : Prop where
  /-- A making that fails fails with the same error, and leaves the same world. -/
  error : ∀ e w₁, (o.generate output resolver none).run w = .error e w₁ →
    (o.generate output resolver (some config)).run w = .error e w₁
  /-- One that succeeds gives the same report, and then the configuration is copied. -/
  ok : ∀ report w₁, (o.generate output resolver none).run w = .ok report w₁ →
    ∃ root w₂, report.output = pathOf root ∧
      (o.generate output resolver (some config)).run w = .ok report w₂ ∧ Copied root config w₁ w₂

/-- Where there are no links before, there are none when the output root is made. -/
theorem isLinkless_of_start {path rootPath : Path} {w₁ : World} (hlinkless : w.disk.IsLinkless)
    (h : (o.start output resolver).run w = .ok (path, rootPath) w₁) : w₁.disk.IsLinkless := by
  obtain ⟨-, hmade, -, -⟩ := start_eq_ok h
  exact (grown_of_makeDirectories_aim hmade).2.isLinkless hlinkless

/-- **Copying the configuration is best effort and local**: where there are no links, the making of a
    project comes to the same with a configuration to copy and without, and the disks that it leaves
    differ at most where the configuration is copied to. -/
theorem copiesLast (o : Origin) (output : Path) (resolver : Variables → Resolution) (config : Path)
    (hlinkless : w.disk.IsLinkless) : o.CopiesLast output resolver config w := by
  cases hstart : (o.start output resolver).run w with
  | error e w₁ =>
    -- without a root there is nothing to copy to
    obtain ⟨w₂, -, hrun⟩ := run_generate_of_error hstart
    refine ⟨fun e' w' h => ?_, fun report w' h => ?_⟩
    · rw [hrun] at h ⊢
      exact h
    · rw [hrun] at h
      cases h
  | ok found w₁ =>
    obtain ⟨path, rootPath⟩ := found
    obtain ⟨m, w₂, hdisk, hrun⟩ := run_generate hstart
    obtain ⟨-, -, hfound, hroot⟩ := start_eq_ok hstart
    have hlinkless' : w₂.disk.IsLinkless := hdisk ▸ isLinkless_of_start hlinkless hstart
    obtain ⟨e, he⟩ := exists_get?_of_find hfound
    have hdescent : IsDescent rootPath.names := isDescent_of_get? he
    have hkeeps := stableBelow_linkless.keeps_fill m none hdescent
    rw [hroot] at hrun
    refine ⟨fun e w₃ h => ?_, fun report w₃ h => ?_⟩
    · rw [hrun] at h ⊢
      rw [m.fill_eq, EStateM.run_bind, h]
    · rw [hrun] at h
      have hlinkless'' : w₃.disk.IsLinkless := hkeeps.of_ok hlinkless' h
      obtain ⟨w₄, hcopy, hcopied⟩ :=
        run_copyConfig hdescent (fun y _ => hlinkless''.isPlain y) config
      refine ⟨rootPath.names, w₄, (hkeeps w₂ hlinkless').2 report w₃ h, ?_, hcopied⟩
      rw [hrun, m.fill_eq, EStateM.run_bind, h]
      dsimp only
      rw [EStateM.run_bind, hcopy]
      rfl

/-- A configuration path that leads to a file of the project itself: that file is emptied, and nothing
    else is changed. -/
theorem copiesLast_twoFolders :
    twoFolders.IsLinkless ∧
      folderSource.CopiesLast (.ofString "/new") nothingAsked (.ofString "/new/a") ⟨twoFolders, []⟩ ∧
      ((folderSource.generate (.ofString "/new") nothingAsked none).diskAfter
        ⟨twoFolders, []⟩).get? [Bytes.ofString "new", Bytes.ofString "a"] =
          some (.file Entry.fileMode [1]) ∧
      ((folderSource.generate (.ofString "/new") nothingAsked (some (.ofString "/new/a"))).diskAfter
        ⟨twoFolders, []⟩).get? [Bytes.ofString "new", Bytes.ofString "a"] =
          some (.file Entry.fileMode []) := by
  refine ⟨isLinkless_twoFolders, ?_, by decide +kernel, by decide +kernel⟩
  exact copiesLast folderSource _ nothingAsked _ isLinkless_twoFolders

end Origin

end Stencil
