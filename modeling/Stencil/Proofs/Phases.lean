/-
  The phases of a run that succeeds.

  A build and a generation each begin with some lookups, go on with the directory that they fill, and
  then walk.  What is known of a run that succeeds is said here once: what was found on which disk, and
  the walk with all that it is given.  The events that are let seen in between change no disk.
-/
import Stencil.Proofs.Build.Start
import Stencil.Proofs.Generate.Copy

namespace Stencil

open Disk Generate

variable {c : Config} {template output : Path} {resolver : Variables → Resolution}
  {config : Option Path} {w w' : World}

/-- The start of a generation: nothing is found at the path of the project as it is spelled, and once
    its directories are made it leads to the directory of the project. -/
structure ProjectStart (resolver : Variables → Resolution) (declared : Variables) (output : Path)
    (d : Disk) (values : Values) (path : Path) (root : Location) (d' : Disk) : Prop where
  resolved : (resolver declared).result = .ok values
  named : (d.absolute output).map (projectOutput · values) = .ok path
  missing : ∀ y, d.find true path ≠ .ok y
  made : d.makeDirectories path = (d', .ok ())
  found : d'.find true path = .ok root

/-- **The phases of a generation from a template.** -/
theorem generate_eq_ok {report : GenerateReport}
    (h : (generate template output resolver config).run w = .ok report w') :
    ∃ metadata values path source root, ∃ ws ww : World,
      (Metadata.load template).run w = .ok metadata w ∧
      w.disk.find true template = .ok source ∧
      ProjectStart resolver metadata.declared output w.disk values path root ws.disk ∧
      (walkTree (pathOf source)
        (visitTemplate (pathOf source) metadata values (PatternSet.read metadata.staticFiles))
        (fun _ e => throw e) { output := pathOf root }).run ws = .ok report ww ∧
      (copyConfig (pathOf root) config).run ww = .ok () w' := by
  obtain ⟨metadata, wm, hload, h₁⟩ := Task.bind_eq_ok h
  obtain ⟨rfl, -⟩ := load_eq_ok hload
  obtain ⟨sourcePath, ws, hcanonical, h₂⟩ := Task.bind_eq_ok h₁
  obtain ⟨hsourcePath, rfl⟩ := Task.query_eq_ok hcanonical
  obtain ⟨source, hfound, rfl⟩ := canonical_eq_ok hsourcePath
  obtain ⟨⟨values, path⟩, wp, hprepare, h₃⟩ := Task.bind_eq_ok h₂
  obtain ⟨hdisk, hvalues, hpath, fault, hmissing⟩ := prepare_eq_ok hprepare
  obtain ⟨rootPath, wo, hmake, h₄⟩ := Task.bind_eq_ok h₃
  obtain ⟨hmade, hroot⟩ := makeOutput_eq_ok hmake
  obtain ⟨root, hrootFound, rfl⟩ := canonical_eq_ok hroot
  rw [hdisk] at hmade
  obtain ⟨u₁, wa, hannounce, h₅⟩ := Task.bind_eq_ok h₄
  have hannounced : wa.disk = wo.disk := Task.emit_eq_ok hannounce
  obtain ⟨report', ww, hwalk, h₆⟩ := Task.bind_eq_ok h₅
  obtain ⟨u₂, wc, hconfig, h₇⟩ := Task.bind_eq_ok h₆
  obtain ⟨rfl, rfl⟩ := Task.pure_eq_ok h₇
  rw [← hannounced] at hmade hrootFound
  exact ⟨metadata, values, path, source, root, wa, ww, hload, hfound,
    ⟨hvalues, hpath, find_ne_ok_of_entryItself hmissing, hmade, hrootFound⟩, hwalk, hconfig⟩

/-- **The phases of a generation from a source tree.** -/
theorem scaffold_eq_ok {report : GenerateReport}
    (h : (scaffold c output resolver config).run w = .ok report w') :
    ∃ values path source root ignored, ∃ ws ww : World,
      w.disk.reach c.sourceRoot = .ok source ∧
      ProjectStart resolver c.declared output w.disk values path root ws.disk ∧
      (walkSource (pathOf source)
        (pathOf root :: (ws.disk.realPath c.templateRoot).toOption.toList)
        (c.ignoreRules (Config.readIgnoreFile ws.disk (pathOf source)))
        (visitSourceEntry
          { c with rules := c.rules.extend (deriveRules (lastName (pathOf source)) (lastName path)) }
          values (PatternSet.read c.staticGlobs))
        { output := pathOf root }).run ws = .ok (report, ignored) ww ∧
      (copyConfig (pathOf root) config).run ww = .ok () w' := by
  obtain ⟨sourcePath, ws, hcanonicalSource, h₁⟩ := Task.bind_eq_ok h
  obtain ⟨rfl, hsourcePath⟩ := canonicalSource_eq_ok hcanonicalSource
  obtain ⟨source, hfound, rfl⟩ := realPath_eq_ok hsourcePath
  obtain ⟨⟨values, path⟩, wp, hprepare, h₂⟩ := Task.bind_eq_ok h₁
  obtain ⟨hdisk, hvalues, hpath, fault, hmissing⟩ := prepare_eq_ok hprepare
  obtain ⟨u₁, wa, hannounce, h₃⟩ := Task.bind_eq_ok h₂
  have hannounced : wa.disk = ws.disk := (Task.emit_eq_ok hannounce).trans hdisk
  obtain ⟨rootPath, wo, hmake, h₄⟩ := Task.bind_eq_ok h₃
  obtain ⟨hmade, hroot⟩ := makeOutput_eq_ok hmake
  obtain ⟨root, hrootFound, rfl⟩ := canonical_eq_ok hroot
  rw [hannounced] at hmade
  obtain ⟨u₂, wb, hannounce', h₅⟩ := Task.bind_eq_ok h₄
  have hannounced' : wb.disk = wo.disk := Task.emit_eq_ok hannounce'
  rw [← hannounced'] at hmade hrootFound
  obtain ⟨found, wt, htemplate, h₆⟩ := Task.bind_eq_ok h₅
  obtain ⟨rfl, rfl⟩ := Task.look_eq_ok htemplate
  obtain ⟨extra, we, hextra, h₇⟩ := Task.bind_eq_ok h₆
  obtain ⟨rfl, rfl⟩ := Task.look_eq_ok hextra
  obtain ⟨⟨report', ignored⟩, ww, hwalk, h₈⟩ := Task.bind_eq_ok h₇
  obtain ⟨u₃, wc, hconfig, h₉⟩ := Task.bind_eq_ok h₈
  obtain ⟨rfl, rfl⟩ := Task.pure_eq_ok h₉
  exact ⟨values, path, source, root, ignored, we, ww, hfound,
    ⟨hvalues, hpath, find_ne_ok_of_entryItself hmissing, hmade, hrootFound⟩, hwalk, hconfig⟩

namespace Build

/-- The disk without what a path leads to, if it leads anywhere. -/
def cleared (d : Disk) (p : Path) : Disk :=
  match d.find true p with
  | .ok loc => d.eraseTree loc
  | .error _ => d

/-- The disk is as it was beside what is in the way. -/
theorem get?_cleared {d : Disk} {p : Path} {x : Location}
    (hout : ∀ loc, d.find true p = .ok loc → ¬ loc <+: x) : (cleared d p).get? x = d.get? x := by
  rw [cleared]
  cases hfind : d.find true p with
  | error fault => rfl
  | ok loc =>
    have hbeside : ¬ loc <+: x := hout loc hfind
    have hne : loc ≠ [] := by
      rintro rfl
      exact hbeside List.nil_prefix
    exact (get?_eraseTree d hne x).trans (if_neg hbeside)

theorem here_cleared (d : Disk) (p : Path) : (cleared d p).here = d.here := by
  rw [cleared]
  split <;> rfl

/-- Clearing the place of a template puts nothing anywhere. -/
theorem get?_of_get?_cleared {d : Disk} {p : Path} {source x : Location} {e : Entry}
    (hout : ∀ loc, d.find true p = .ok loc → ¬ loc <+: source) (h : (cleared d p).get? x = some e) :
    d.get? x = some e := by
  rw [cleared] at h
  cases hfind : d.find true p with
  | error fault =>
    rw [hfind] at h
    exact h
  | ok loc =>
    have hne : loc ≠ [] := by
      rintro rfl
      exact hout [] hfind List.nil_prefix
    simp only [hfind, get?_eraseTree d hne] at h
    split at h
    · cases h
    · exact h

/-- An earlier template is taken away, if there is one.  It is a directory and does not hold the source
    tree. -/
theorem cleared_of_removeExisting {source : Location} {p : Path} {u : Unit}
    (hsource : IsDescent source) (h : (removeExisting (pathOf source) p).run w = .ok u w') :
    w'.disk = cleared w.disk p ∧ ∀ loc, w.disk.find true p = .ok loc →
      isDirectoryAt w.disk.table loc = true ∧ ¬ loc <+: source := by
  rw [cleared]
  rcases removeExisting_eq_ok hsource h with ⟨rfl, hnone⟩ | ⟨loc, hfind, hdir, hout, herased⟩
  · cases hfind : w'.disk.find true p with
    | ok loc => exact absurd hfind (hnone loc)
    | error fault => exact ⟨rfl, fun loc heq => by cases heq⟩
  · rw [hfind]
    refine ⟨herased, fun x heq => ?_⟩
    cases heq
    exact ⟨hdir, hout⟩

/-- The start of a build: the directory at the path of the template is taken away, it does not hold the
    source tree, and once the directories of the path are made it leads to the directory of the
    template. -/
structure TemplateStart (template : Path) (d : Disk) (source : Location) (p : Path) (top : Location)
    (d' : Disk) : Prop where
  named : d.absolute template = .ok p
  replaced : ∀ loc, d.find true p = .ok loc → isDirectoryAt d.table loc = true
  outside : ∀ loc, d.find true p = .ok loc → ¬ loc <+: source
  made : (cleared d p).makeDirectories p = (d', .ok ())
  found : d'.find true p = .ok top

end Build

open Build

/-- **The phases of a build.** -/
theorem buildTemplate_eq_ok {now : Timestamp} {report : BuildReport}
    (h : (buildTemplate c template now).run w = .ok report w') :
    ∃ source p top ignored, ∃ ws ww : World,
      w.disk.reach c.sourceRoot = .ok source ∧
      TemplateStart template w.disk source p top ws.disk ∧
      (walkSource (pathOf source) [pathOf top]
        (c.ignoreRules (Config.readIgnoreFile ws.disk (pathOf source)))
        (visit c (pathOf top) (PatternSet.read c.staticGlobs)) {}).run ws =
          .ok (report, ignored) ww ∧
      ((Metadata.ofConfig c now).save (pathOf top)).run ww = .ok () w' := by
  obtain ⟨sourcePath, ws, hcanonicalSource, h₁⟩ := Task.bind_eq_ok h
  obtain ⟨rfl, hsourcePath⟩ := canonicalSource_eq_ok hcanonicalSource
  obtain ⟨source, hfound, rfl⟩ := realPath_eq_ok hsourcePath
  obtain ⟨e, he⟩ := exists_get?_of_reach hfound
  obtain ⟨p, wa, hquery, h₂⟩ := Task.bind_eq_ok h₁
  obtain ⟨habsolute, rfl⟩ := Task.query_eq_ok hquery
  obtain ⟨u₁, wr, hremove, h₃⟩ := Task.bind_eq_ok h₂
  obtain ⟨hcleared, hexisting⟩ := cleared_of_removeExisting (isDescent_of_get? he) hremove
  obtain ⟨u₂, wm, hmake, h₄⟩ := Task.bind_eq_ok h₃
  have hmade := Task.makeDirectories_eq_ok hmake
  rw [hcleared] at hmade
  obtain ⟨root, wc, hcanonical, h₅⟩ := Task.bind_eq_ok h₄
  obtain ⟨hroot, rfl⟩ := Task.query_eq_ok hcanonical
  obtain ⟨top, htop, rfl⟩ := canonical_eq_ok hroot
  obtain ⟨extra, we, hextra, h₆⟩ := Task.bind_eq_ok h₅
  obtain ⟨rfl, rfl⟩ := Task.look_eq_ok hextra
  obtain ⟨⟨report', ignored⟩, ww, hwalk, h₇⟩ := Task.bind_eq_ok h₆
  obtain ⟨u₃, wd, hsave, h₈⟩ := Task.bind_eq_ok h₇
  obtain ⟨rfl, rfl⟩ := Task.pure_eq_ok h₈
  exact ⟨source, p, top, ignored, we, ww, hfound, ⟨habsolute, fun loc h => (hexisting loc h).1,
    fun loc h => (hexisting loc h).2, hmade, htop⟩, hwalk, hsave⟩

end Stencil
