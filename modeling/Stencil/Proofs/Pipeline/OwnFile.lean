/-
  The configuration's own file.

  A configuration may lie in the source tree that it is about, and should not become part of what is made
  from it.  So the program adds the name of the file to the patterns of files that are left out.

  1. **What the added pattern does.**  A build and a scaffolding with the pattern do what they do without
     it, for a visitor who is not shown the files that the pattern hides (`KeepsOut`).  That is so for every
     name and on every disk.
  2. **Whom it hides.**  A name that stands for itself as a pattern hides the files of that name and no
     others.  Then the configuration keeps itself out.
  3. **What goes wrong.**  The name is not written as a pattern that stands for it.  A file `[c].json` stays
     in the tree, and `c.json` is left out in its place (`not_keepsOut_bracketed`).
-/
import Stencil.Build
import Stencil.Generate
import Stencil.Program
import Stencil.Proofs.Generate.Confinement
import Stencil.Proofs.Walk.Sparing

namespace Stencil

open Generate Walk

variable {c : Config} {hidden : String → Bool} {pattern : String}

/-! ## Pipelines that do not see some files -/

/-- Builds a template, without the hidden files of the source tree. -/
def Build.sparing (hidden : String → Bool) (c : Config) (template : Path) (now : Timestamp) :
    Task BuildReport := do
  let source ← c.canonicalSource
  let template ← Task.query (·.absolute template)
  Build.removeExisting source template
  Task.makeDirectories template
  let template ← Task.query (·.canonical template)
  let extra ← Task.look (Config.readIgnoreFile · source)
  let globs := PatternSet.read c.staticGlobs
  let (report, _) ← walkSource source [template] (c.ignoreRules extra)
    (Walk.sparing hidden (Build.visit c template globs)) {}
  (Metadata.ofConfig c now).save template
  return report

/-- Generates a project straight from a source tree, without the hidden files of the tree. -/
def Generate.sparing (hidden : String → Bool) (c : Config) (output : Path)
    (resolver : Variables → Resolution) (config : Option Path) : Task GenerateReport := do
  let source ← c.canonicalSource
  let (values, output) ← prepare resolver c.declared output
  let sourceName := lastName source
  let targetName := lastName output
  Task.emit (.info .generator ("Detecting variations: " ++ sourceName ++ " -> " ++ targetName))
  let c := { c with rules := c.rules.extend (deriveRules sourceName targetName) }
  let output ← makeOutput output
  Task.emit (.info .generator ("Scaffolding from " ++ source.display ++ " to " ++ output.display))
  let template ← Task.look (·.realPath c.templateRoot)
  let skip := output :: template.toOption.toList
  let extra ← Task.look (Config.readIgnoreFile · source)
  let globs := PatternSet.read c.staticGlobs
  let (report, _) ← walkSource source skip (c.ignoreRules extra)
    (Walk.sparing hidden (visitSourceEntry c values globs)) { output }
  copyConfig output config
  return report

/-- When nothing is hidden these are the pipelines themselves. -/
theorem Build.sparing_nothing (c : Config) : Build.sparing (fun _ => false) c = buildTemplate c := by
  funext template now
  simp only [Build.sparing, Walk.sparing_nothing]
  rfl

theorem Generate.sparing_nothing (c : Config) : Generate.sparing (fun _ => false) c = scaffold c := by
  funext output resolver config
  simp only [Generate.sparing, Walk.sparing_nothing]
  rfl

/-- Both pipelines do with `c` what they do with `base` without the hidden files: no hidden file is
    visited, and every other file that is visited with `base`. -/
structure KeepsOut (c base : Config) (hidden : String → Bool) : Prop where
  build : ∀ template now, buildTemplate c template now = Build.sparing hidden base template now
  scaffold : ∀ output resolver config,
    scaffold c output resolver config = Generate.sparing hidden base output resolver config

/-- **What one more pattern does to the pipelines**: the files that it hides are not visited. -/
theorem keepsOut_leavingOut (c : Config) (pattern : String) :
    KeepsOut (c.leavingOut pattern) c (hides pattern) where
  build := by
    intro template now
    rw [buildTemplate, Build.sparing]
    refine bind_congr fun source => ?_
    refine bind_congr fun template => ?_
    refine bind_congr fun _ => ?_
    refine bind_congr fun _ => ?_
    refine bind_congr fun template => ?_
    refine bind_congr fun extra => ?_
    refine (agree_walkSource (c.ignores_leavingOut pattern extra) source _ _ _).bind_eq ?_
    rintro ⟨report, ignored⟩ ⟨_, ignored'⟩ rfl
    rfl
  scaffold := by
    intro output resolver config
    rw [Stencil.scaffold, Generate.sparing]
    refine bind_congr fun source => ?_
    refine bind_congr fun ⟨values, path⟩ => ?_
    refine bind_congr fun _ => ?_
    refine bind_congr fun root => ?_
    refine bind_congr fun _ => ?_
    refine bind_congr fun template => ?_
    refine bind_congr fun extra => ?_
    let derived : Config :=
      { c with rules := c.rules.extend (deriveRules (lastName source) (lastName path)) }
    refine (agree_walkSource (derived.ignores_leavingOut pattern extra) source _ _ _).bind_eq ?_
    rintro ⟨report, ignored⟩ ⟨_, ignored'⟩ rfl
    rfl

/-! ## The name of the configuration's file -/

/-- The configuration of a file, about the source tree that is asked for. -/
def Config.about (c : Config) (source : Option String) : Config :=
  { c with sourceRoot := Program.pathOr source c.sourceRoot }

section Loading

variable {file : Path} {name : Name} {loaded : Config} {w w' : World}

/-- Loading a configuration for a walk adds the name of its file to the patterns. -/
theorem run_loadConfig (source : Option String) (hname : file.fileName? = some name)
    (hload : (Config.load file).run w = .ok loaded w') : (Program.loadConfig file source).run w =
      .ok ((loaded.about source).leavingOut (Bytes.lossy name)) w' := by
  rw [Program.loadConfig, EStateM.run_bind, hload, hname]
  rfl

theorem loadConfig_eq_ok {source : Option String} (hname : file.fileName? = some name)
    (h : (Program.loadConfig file source).run w = .ok c w') :
    ∃ loaded, (Config.load file).run w = .ok loaded w' ∧
      c = (loaded.about source).leavingOut (Bytes.lossy name) := by
  obtain ⟨loaded, w₁, hload, -⟩ := Task.bind_eq_ok h
  rw [run_loadConfig source hname hload] at h
  cases h
  exact ⟨loaded, hload, rfl⟩

end Loading

/-- **When a configuration keeps its own file out.**
    (1) A loaded configuration does what it does without the pattern that is added to it, but for the
        files that the pattern hides.
    (2) If the name of its file is literal, these are the files of that name, and no others.
    (3) The name of a file is its own name, as long as there is no backslash in it. -/
theorem loadConfig_keepsOut {file : Path} {source : Option String} {name : Name} {w w' : World}
    (hload : (Program.loadConfig file source).run w = .ok c w') (hname : file.fileName? = some name) :
    ∃ loaded, (Config.load file).run w = .ok loaded w' ∧
      KeepsOut c (loaded.about source) (hides (Bytes.lossy name)) ∧
      (IsLiteral (Bytes.lossy name) →
        KeepsOut c (loaded.about source) fun path => baseName path == Bytes.lossy name) ∧
      ∀ (root directory : Path) (entry relative : String), Path.IsStep (Bytes.ofString entry) →
        '\\' ∉ entry.toList → directory.startsWith root = true →
        relativePath root (directory.join ⟨Bytes.ofString entry⟩) = .ok relative →
        baseName relative = entry := by
  obtain ⟨loaded, hloaded, rfl⟩ := loadConfig_eq_ok hname hload
  have hkeeps := keepsOut_leavingOut (loaded.about source) (Bytes.lossy name)
  refine ⟨loaded, hloaded, hkeeps, fun hliteral => ?_, ?_⟩
  · have hsame : hides (Bytes.lossy name) = fun path => baseName path == Bytes.lossy name := by
      funext path
      rw [Bool.eq_iff_iff, hliteral.hides_iff, beq_iff_eq]
    exact hsame ▸ hkeeps
  · intro root directory entry relative hentry hback hbelow hrelative
    exact baseName_of_relativePath hentry hback hbelow hrelative

/-- A source tree with its configuration in a file of some name, and another file. -/
def configuredTree (own other : String) : Disk :=
  let src := [Bytes.ofString "src"]
  ((Disk.empty.put src (.directory Entry.directoryMode)).put (src ++ [Bytes.ofString own])
    (.file Entry.fileMode (Bytes.ofString "\x7b\x7d"))).put (src ++ [Bytes.ofString other])
    (.file Entry.fileMode (Bytes.ofString "x"))

/-- An empty configuration in the directory of a source tree. -/
def emptyConfig : Config := (Config.withDefaults {}).rootedAt (.ofString "/src")

/-- The configuration `app.json` keeps itself out of what is made from its directory. -/
theorem loadConfig_keepsOut_appJson :
    ∃ (c loaded : Config) (w' : World), (Program.loadConfig (.ofString "/src/app.json") none).run
        ⟨configuredTree "app.json" "c.json", []⟩ = .ok c w' ∧
      (Path.ofString "/src/app.json").fileName? = some (Bytes.ofString "app.json") ∧
      IsLiteral "app.json" ∧
      KeepsOut c (loaded.about none) fun path => baseName path == "app.json" := by
  have hanswer : (Config.load (.ofString "/src/app.json")).answer?
      ⟨configuredTree "app.json" "c.json", []⟩ = some emptyConfig := by decide +kernel
  have hname : (Path.ofString "/src/app.json").fileName? = some (Bytes.ofString "app.json") := by
    decide +kernel
  have hliteral : IsLiteral "app.json" := by decide +kernel
  obtain ⟨w', hload⟩ := Task.exists_run_of_answer? hanswer
  have hrun := run_loadConfig none hname hload
  obtain ⟨loaded, -, -, hkeeps, -⟩ := loadConfig_keepsOut hrun hname
  rw [Bytes.lossy_ofString] at hkeeps
  exact ⟨_, loaded, w', hrun, hname, hliteral, hkeeps hliteral⟩

/-- A configuration `[c].json` beside a file `c.json`, and what is loaded from it. -/
def bracketTree : World := ⟨configuredTree "[c].json" "c.json", []⟩

def bracketConfig : Config := (emptyConfig.about none).leavingOut "[c].json"

/-- **A name that is a glob**: the configuration `[c].json` becomes part of the project, and the file
    `c.json` beside it does not. -/
theorem not_keepsOut_bracketed :
    (∃ w', (Config.load (.ofString "/src/[c].json")).run bracketTree = .ok emptyConfig w' ∧
      (Program.loadConfig (.ofString "/src/[c].json") none).run bracketTree = .ok bracketConfig w') ∧
    ((((scaffold bracketConfig (.ofString "/new") Origin.nothingAsked none).diskAfter bracketTree).get?
        [Bytes.ofString "new", Bytes.ofString "[c].json"]).isSome = true ∧
      ((scaffold bracketConfig (.ofString "/new") Origin.nothingAsked none).diskAfter bracketTree).get?
        [Bytes.ofString "new", Bytes.ofString "c.json"] = none) ∧
    ¬ KeepsOut bracketConfig (emptyConfig.about none) fun path => baseName path == "[c].json" := by
  have hanswer : (Config.load (.ofString "/src/[c].json")).answer? bracketTree = some emptyConfig := by
    decide +kernel
  have hname : (Path.ofString "/src/[c].json").fileName? = some (Bytes.ofString "[c].json") := by
    decide +kernel
  obtain ⟨w', hload⟩ := Task.exists_run_of_answer? hanswer
  have hrun := run_loadConfig none hname hload
  rw [Bytes.lossy_ofString] at hrun
  have hmade : (((scaffold bracketConfig (.ofString "/new") Origin.nothingAsked none).diskAfter
        bracketTree).get? [Bytes.ofString "new", Bytes.ofString "[c].json"]).isSome = true ∧
      ((scaffold bracketConfig (.ofString "/new") Origin.nothingAsked none).diskAfter bracketTree).get?
        [Bytes.ofString "new", Bytes.ofString "c.json"] = none := by decide +kernel
  -- without the file of that name the other one would be visited
  have hspared : (((Generate.sparing (fun path => baseName path == "[c].json") (emptyConfig.about none)
      (.ofString "/new") Origin.nothingAsked none).diskAfter bracketTree).get?
        [Bytes.ofString "new", Bytes.ofString "c.json"]).isSome = true := by decide +kernel
  refine ⟨⟨w', hload, hrun⟩, hmade, fun hkeeps => ?_⟩
  rw [← hkeeps.scaffold, hmade.2] at hspared
  cases hspared

end Stencil
