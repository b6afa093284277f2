/-
  Generating a project, from a template or straight from a source tree.

  The values of the variables are resolved first, then the output path is found and has to be free;
  up to there nothing is written.  From a template (`generate`) the paths and files are rendered with
  the values.  From a source tree (`scaffold`) the replacements and rename rules of the configuration
  are applied before that, together with those that turn the name of the source directory into that of
  the output directory.
-/
import Stencil.Build
import Stencil.Naming.Rules
import Stencil.Resolution

namespace Stencil

/-- The outcome of a generation: where the project lies, and the numbers of files. -/
structure GenerateReport where
  output : Path
  templated : Nat := 0
  static : Nat := 0
  deriving DecidableEq

namespace GenerateReport

/-- Counts an operation. -/
def count (r : GenerateReport) : FileOperation → GenerateReport
  | .write _ _ _ => { r with templated := r.templated + 1 }
  | .copy _ _ => { r with static := r.static + 1 }
  | .directory _ => r

end GenerateReport

namespace Generate

/-- Refuses an output path at which anything lies, be it a link that leads nowhere. -/
def ensureFree (output : Path) : Task Unit := do
  match ← Task.look (·.entryItself output) with
  | .ok _ => throw (.outputExists output)
  | .error _ => return ()

/-- Resolves the variables and finds the output path. -/
def prepare (resolver : Variables → Resolution) (declared : Variables) (output : Path) :
    Task (Values × Path) := do
  let resolution := resolver declared
  modify fun w => { w with events := w.events ++ resolution.events }
  let values ← ofExcept resolution.result
  let output := projectOutput (← Task.query (·.absolute output)) values
  ensureFree output
  return (values, output)

/-- Makes the output directory. -/
def makeOutput (output : Path) : Task Path := do
  Task.makeDirectories output
  Task.query (·.canonical output)

/-- Copies the configuration file into the project.  When that fails there is only a warning. -/
def copyConfig (output : Path) (config : Option Path) : Task Unit := do
  match config with
  | none => return ()
  | some config =>
    let failed (reason : String) : Event :=
      .warning .generator ("Could not copy config file '" ++ config.display ++ "': " ++ reason)
    match config.fileName? with
    | none => Task.emit (failed "not a file path")
    | some name =>
      let target := output.join ⟨name⟩
      match (← get).disk.copy config target with
      | .ok disk =>
        modify fun w => { w with disk }
        Task.emit (.info .generator ("Copied config file to " ++ target.display))
      | .error fault => Task.emit (failed fault.message)

/-- Writes one entry below the output directory. -/
def place (report : GenerateReport) (sighting : Sighting) (relative : String) (target : Path)
    (globs : PatternSet) (render : Bytes → Bytes) : Task GenerateReport := do
  let operation ←
    if sighting.kind = .directory then pure (FileOperation.directory target)
    else
      let static ← Task.query (isStatic relative sighting.path globs)
      FileOperation.forFile sighting.path target static render
  operation.execute
  return report.count operation

/-- Writes one entry of a template into the project. -/
def visitTemplate (template : Path) (metadata : Metadata) (values : Values) (globs : PatternSet)
    (report : GenerateReport) (sighting : Sighting) : Task (GenerateReport × Bool) := do
  if sighting.path.components = (Metadata.file template).components then return (report, false)
  else if sighting.path.startsWith report.output then return (report, false)
  else
    let relative ← ofExcept (relativePath template sighting.path)
    let target ← ofExcept (joinUnder report.output (metadata.delimiters.render values relative))
    let report ← place report sighting relative target globs (metadata.delimiters.renderBytes values)
    return (report, true)

/-- Writes one entry of a source tree into the project. -/
def visitSourceEntry (c : Config) (values : Values) (globs : PatternSet) (report : GenerateReport)
    (sighting : Sighting) (relative : String) : Task GenerateReport := do
  let renamed := rename (RenameRule.sortLongest c.rules.renames) relative
  let target ← ofExcept (joinUnder report.output (c.delimiters.render values renamed))
  place report sighting relative target globs fun content =>
    c.delimiters.renderBytes values (applyReplacements c.rules.replacements content)

/-- The last name of a path, as text. -/
def lastName (p : Path) : String := (p.fileName?.map Bytes.lossy).getD ""

end Generate

open Generate

/-- Generates a project from a template. -/
def generate (template output : Path) (resolver : Variables → Resolution) (config : Option Path) :
    Task GenerateReport := do
  let metadata ← Metadata.load template
  let template ← Task.query (·.canonical template)
  let (values, output) ← prepare resolver metadata.declared output
  let output ← makeOutput output
  Task.emit (.info .generator
    ("Generating " ++ output.display ++ " from template " ++ template.display))
  let globs := PatternSet.read metadata.staticFiles
  let report ← walkTree template (visitTemplate template metadata values globs) (fun _ e => throw e)
    { output }
  copyConfig output config
  return report

/-- Generates a project straight from a source tree. -/
def scaffold (c : Config) (output : Path) (resolver : Variables → Resolution) (config : Option Path) :
    Task GenerateReport := do
  let source ← c.canonicalSource
  let (values, output) ← prepare resolver c.declared output
  let sourceName := lastName source
  let targetName := lastName output
  Task.emit (.info .generator ("Detecting variations: " ++ sourceName ++ " -> " ++ targetName))
  let c := { c with rules := c.rules.extend (deriveRules sourceName targetName) }
  let output ← makeOutput output
  Task.emit (.info .generator ("Scaffolding from " ++ source.display ++ " to " ++ output.display))
  let template ← Task.look (·.realPath c.templateRoot)
  let skip := output :: template.toOption.toList
  let extra ← Task.look (Config.readIgnoreFile · source)
  let globs := PatternSet.read c.staticGlobs
  let (report, _) ← walkSource source skip (c.ignoreRules extra) (visitSourceEntry c values globs)
    { output }
  copyConfig output config
  return report

end Stencil
