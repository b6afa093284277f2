/-
  Building a template from a source tree.

  Every entry that is not left out is written below the template root under its renamed path: a
  directory is made, a static file is copied, and in any other file the replacements are applied.
  The description of the template is written last.  A template that is there already is replaced; it
  may not hold the source tree.
-/
import Stencil.Config.Store
import Stencil.FileOperation
import Stencil.Metadata
import Stencil.Walk

namespace Stencil

/-- The numbers of files of a finished build. -/
structure BuildReport where
  files : Nat := 0
  templated : Nat := 0
  static : Nat := 0
  deriving DecidableEq

namespace Metadata

/-- The file of the description of a template. -/
def file (template : Path) : Path := template.join (.ofString Defaults.metadataFile)

/-- Writes the description of a template. -/
def save (m : Metadata) (template : Path) : Task Unit :=
  Task.change (·.write (file template) (Bytes.ofString m.print))

/-- Reads the description of a template. -/
def load (template : Path) : Task Metadata := do
  match ← Task.look (·.readText (file template)) with
  | .error fault => throw (.metadata template (.unreadable fault))
  | .ok content =>
    match read? content with
    | some m => return m
    | none => throw (.metadata template .malformed)

end Metadata

namespace Build

/-- Takes away the template that is there already. -/
def removeExisting (source template : Path) : Task Unit := do
  if ← Task.look (·.isThere template) then
    let existing ← Task.query (·.canonical template)
    if source.startsWith existing then throw (.config (.templateHoldsSource template))
    Task.change (·.removeTree existing)

/-- Writes one entry of the source tree into the template. -/
def visit (c : Config) (template : Path) (globs : PatternSet) (report : BuildReport)
    (sighting : Sighting) (relative : String) : Task BuildReport := do
  let target ← ofExcept (joinUnder template (rename c.rules.renames relative))
  if sighting.kind = .directory then
    (FileOperation.directory target).execute
    return report
  else
    let static ← Task.query (isStatic relative sighting.path globs)
    let operation ← FileOperation.forFile sighting.path target static
      (applyReplacements c.rules.replacements)
    operation.execute
    return match operation with
      | .write _ _ _ => { report with files := report.files + 1, templated := report.templated + 1 }
      | _ => { report with files := report.files + 1, static := report.static + 1 }

end Build

/-- Builds a template. -/
def buildTemplate (c : Config) (template : Path) (now : Timestamp) : Task BuildReport := do
  let source ← c.canonicalSource
  let template ← Task.query (·.absolute template)
  Build.removeExisting source template
  Task.makeDirectories template
  let template ← Task.query (·.canonical template)
  let extra ← Task.look (Config.readIgnoreFile · source)
  let globs := PatternSet.read c.staticGlobs
  let (report, _) ←
    walkSource source [template] (c.ignoreRules extra) (Build.visit c template globs) {}
  (Metadata.ofConfig c now).save template
  return report

end Stencil
