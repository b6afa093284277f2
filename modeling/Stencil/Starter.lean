/-
  Starting with a project: a first configuration, and what a build would take up.
-/
import Stencil.Config.Store
import Stencil.Walk

namespace Stencil

namespace Starter

/-- The name before the extension of a C# project file. -/
def projectFileName? (name : Name) : Option String :=
  (Bytes.toString? name).bind fun text =>
    (".csproj".toList.isSuffixOf? text.toList).map String.ofList

/-- Meets an entry while a project name is sought; the first one found is kept. -/
def visit (found : Option String) (sighting : Sighting) : Task (Option String × Bool) :=
  let name := sighting.path.fileName?.getD []
  match sighting.kind with
  | .directory => return (found, !Defaults.ignoreFolders.contains (Bytes.lossy name))
  | .file => return (found.or (projectFileName? name), false)
  | .link => return (found, false)

/-- The name of the project in a tree: that of its first project file.  What cannot be read is passed
    over. -/
def detectName (root : Path) : Task (Option String) := do
  let found ←
    match ← Task.look (·.entryItself root) with
    | .ok (.file _ _) => pure (projectFileName? (root.fileName?.getD []))
    | _ => walkTree root visit (fun found _ => pure found) none
  return found.filter fun name => !name.isEmpty

/-- The source root as it is written into a configuration: from the directory of the configuration
    file if it lies there, else from the root of the disk. -/
def sourceFor (file source : Path) : Task Path := do
  let source ← Task.query (·.realPath source)
  let directory := ((← Task.query (·.absolute file)).parent?).getD ⟨[]⟩
  let directory := (← Task.look (·.realPath directory)).toOption.getD directory
  return match Path.below? directory source with
    | some [] => .ofString "."
    | some (c :: cs) => cs.foldl Path.push ⟨c.text⟩
    | none => source

/-- The variables that a first configuration declares. -/
def declared : Variables :=
  .ofList [
    ("PROJECT_NAME", { kind := "string", required := true, description := "Human-readable project name" }),
    ("PROJECT_SLUG",
      { kind := "string", required := true, description := "kebab-case slug for folder names",
        derivedFrom := some "PROJECT_NAME", transform := some "slug-kebab" })]

/-- The rules that put a token in the place of the project's name. -/
def rulesFor (name : Option String) : Rules :=
  match name with
  | none => {}
  | some name =>
    let token := ({} : Delimiters).token "PROJECT_NAME"
    { replacements := [⟨name, token⟩], renames := [⟨name, token⟩] }

end Starter

/-- Writes a first configuration for a source tree. -/
def writeStarter (file source : Path) : Task Config := do
  let sourceRoot ← Starter.sourceFor file source
  let name ← Starter.detectName source
  let config : Config := {
    sourceRoot
    ignoreFolders := Defaults.ignoreFolders
    ignoreFiles := Defaults.ignoreFiles
    staticFiles := Defaults.staticFiles
    declared := Starter.declared
    rules := Starter.rulesFor name }
  config.save file
  return config

/-- What a build would take up. -/
structure Survey where
  files : Nat
  skipped : Nat
  patterns : Nat
  deriving DecidableEq

/-- Walks through the source tree as a build does and writes nothing. -/
def survey (c : Config) : Task Survey := do
  let source ← c.canonicalSource
  let extra ← Task.look (Config.readIgnoreFile · source)
  let template ← Task.look (·.realPath c.templateRoot)
  let (files, skipped) ← walkSource source template.toOption.toList (c.ignoreRules extra)
    (fun files sighting _ => return if sighting.kind = .directory then files else files + 1) 0
  return { files, skipped, patterns := extra.length }

end Stencil
