/-
  The program: what a call does, and what it says.

  A call is a task, and the lines it writes to its output are events of the task, between the questions
  that it asks.  Warnings, and with more log lines wanted also what is merely told, go to the error
  output, and so does the reason of a failure.
-/
import Stencil.CommandLine
import Stencil.Generate
import Stencil.Starter
import Stencil.Text.Quoted

namespace Stencil

/-- What a call is given besides its arguments. -/
structure Surroundings where
  now : Timestamp
  environment : NameMap Bytes := ∅
  /-- The input, of which each question takes a line. -/
  input : Bytes := []

/-- What a call leaves to be seen. -/
structure Outcome where
  exitCode : Nat
  output : String
  errors : String
  deriving DecidableEq

namespace Program

/-- Writes a line. -/
def say (line : String) : Task Unit := Task.emit (.output (line ++ "\n"))

/-- The path that an option gives, or a default. -/
def pathOr (given : Option String) (default : Path) : Path := (given.map Path.ofString).getD default

/-- Loads the configuration for a walk through its source tree: another source root may be given, and
    the configuration file itself is left out. -/
def loadConfig (file : Path) (source : Option String) : Task Config := do
  let c ← Config.load file
  return { c with
    sourceRoot := pathOr source c.sourceRoot
    ignoreFiles := c.ignoreFiles ++ (file.fileName?.map Bytes.lossy).toList }

/-- Where the values of variables come from. -/
def resolver (s : Surroundings) (values : CommandLine.ValueOptions) : Variables → Resolution :=
  resolve (.ofEnvironment Defaults.environmentStart (.ofList values.set) s.environment) .lines s.input

/-- The configuration file, if it is copied. -/
def copied (file : Path) (values : CommandLine.ValueOptions) : Option Path :=
  if values.copyConfig then some file else none

/-- Tells what has been generated. -/
def sayGenerated (r : GenerateReport) : Task Unit := do
  say ("Created " ++ toString r.templated ++ " templated file(s) and " ++ toString r.static ++
    " static asset(s)")
  say ("Project generated at " ++ r.output.display)

/-- Builds a template and tells about it. -/
def build (s : Surroundings) (c : Config) (template : Path) : Task Unit := do
  let r ← buildTemplate c template s.now
  say ("Copied " ++ toString r.files ++ " file(s): " ++ toString r.templated ++ " templated, " ++
    toString r.static ++ " static")
  say ("Template written to " ++ template.display)

/-- Writes a first configuration. -/
def init (file : Path) (source : Option String) : Task Unit := do
  let source := pathOr source (.ofString ".")
  say ("Initializing scaffold config using source root " ++ source.display)
  let c ← writeStarter file source
  match c.rules.renames with
  | rule :: _ => say ("Detected project name: " ++ rule.old)
  | [] => pure ()
  say ("Config file written to " ++ file.display)

/-- A line of a summary that shows some patterns. -/
def patternLine (title : String) (patterns : List String) : String :=
  "  " ++ title ++ " (" ++ toString patterns.length ++ "): " ++ quoteList patterns

/-- The line for a variable. -/
def variableLine (name : String) (v : Variable) : String :=
  "    - " ++ name ++ " (type=" ++ v.kind ++ ", required=" ++ (if v.required then "true" else "false") ++
    ")"

/-- Sums up the configuration and what a build would take up. -/
def analyze (file : Path) : Task Unit := do
  let c ← Config.load file
  let found ← survey c
  say "Config summary:"
  say ("  SourceRoot: " ++ c.sourceRoot.display)
  say ("  TemplateRoot: " ++ c.templateRoot.display)
  say (patternLine "IgnoreFolders" c.ignoreFolders)
  say (patternLine "IgnoreFiles" c.ignoreFiles)
  say ("  StaticFiles (" ++ toString c.staticFiles.length ++ ")")
  say ("  Variables (" ++ toString c.declared.size ++ ")")
  c.declared.entries.forM fun (name, v) => say (variableLine name v)
  if 0 < found.patterns then
    say ("  Loaded " ++ toString found.patterns ++ " pattern(s) from " ++ Defaults.ignoreFile)
  say ("  Files to template: " ++ toString found.files ++ " (skipped " ++ toString found.skipped ++ ")")

/-- Generates a project from a template and tells about it. -/
def generateFrom (s : Surroundings) (file template : Path) (out : Option String)
    (values : CommandLine.ValueOptions) : Task Unit := do
  let output := pathOr out (.ofString Defaults.outputRoot)
  sayGenerated (← generate template output (resolver s values) (copied file values))

/-- Generates a project from a source tree and tells about it. -/
def run (s : Surroundings) (file : Path) (source out : Option String)
    (values : CommandLine.ValueOptions) : Task Unit := do
  let c ← loadConfig file source
  let output := pathOr out (.ofString Defaults.outputRoot)
  say ("Scaffolding from " ++ c.sourceRoot.display ++ "...")
  sayGenerated (← scaffold c output (resolver s values) (copied file values))

/-- Does what a call says. -/
def perform (s : Surroundings) (i : CommandLine.Invocation) : Task Unit := do
  let file := Path.ofString i.config
  match i.command with
  | .init source => init file source
  | .analyze => analyze file
  | .buildTemplate source output =>
    let c ← loadConfig file source
    build s c (pathOr output c.templateRoot)
  | .generate template out values =>
    generateFrom s file (pathOr template (.ofString Defaults.templateRoot)) out values
  | .run source out values => run s file source out values
  | .all template out values =>
    say "Running build-template then generate in a single step..."
    let c ← loadConfig file none
    let template := pathOr template c.templateRoot
    build s c template
    generateFrom s file template out values

/-- The name under which a part of the program logs. -/
def reporterName : Reporter → String
  | .resolver => "scaffo::resolver"
  | .walker => "scaffo::processor"
  | .generator => "scaffo::generate"

/-- A line of the log. -/
def logLine (level : String) (reporter : Reporter) (text : String) : String :=
  "[" ++ level ++ " " ++ reporterName reporter ++ "] " ++ text ++ "\n"

/-- The line of an event in the log, if it has one. -/
def logged (verbose : Bool) : Event → String
  | .warning reporter text => logLine "WARN " reporter text
  | .info reporter text => if verbose then logLine "INFO " reporter text else ""
  | _ => ""

/-- Runs a call on a disk. -/
def execute (s : Surroundings) (i : CommandLine.Invocation) (disk : Disk) : Outcome × Disk :=
  let (exitCode, reason, w) :=
    match (perform s i).run { disk } with
    | .ok () w => (0, "", w)
    | .error e w => (1, e.message ++ "\n", w)
  ({ exitCode
     output := Event.written w.events
     errors := String.join (w.events.map (logged i.verbose)) ++ reason }, w.disk)

end Program

end Stencil
