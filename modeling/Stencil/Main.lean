/-
  The program on a real disk.

  What a call may look at is read into a `Disk` first: all that lies below the working directory, and
  what lies where the arguments and the configuration point to.  Then the call runs on that disk, and
  what it changed there is written back.  A link is taken up with the path that it leads to in the end,
  and files and directories count as having the usual permission bits.
-/
import Stencil.CommandLine.Reader
import Stencil.Program

namespace Stencil.Main

/-- A path from the working directory. -/
def located (p : String) := do return (← IO.currentDir) / p

/-- Reads a file. -/
def readBytes (p : String) : IO Bytes := return (← IO.FS.readBinFile p).toList

/-- The location of a path from the root. -/
def locationOf (p : String) : Location :=
  (Path.pieces (Bytes.ofString p)).filter fun piece => !Path.isIdle piece

/-- Takes up the entry at a path from the root and, if it is a directory and `deep`, what lies below. -/
partial def takeUp (deep : Bool) (d : Disk) (p : String) : IO Disk := do
  let here ← located p
  let loc := locationOf p
  match (← here.symlinkMetadata).type with
  | .dir =>
    let d := d.put loc (.directory Entry.directoryMode)
    if !deep then return d
    (← here.readDir).foldlM (fun d e => takeUp true d e.path.toString) d
  | .symlink =>
    let target ← try IO.FS.realPath here catch _ => pure here
    return d.put loc (.link (Bytes.ofString target.toString))
  | .file => return d.put loc (.file Entry.fileMode (← readBytes p))
  | .other => return d

/-- The paths that lead to a path from the root: the directories above it, and itself. -/
def waysTo (p : String) : List String :=
  let loc := locationOf p
  (List.range loc.length).map fun n => (Disk.pathOf (loc.take (n + 1))).display

/-- Takes up what lies at a path and on the way there, as far as there is anything. -/
def takeUpAll (d : Disk) (p : String) : IO Disk := do
  let absolute := (← located p).toString
  let whole ← try pure (← IO.FS.realPath absolute).toString catch _ => pure absolute
  let d ← ((waysTo absolute) ++ (waysTo whole)).foldlM
    (fun d way => try takeUp false d way catch _ => pure d) d
  try takeUp true d whole catch _ => pure d

/-- The paths that a call names. -/
def namedPaths (i : CommandLine.Invocation) : List String :=
  i.config ::
    match i.command with
    | .init source => source.toList
    | .analyze => []
    | .buildTemplate source output => source.toList ++ output.toList
    | .generate template out _ => template.toList ++ out.toList
    | .run source out _ => source.toList ++ out.toList
    | .all template out _ => template.toList ++ out.toList

/-- The roots that the configuration of a call names, if it can be loaded. -/
def configuredPaths (d : Disk) (i : CommandLine.Invocation) : List String :=
  match (Config.load (.ofString i.config)).run { disk := d } with
  | .ok c _ => [c.sourceRoot.display, c.templateRoot.display]
  | .error _ _ => []

/-- The disk as far as a call may look at it. -/
def takeUpFor (i : CommandLine.Invocation) : IO Disk := do
  let here := (← IO.FS.realPath (← IO.currentDir)).toString
  let d ← (here :: namedPaths i).foldlM takeUpAll Disk.empty
  let d ← (configuredPaths d i).foldlM takeUpAll d
  let loc := locationOf here
  return if h : Disk.isProper loc = true then { d with here := loc, hereProper := h } else d

/-- Writes an entry. -/
def writeEntry (loc : Location) (e : Entry) : IO Unit := do
  let p := (Disk.pathOf loc).display
  match e with
  | .directory _ => IO.FS.createDirAll p
  | .file _ content => IO.FS.writeBinFile p ⟨content.toArray⟩
  | .link _ => pure ()

/-- Takes an entry away. -/
def removeEntry (loc : Location) (e : Entry) : IO Unit := do
  let p := (Disk.pathOf loc).display
  if e.isDirectory then IO.FS.removeDir p else IO.FS.removeFile p

/-- Writes back what has changed: what is gone goes first, the deepest of it before the rest. -/
def writeBack (before after : Disk) : IO Unit := do
  for (loc, e) in sortBy (fun a b => b.1.length ≤ a.1.length) before.table do
    if (after.get? loc).isNone then removeEntry loc e
  for (loc, e) in sortBy (fun a b => a.1.length ≤ b.1.length) after.table do
    if before.get? loc ≠ some e then writeEntry loc e

/-- All of the input. -/
partial def readInput (input : IO.FS.Stream) : IO Bytes := do
  let part ← input.read 65536
  if part.isEmpty then return [] else return part.toList ++ (← readInput input)

/-- Does the command ask questions? -/
def asks : CommandLine.Command → Bool
  | .generate _ _ _ | .run _ _ _ | .all _ _ _ => true
  | _ => false

/-- Where the environment of the process is kept. -/
def environmentFile : String := "/proc/self/environ"

/-- The environment: texts `name=value`, each ended by a zero. -/
def readEnvironment : IO (NameMap Bytes) := do
  let settings := (← readBytes environmentFile).splitOn 0
  return .ofList (settings.map fun s =>
    (Bytes.lossy (s.takeWhile (· != 0x3D)), (s.dropWhile (· != 0x3D)).drop 1))

/-- What a call is given besides its arguments.  Its time is that of the file with its environment. -/
def surroundingsFor (command : CommandLine.Command) : IO Surroundings := do
  let time := (← (← located environmentFile).metadata).modified
  let stdin ← IO.getStdin
  let input ← if !asks command || (← stdin.isTty) then pure [] else readInput stdin
  return { now := ⟨time.sec, time.nsec.toNat⟩, environment := ← readEnvironment, input }

/-- Runs a call. -/
def perform (i : CommandLine.Invocation) : IO UInt32 := do
  let before ← takeUpFor i
  let (outcome, after) := Program.execute (← surroundingsFor i.command) i before
  writeBack before after
  IO.print outcome.output
  IO.eprint outcome.errors
  return outcome.exitCode.toUInt32

end Stencil.Main

/-- The program. -/
def main (args : List String) : IO UInt32 := do
  match Stencil.CommandLine.read args with
  | .ok i => Stencil.Main.perform i
  | .error e =>
    IO.eprintln e.message
    return e.exitCode
