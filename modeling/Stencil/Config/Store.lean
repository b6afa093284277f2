/-
  Configurations in files.
-/
import Stencil.Config.Format
import Stencil.Task

namespace Stencil.Config

/-- Loads a configuration.  Its relative roots start at the directory of the file. -/
def load (file : Path) : Task Config := do
  if !(← Task.look (·.isFile file)) then throw (.config (.missing file))
  let content ← Task.query (·.readText file)
  let config ← ofExcept (parse content file)
  return match file.directory? with
    | some directory => config.rootedAt directory
    | none => config

/-- Saves a configuration, making the directories above its file. -/
def save (c : Config) (file : Path) : Task Unit := do
  match file.directory? with
  | some directory => Task.makeDirectories directory
  | none => pure ()
  let content ← ofExcept (c.print file)
  Task.change (·.write file (Bytes.ofString content))

/-- The root of the source tree as the disk knows it. -/
def canonicalSource (c : Config) : Task Path := do
  match (← Task.look (·.realPath c.sourceRoot)) with
  | .ok root => return root
  | .error fault => throw (.config (.sourceUnreachable c.sourceRoot fault))

/-- The patterns in the ignore file of a source tree; there are none if it cannot be read. -/
def readIgnoreFile (d : Disk) (root : Path) : List String :=
  match d.readText (root.join (.ofString Defaults.ignoreFile)) with
  | .ok text => ignoreFilePatterns text
  | .error _ => []

end Stencil.Config
