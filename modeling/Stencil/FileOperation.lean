/-
  Writing one entry of the output tree.

  A static file is copied byte for byte: one that matches a static pattern or looks binary, having a
  zero byte near its start.  Every other file is read, rendered and written.  Either way the new file
  gets the permission bits of its source, and the directories above it are made.
-/
import Stencil.Defaults
import Stencil.Pattern
import Stencil.Task

namespace Stencil

/-- Does the file have a zero byte near its start? -/
def looksBinary (d : Disk) (p : Path) : Except Fault Bool :=
  (d.read p).map fun content => (content.take Defaults.sniffedBytes).any (· == 0)

/-- Is the file copied as it is? -/
def isStatic (relative : String) (p : Path) (globs : PatternSet) (d : Disk) : Except Fault Bool :=
  if globs.matchesPath relative then .ok true else looksBinary d p

/-- One write to the output tree. -/
inductive FileOperation where
  | directory (target : Path)
  | copy (source target : Path)
  | write (source target : Path) (content : Bytes)

namespace FileOperation

/-- The operation for a file. -/
def forFile (source target : Path) (static : Bool) (render : Bytes → Bytes) : Task FileOperation :=
  if static then return .copy source target
  else return .write source target (render (← Task.query (·.read source)))

/-- The path that is written to. -/
def target : FileOperation → Path
  | directory target => target
  | copy _ target => target
  | write _ target _ => target

/-- Makes the directories above a path. -/
def makeParent (p : Path) : Task Unit :=
  match p.parent? with
  | some parent => Task.makeDirectories parent
  | none => return ()

/-- Carries out the operation. -/
def execute : FileOperation → Task Unit
  | directory target => Task.makeDirectories target
  | copy source target => do
    makeParent target
    Task.change (·.copy source target)
  | write source target content => do
    makeParent target
    Task.change (·.write target content)
    Task.change fun d => (d.mode source).bind (d.setMode target)

end FileOperation

end Stencil
