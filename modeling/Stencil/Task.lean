/-
  Tasks: what a command does to the disk.

  A task runs on a disk and leaves one, and it lets events be seen.  When it fails, what it did before
  stays.
-/
import Stencil.Disk.Operations
import Stencil.Error
import Stencil.Event

namespace Stencil

/-- The disk, and what could be seen so far. -/
structure World where
  disk : Disk
  events : List Event := []

/-- What is done to the disk. -/
abbrev Task := EStateM Error World

namespace Task

/-- Reads from the disk. -/
def query {α : Type} (f : Disk → Except Fault α) : Task α := do
  match f (← get).disk with
  | .ok a => return a
  | .error fault => throw (.io fault)

/-- Looks at the disk. -/
def look {α : Type} (f : Disk → α) : Task α := do return f (← get).disk

/-- Changes the disk. -/
def change (f : Disk → Except Fault Disk) : Task Unit := do
  match f (← get).disk with
  | .ok disk => modify fun w => { w with disk }
  | .error fault => throw (.io fault)

/-- Makes a directory and those above it. -/
def makeDirectories (p : Path) : Task Unit := do
  let (disk, result) := (← get).disk.makeDirectories p
  modify fun w => { w with disk }
  match result with
  | .ok () => return ()
  | .error fault => throw (.io fault)

/-- Lets an event be seen. -/
def emit (e : Event) : Task Unit := modify fun w => { w with events := w.events ++ [e] }

end Task

end Stencil
