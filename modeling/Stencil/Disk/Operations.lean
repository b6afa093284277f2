/-
  What can be done with files and directories by path.

  Reading gives a value or a fault.  An operation that changes the disk gives the new disk or a fault,
  in which case the disk is as it was; the one exception is `makeDirectories`, which keeps the
  directories that it made before it failed.
-/
import Stencil.Disk.Lookup

namespace Stencil.Disk

/-! ## Reading -/

/-- The content of a file. -/
def read (d : Disk) (p : Path) : Except Fault Bytes :=
  match d.entry p with
  | .ok (.file _ content) => .ok content
  | .ok (.directory _) => .error .isDirectory
  | .ok (.link _) => .error .linkLoop
  | .error f => .error f

/-- The content of a file that holds text. -/
def readText (d : Disk) (p : Path) : Except Fault String :=
  (d.read p).bind fun content =>
    match Bytes.toString? content with
    | some text => .ok text
    | none => .error .notText

/-- The names in a directory with the kinds of their entries, in the order of their bytes. -/
def list (d : Disk) (p : Path) : Except Fault (List (Name × Kind)) :=
  (d.find true p).bind fun loc =>
    if isDirectoryAt d.table loc then .ok (d.children loc) else .error .notDirectory

/-- The permission bits of a file or directory. -/
def mode (d : Disk) (p : Path) : Except Fault Mode :=
  match d.entry p with
  | .ok (.file mode _) => .ok mode
  | .ok (.directory mode) => .ok mode
  | .ok (.link _) => .error .linkLoop
  | .error f => .error f

/-! ## Changing -/

/-- The path without the slashes at its end, its first slash apart. -/
def withoutSlashes (p : Path) : Path :=
  let kept := (p.text.reverse.dropWhile (· == Bytes.slash)).reverse
  if kept.isEmpty then p else ⟨kept⟩

/-- Makes a directory. -/
def makeDirectory (d : Disk) (p : Path) : Except Fault Disk :=
  match d.locate false (withoutSlashes p) with
  | .ok (.found _) => .error .occupied
  | .ok (.vacant loc _) => .ok (d.put loc (.directory Entry.directoryMode))
  | .error f => .error f

/-- Makes a directory, the directories above it being given from the inside out.  Where one is missing
    those above it are made first; where it is there already nothing is done. -/
def makeDirectoriesFrom (d : Disk) : List Path → Disk × Except Fault Unit
  | [] => (d, .ok ())
  | p :: above =>
    match d.makeDirectory p with
    | .ok d => (d, .ok ())
    | .error .notFound =>
      match makeDirectoriesFrom d above with
      | (d, .error f) => (d, .error f)
      | (d, .ok ()) =>
        match d.makeDirectory p with
        | .ok d => (d, .ok ())
        | .error f => (d, if f = .occupied ∧ d.isDirectory p then .ok () else .error f)
    | .error f => (d, if f = .occupied ∧ d.isDirectory p then .ok () else .error f)

/-- The path and those above it, from the inside out, as far as they say anything. -/
def pathAndAbove : (fuel : Nat) → Path → List Path
  | 0, _ => []
  | fuel + 1, p =>
    if p.text.isEmpty then []
    else
      match p.parent? with
      | none => []
      | some above => p :: pathAndAbove fuel above

/-- Makes a directory and those above it, as far as they are missing. -/
def makeDirectories (d : Disk) (p : Path) : Disk × Except Fault Unit :=
  d.makeDirectoriesFrom (pathAndAbove p.text.length p)

/-- Where a file is written: the location, and the permission bits it has or gets.  A slash at the end,
    of the path or of the target of a link, asks for a directory. -/
def target (d : Disk) (p : Path) (newMode : Mode) : Except Fault (Location × Mode) :=
  if p.text.getLast? = some Bytes.slash then
    (d.locate false (withoutSlashes p)).bind fun _ => .error .isDirectory
  else
    match d.locate true p with
    | .error f => .error f
    | .ok (.vacant loc slashed) => if slashed then .error .isDirectory else .ok (loc, newMode)
    | .ok (.found loc) =>
      match d.get? loc with
      | some (.file mode _) => .ok (loc, mode)
      | _ => .error .isDirectory

/-- Writes a file.  One that is there keeps its permission bits. -/
def write (d : Disk) (p : Path) (content : Bytes) : Except Fault Disk :=
  (d.target p Entry.fileMode).map fun (loc, mode) => d.put loc (.file mode content)

/-- Sets the permission bits of a file. -/
def setMode (d : Disk) (p : Path) (mode : Mode) : Except Fault Disk :=
  (d.find true p).bind fun loc =>
    match d.get? loc with
    | some (.file _ content) => .ok (d.put loc (.file mode content))
    | some (.directory _) => .ok (d.put loc (.directory mode))
    | _ => .error .notFound

/-- Copies a file with its permission bits.  A file copied onto itself is emptied. -/
def copy (d : Disk) (source destination : Path) : Except Fault Disk :=
  (d.find true source).bind fun origin =>
    match d.get? origin with
    | some (.file mode content) =>
      (d.target destination mode).map fun (loc, _) =>
        d.put loc (.file mode (if loc = origin then [] else content))
    | some (.directory _) => .error .notRegular
    | _ => .error .notFound

/-- Takes away a directory with all that is in it, or a link. -/
def removeTree (d : Disk) (p : Path) : Except Fault Disk :=
  (d.find false p).bind fun loc =>
    match d.get? loc with
    | some (.directory _) => .ok (d.eraseTree loc)
    | some (.link _) => .ok (d.eraseTree loc)
    | _ => .error .notDirectory

end Stencil.Disk
