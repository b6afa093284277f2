/-
  Walking through a tree of files.

  A walk meets the entries below a root in the order of their names, a directory before what is in it.
  The names in a directory are read when the directory is met, before the visitor sees it.  Symbolic
  links are met but not followed, except for one at the root.

  `walkTree` is the walk itself, for any visitor, who says of every directory whether it is entered.
  The fuel bounds the depth; a path one level further down is longer, and paths of `Disk.maxPath`
  bytes cannot be read any more.

  `walkSource` is the walk through a source tree: what lies under some paths is passed over, and so is
  what the ignore rules leave out, which is counted.
-/
import Stencil.Ignore
import Stencil.ProjectPath
import Stencil.Task

namespace Stencil

/-- An entry met by a walk. -/
structure Sighting where
  path : Path
  kind : Kind
  deriving DecidableEq

namespace Walk

/-- The path of a name in a directory. -/
def entryPath (directory : Path) (name : Name) : Path := directory.join ⟨name⟩

/-- Walks through a listing of a directory.  The visitor gets the value of the walk so far and gives
    the new one, and whether a directory is entered; `unread` is what is done when one cannot be
    read. -/
def descend {β : Type} (visit : β → Sighting → Task (β × Bool)) (unread : β → Error → Task β) :
    (fuel : Nat) → Path → List (Name × Kind) → β → Task β
  | 0, _, _, value => return value
  | fuel + 1, directory, listing, value =>
    listing.foldlM (fun value (name, kind) => do
      let path := entryPath directory name
      let inside ← Task.look (·.list path)
      let (value, enter) ← visit value ⟨path, kind⟩
      if kind = .directory ∧ enter then
        match inside with
        | .ok listing => descend visit unread fuel path listing value
        | .error fault => unread value (.walk path fault)
      else return value) value

/-- What is in the root of a walk: its listing, or none if it is no directory. -/
def rootListing (d : Disk) (root : Path) : Except Fault (Option (List (Name × Kind))) :=
  match d.entryItself root with
  | .error fault => .error fault
  | .ok (.directory _) => (d.list root).map some
  | .ok (.file _ _) => .ok none
  | .ok (.link _) =>
    match d.entry root with
    | .error fault => .error fault
    | .ok (.directory _) => (d.list root).map some
    | .ok _ => .ok none

end Walk

/-- Walks through what lies below a root. -/
def walkTree {β : Type} (root : Path) (visit : β → Sighting → Task (β × Bool))
    (unread : β → Error → Task β) (value : β) : Task β := do
  match ← Task.look (Walk.rootListing · root) with
  | .ok (some listing) => Walk.descend visit unread Disk.maxPath root listing value
  | .ok none => return value
  | .error fault => unread value (.walk root fault)

/-- A step of a walk through a source tree.  The number is that of the entries left out so far. -/
def visitSource {β : Type} (root : Path) (skip : List Path) (rules : IgnoreRules)
    (visit : β → Sighting → String → Task β) : β × Nat → Sighting → Task ((β × Nat) × Bool)
  | (value, ignored), sighting => do
    let isFolder : Bool := sighting.kind = .directory
    if skip.any sighting.path.startsWith then return ((value, ignored), false)
    else if sighting.kind = .link && (← Task.look (·.isDirectory sighting.path)) then
      Task.emit (.warning .walker ("Skipping symlinked directory " ++ sighting.path.display))
      return ((value, ignored), false)
    else
      let relative ← ofExcept (relativePath root sighting.path)
      if rules.ignores relative isFolder then return ((value, ignored + 1), false)
      else
        let value ← visit value sighting relative
        return ((value, ignored), true)

/-- Walks through a source tree: the value after the last visit, and the number of entries left out. -/
def walkSource {β : Type} (root : Path) (skip : List Path) (rules : IgnoreRules)
    (visit : β → Sighting → String → Task β) (value : β) : Task (β × Nat) :=
  walkTree root (visitSource root skip rules visit) (fun _ e => throw e) (value, 0)

end Stencil
