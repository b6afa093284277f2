/-
  Following a path to a location.

  `locate` goes through the pieces of a path from the root or the working directory.  `..` leads to the
  directory above, and a symbolic link is followed by going on with its target, except for the last
  piece when the link itself is wanted.  At most forty links are followed.

  The answer is the location of an entry, or the free location at which the last piece could be made.
  `advance` is the recursion on the pieces; it is given what to do at a link, and `resolve` ties the
  two by recursion on the number of links that may still be followed.
-/
import Stencil.Disk
import Stencil.Fault

namespace Stencil

/-- Where a path leads. -/
inductive Place where
  /-- To an entry, or to the root. -/
  | found (loc : Location)
  /-- To a free name in a directory.  `slashed`: does a slash follow the name? -/
  | vacant (loc : Location) (slashed : Bool)
  deriving DecidableEq

namespace Disk

/-- The number of links that are followed. -/
def maxLinks : Nat := 40

/-- The length from which on a path is too long. -/
def maxPath : Nat := 4096

/-- The location at which the pieces of a path start. -/
def startOf (spelled : Bytes) (here : Location) : Location :=
  if (Path.mk spelled).isAbsolute then [] else here

/-- Goes on from a location through some pieces.  `expand` goes on behind a link. -/
def advance (d : Disk) (followLast : Bool) (expand : Location → List Bytes → Except Fault Place) :
    Location → List Bytes → Except Fault Place
  | loc, [] => .ok (.found loc)
  | loc, piece :: rest =>
    if !isDirectoryAt d.table loc then .error .notDirectory
    else if Path.isIdle piece then advance d followLast expand loc rest
    else if piece = [0x2E, 0x2E] then advance d followLast expand loc.dropLast rest
    else if 255 < piece.length then .error .nameTooLong
    else if !Path.isEntryName piece then .error .nulInPath
    else
      match d.get? (loc ++ [piece]) with
      | none =>
        if rest.all List.isEmpty then .ok (.vacant (loc ++ [piece]) (!rest.isEmpty))
        else .error .notFound
      | some (.link target) =>
        if rest.isEmpty && !followLast then .ok (.found (loc ++ [piece]))
        else expand (startOf target loc) (Path.pieces target ++ rest)
      | some _ => advance d followLast expand (loc ++ [piece]) rest

/-- Goes on from a location through some pieces, following as many links. -/
def resolve (d : Disk) (followLast : Bool) : (links : Nat) → Location → List Bytes → Except Fault Place
  | 0 => advance d followLast fun _ _ => .error .linkLoop
  | links + 1 => advance d followLast (resolve d followLast links)

/-- Where a path leads.  `followLast`: is a link at its end followed? -/
def locate (d : Disk) (followLast : Bool) (p : Path) : Except Fault Place :=
  if p.text.contains 0 then .error .nulInPath
  else if p.text.isEmpty then .error .notFound
  else if maxPath ≤ p.text.length then .error .nameTooLong
  else resolve d followLast maxLinks (startOf p.text d.here) (Path.pieces p.text)

/-- The location that a path leads to, where something lies. -/
def find (d : Disk) (followLast : Bool) (p : Path) : Except Fault Location :=
  match d.locate followLast p with
  | .ok (.found loc) => .ok loc
  | .ok (.vacant _ _) => .error .notFound
  | .error f => .error f

/-- What a path leads to, links followed. -/
def entry (d : Disk) (p : Path) : Except Fault Entry :=
  (d.find true p).bind fun loc => ((d.get? loc).map .ok).getD (.error .notFound)

/-- What a path leads to, a link at its end not followed. -/
def entryItself (d : Disk) (p : Path) : Except Fault Entry :=
  (d.find false p).bind fun loc => ((d.get? loc).map .ok).getD (.error .notFound)

/-- Does the path lead to anything? -/
def isThere (d : Disk) (p : Path) : Bool := (d.entry p).toOption.isSome

/-- Does the path lead to a directory? -/
def isDirectory (d : Disk) (p : Path) : Bool := (d.entry p).toOption.any Entry.isDirectory

/-- Does the path lead to a file? -/
def isFile (d : Disk) (p : Path) : Bool :=
  match d.entry p with
  | .ok (.file _ _) => true
  | _ => false

/-- The path of the location that a path leads to. -/
def canonical (d : Disk) (p : Path) : Except Fault Path := (d.find true p).map pathOf

/-- The location that a path leads to when it is followed piece by piece, links followed.  Here the
    spelling may have any length. -/
def reach (d : Disk) (p : Path) : Except Fault Location :=
  if p.text.contains 0 then .error .nulInPath
  else if p.text.isEmpty then .error .notFound
  else
    match resolve d true maxLinks (startOf p.text d.here) (Path.pieces p.text) with
    | .ok (.found loc) => .ok loc
    | .ok (.vacant _ _) => .error .notFound
    | .error f => .error f

/-- The path of the location that a path reaches. -/
def realPath (d : Disk) (p : Path) : Except Fault Path := (d.reach p).map pathOf

/-- The path seen from the root. -/
def absolute (d : Disk) (p : Path) : Except Fault Path :=
  match Path.absolute? (pathOf d.here) p with
  | some p => .ok p
  | none => .error .emptyPath

end Disk

end Stencil
