/-
  Paths of files, as they are spelled.

  A path is bytes: names between slashes.  `components` is what the spelling says: a leading slash, a
  leading `.`, `..` and names; repeated slashes and other `.` say nothing.  What is compared (`startsWith`,
  `below?`, `fileName?`) is compared by components, what is shown and passed on (`parent?`, `join`) keeps
  the spelling.

  `..` is a component like any other here: only the directories on a disk can tell where it leads.
-/
import Stencil.Text.Bytes

namespace Stencil

/-- The name of an entry in a directory. -/
abbrev Name := Bytes

/-- A path as it is spelled. -/
structure Path where
  text : Bytes
  deriving DecidableEq, Inhabited

/-- What a path says, step by step. -/
inductive Component where
  | root
  | current
  | parent
  | normal (name : Name)
  deriving DecidableEq

namespace Component

/-- How a component is written. -/
def text : Component → Bytes
  | root => [Bytes.slash]
  | current => [0x2E]
  | parent => [0x2E, 0x2E]
  | normal name => name

end Component

namespace Path

/-- The path that a text spells. -/
def ofString (s : String) : Path := ⟨Bytes.ofString s⟩

/-- The path as it is shown; bytes that are no text are shown as U+FFFD. -/
def display (p : Path) : String := Bytes.lossy p.text

/-- The pieces between the slashes of some bytes. -/
def pieces (bs : Bytes) : List Bytes := bs.splitOn Bytes.slash

/-- Does a piece say nothing? -/
def isIdle (piece : Bytes) : Bool := piece == [] || piece == [0x2E]

/-- Can an entry of a directory have this name? -/
def isEntryName (name : Bytes) : Bool :=
  !isIdle name && name != [0x2E, 0x2E] && !name.contains Bytes.slash && !name.contains 0 &&
    name.length ≤ 255

/-- What a piece says behind the start of a path. -/
def component? (piece : Bytes) : Option Component :=
  if isIdle piece then none
  else if piece = [0x2E, 0x2E] then some .parent
  else some (.normal piece)

/-- Does the path start with a slash? -/
def isAbsolute (p : Path) : Bool := p.text.head? == some Bytes.slash

/-- What a path starts with: a slash, a `.` that is its first piece, or neither. -/
def anchor (p : Path) : Bytes :=
  if p.isAbsolute then [Bytes.slash]
  else if (pieces p.text).head? = some [0x2E] then [0x2E]
  else []

/-- What a path says. -/
def components (p : Path) : List Component :=
  (if p.isAbsolute then [.root]
    else if (pieces p.text).head? = some [0x2E] then [.current]
    else []) ++
  (pieces p.text).filterMap component?

/-- The path without its last component, if there is one other than a leading slash. -/
def parent? (p : Path) : Option Path :=
  match ((pieces (p.text.drop p.anchor.length)).reverse.dropWhile isIdle) with
  | _ :: before =>
    some ⟨p.anchor ++ List.intercalate [Bytes.slash] (before.dropWhile isIdle).reverse⟩
  | [] => if p.anchor = [0x2E] then some ⟨[]⟩ else none

/-- The parent, where it says anything. -/
def directory? (p : Path) : Option Path := p.parent?.filter fun d => !d.text.isEmpty

/-- The last component, if it is a name. -/
def fileName? (p : Path) : Option Name :=
  match p.components.getLast? with
  | some (.normal name) => some name
  | _ => none

/-- What follows the last dot of a file's name, if something stands before that dot. -/
def extension? (p : Path) : Option Bytes :=
  p.fileName?.bind fun name =>
    let behind := (name.reverse.takeWhile (· != 0x2E)).reverse
    let before := name.take (name.length - behind.length - 1)
    if behind.length < name.length && !before.isEmpty then some behind else none

/-- The path `q` as seen from `p`: behind `p`, or `q` itself if it starts with a slash. -/
def join (p q : Path) : Path :=
  if q.isAbsolute then q
  else if p.text.isEmpty || p.text.getLast? == some Bytes.slash then ⟨p.text ++ q.text⟩
  else ⟨p.text ++ Bytes.slash :: q.text⟩

/-- The path of a component as seen from `p`. -/
def push (p : Path) (c : Component) : Path := p.join ⟨c.text⟩

/-- The components of `p` behind those of `base`. -/
def below? (base p : Path) : Option (List Component) :=
  base.components.isPrefixOf? p.components

/-- Does the path start with the components of `base`? -/
def startsWith (p base : Path) : Bool := (below? base p).isSome

/-- The path seen from the root, a relative one lying in the directory `here`.  `..` stays, a slash at
    the end stays, and so do exactly two slashes at the start.  The empty path has none. -/
def absolute? (here p : Path) : Option Path :=
  if p.text.isEmpty then none
  else
    let twoSlashes := p.text.take 2 == [Bytes.slash, Bytes.slash] && p.text[2]? != some Bytes.slash
    let steps := p.components.filter (· != .current)
    let (start, steps) :=
      if twoSlashes then (⟨[Bytes.slash, Bytes.slash]⟩, steps.tail)
      else if p.isAbsolute then (⟨[]⟩, steps)
      else (here, steps)
    let whole := steps.foldl push start
    some (if p.text.getLast? == some Bytes.slash then whole.join ⟨[]⟩ else whole)

example : (ofString "./a//b/./c/").components =
    [.current, .normal [97], .normal [98], .normal [99]] := by decide
example : (ofString "a//b/c").parent? = some (ofString "a//b") := by decide
example : (ofString "//a").parent? = some (ofString "/") := by decide
example : (ofString ".").parent? = some (ofString "") ∧ (ofString "/").parent? = none := by decide
example : (ofString "a.b.yml").extension? = some (Bytes.ofString "yml") ∧
    (ofString ".yml").extension? = none := by decide
example : absolute? (ofString "/w") (ofString "./a/../b/") = some (ofString "/w/a/../b/") := by decide

end Path

end Stencil
