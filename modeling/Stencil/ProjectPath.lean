/-
  Paths inside a project and the places they stand for.

  Inside a tree a path is a text with slashes.  `relativePath` reads the text off a place below a root,
  `joinUnder` finds the place of a text below a root, and refuses a text that would lead out of it.
  `projectOutput` puts the name of a project in the place of the last name of the output path.
-/
import Stencil.Defaults
import Stencil.Error
import Stencil.Text.Segments
import Stencil.Token

namespace Stencil

/-- The text of each component, if all are texts. -/
def componentTexts? (cs : List Component) : Option (List String) :=
  cs.mapM fun c => Bytes.toString? c.text

/-- The path of a place below `root`, with slashes between its components. -/
def relativePath (root path : Path) : Except Error String :=
  match Path.below? root path with
  | none => .error (.invalidPath (.outside path root))
  | some steps =>
    match componentTexts? steps with
    | none => .error (.invalidPath (.notText path))
    | some texts => .ok ("/".intercalate texts)

/-- The place of the components behind `target`, all of which have to lie below `root`. -/
def placeUnder (relative : String) (root : Path) : (target : Path) → List Component → Except Error Path
  | target, [] => .ok target
  | target, c :: cs =>
    match c with
    | .normal _ => placeUnder relative root (target.push c) cs
    | .current => placeUnder relative root target cs
    | .parent => .error (.invalidPath (.leaves relative root))
    | .root => .error (.invalidPath (.leaves relative root))

/-- The place of a relative path below `root`.  Slashes before it and `.` say nothing, `..` is
    refused. -/
def joinUnder (root : Path) (relative : String) : Except Error Path :=
  let relative := String.ofList (dropLeadingSlashes relative.toList)
  placeUnder relative root root (Path.ofString relative).components

/-- The name of the project among resolved values: the first of the naming variables that is resolved,
    unless it is blank. -/
def projectName? (values : Values) : Option String :=
  (Defaults.projectNameKeys.findSome? values.get?).bind fun name =>
    if isBlank name then none else some (trim name)

/-- The output path with its last name replaced by the name of the project. -/
def projectOutput (output : Path) (values : Values) : Path :=
  match projectName? values with
  | none => output
  | some name =>
    match output.parent? with
    | some directory => directory.join (.ofString name)
    | none => .ofString name

end Stencil
