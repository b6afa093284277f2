/-
  The values of a YAML document, and how they are taken apart.

  Any scalar can be read as a text: its style and its tag do not matter there.  Only a plain scalar may
  say that there is no value, and a plain one without characters may stand for a list, a map or a record
  that is empty.  An alias stands for the node with its number; the last such node of the document
  counts.
-/
import Stencil.Record
import Stencil.Yaml.Scalar

namespace Stencil.Yaml

/-- What may stand in front of a node: the number of its anchor, and its tag. -/
structure Properties where
  anchor : Option Nat := none
  tag : Option String := none
  deriving DecidableEq

/-- A value. -/
inductive Node where
  | scalar (p : Properties) (s : Scalar)
  | sequence (p : Properties) (elements : List Node)
  | mapping (p : Properties) (entries : List (Node × Node))
  /-- The node whose anchor has a number. -/
  | aliasOf (number : Nat)

namespace Node

/-- The node of which nothing is written. -/
def nothing : Node := .scalar {} ⟨"", .plain⟩

mutual

/-- The nodes with anchors in a node, in the order in which they start, under their numbers. -/
def anchored : Node → List (Nat × Node)
  | scalar p s => p.anchor.toList.map fun n => (n, scalar p s)
  | sequence p xs => (p.anchor.toList.map fun n => (n, sequence p xs)) ++ anchoredElements xs
  | mapping p es => (p.anchor.toList.map fun n => (n, mapping p es)) ++ anchoredEntries es
  | aliasOf _ => []

/-- The nodes with anchors in some elements. -/
def anchoredElements : List Node → List (Nat × Node)
  | [] => []
  | x :: xs => anchored x ++ anchoredElements xs

/-- The nodes with anchors in some entries. -/
def anchoredEntries : List (Node × Node) → List (Nat × Node)
  | [] => []
  | (k, v) :: es => anchored k ++ anchored v ++ anchoredEntries es

end

end Node

/-- The nodes that aliases stand for: of two nodes with one number the later. -/
abbrev Anchors := List (Nat × Node)

namespace Anchors

/-- The anchors of a document. -/
def ofRoot (root : Node) : Anchors := root.anchored.reverse

/-- The node that an alias stands for, or the node itself. -/
def resolve (as : Anchors) : Node → Node
  | .aliasOf n => (as.lookup n).getD .nothing
  | x => x

/-! ## Words of plain scalars -/

/-- The plain scalars that say that there is no value. -/
def nullWords : List String := ["null", "Null", "NULL", "~"]

/-- The plain scalars that are truth values. -/
def truth? : String → Option Bool
  | "true" => some true
  | "True" => some true
  | "TRUE" => some true
  | "false" => some false
  | "False" => some false
  | "FALSE" => some false
  | _ => none

/-- The tag of truth values. -/
def boolTag : String := "tag:yaml.org,2002:bool"

/-- The tag of values that are not there. -/
def nullTag : String := "tag:yaml.org,2002:null"

/-! ## Values -/

/-- The text of a scalar. -/
def string? (as : Anchors) (v : Node) : Option String :=
  match as.resolve v with
  | .scalar _ s => some s.text
  | _ => none

/-- The truth value of a plain scalar, or of a literal one with the tag for it. -/
def bool? (as : Anchors) (v : Node) : Option Bool :=
  match as.resolve v with
  | .scalar p s =>
    if s.style = .plain ∨ (s.style = .literal ∧ p.tag = some boolTag) then truth? s.text else none
  | _ => none

/-- The text of a scalar, or none for a plain one that says that there is no value.  A plain scalar with
    a tag says so only if the tag does, and then it must. -/
def optionalString? (as : Anchors) (v : Node) : Option (Option String) :=
  match as.resolve v with
  | .scalar p s =>
    if s.style ≠ .plain then some (some s.text)
    else
      match p.tag with
      | some tag =>
        if tag ≠ nullTag then some (some s.text)
        else if nullWords.contains s.text then some none
        else none
      | none => some (if s.text.isEmpty || nullWords.contains s.text then none else some s.text)
  | _ => none

/-- Is nothing written of the scalar? -/
def isNothing (s : Scalar) : Bool := s.style == .plain && s.text.isEmpty

/-- The elements of a sequence. -/
def elements? (as : Anchors) (v : Node) : Option (List Node) :=
  match as.resolve v with
  | .sequence _ xs => some xs
  | .scalar _ s => if isNothing s then some [] else none
  | _ => none

/-- The entries of a mapping whose keys are scalars. -/
def members? (as : Anchors) (v : Node) : Option (List (String × Node)) :=
  match as.resolve v with
  | .mapping _ es => es.mapM fun e => (as.string? e.1).map fun name => (name, e.2)
  | .scalar _ s => if isNothing s then some [] else none
  | _ => none

/-- The known fields of a record. -/
def record? (as : Anchors) (names : List String) (v : Node) : Option (List (String × Node)) :=
  (as.members? v).bind (Record.known? names)

/-- How the values of a document are taken apart. -/
def reader (as : Anchors) : ValueReader Node where
  string? := as.string?
  bool? := as.bool?
  optionalString? := as.optionalString?
  elements? := as.elements?
  members? := as.members?
  record? := as.record?

end Anchors

end Stencil.Yaml
