/-
  Configurations as records.

  What is read here is the same for every format a configuration is written in: a `ValueReader` takes
  the values apart.  What is written is a JSON value; a format prints that value in its own way.
  Fields of a configuration, of a variable and of the delimiters may be missing; those of a
  replacement or a rename rule may not.
-/
import Stencil.Config
import Stencil.Json

namespace Stencil

variable {ν : Type}

namespace Variable

/-- Reads a variable. -/
def read? (r : ValueReader ν) (v : ν) : Option Variable := do
  let fields ← r.record? ["type", "required", "default", "description", "from", "transform"] v
  return {
    kind := ← Record.fieldOr fields "type" r.string? ""
    required := ← Record.fieldOr fields "required" r.bool? false
    default := ← Record.fieldOr fields "default" r.optionalString? none
    description := ← Record.fieldOr fields "description" r.string? ""
    derivedFrom := ← Record.fieldOr fields "from" r.optionalString? none
    transform := ← Record.fieldOr fields "transform" r.optionalString? none }

/-- The member of a text that may be missing. -/
def optionalMember (name : String) (s : Option String) : List (String × Json) :=
  match s with
  | some s => [(name, .text s)]
  | none => []

/-- Writes a variable. -/
def toJson (v : Variable) : Json :=
  .ofMembers ([("type", .text v.kind), ("required", .bool v.required)] ++
    optionalMember "default" v.default ++ [("description", .text v.description)] ++
    optionalMember "from" v.derivedFrom ++ optionalMember "transform" v.transform)

/-- Reads variables by name. -/
def readAll? (r : ValueReader ν) (v : ν) : Option Variables := do
  let entries ← (← r.members? v).mapM fun (name, v) => (read? r v).map fun x => (name, x)
  return .ofList entries

/-- Writes variables by name. -/
def allToJson (vs : Variables) : Json := .ofMembers (vs.entries.map fun (name, v) => (name, v.toJson))

end Variable

namespace Delimiters

/-- Reads delimiters. -/
def read? (r : ValueReader ν) (v : ν) : Option Delimiters := do
  let fields ← r.record? ["start", "end"] v
  let default : Delimiters := {}
  return {
    opening := ← Record.fieldOr fields "start" r.string? default.opening
    closing := ← Record.fieldOr fields "end" r.string? default.closing }

/-- Writes delimiters. -/
def toJson (d : Delimiters) : Json :=
  .ofMembers [("start", .text d.opening), ("end", .text d.closing)]

end Delimiters

namespace Replacement

/-- Reads a replacement. -/
def read? (r : ValueReader ν) (v : ν) : Option Replacement := do
  let fields ← r.record? ["find", "replaceWith"] v
  return {
    find := ← Record.field? fields "find" r.string?
    replaceWith := ← Record.field? fields "replaceWith" r.string? }

/-- Writes a replacement. -/
def toJson (r : Replacement) : Json :=
  .ofMembers [("find", .text r.find), ("replaceWith", .text r.replaceWith)]

end Replacement

namespace RenameRule

/-- Reads a rename rule. -/
def read? (r : ValueReader ν) (v : ν) : Option RenameRule := do
  let fields ← r.record? ["from", "to"] v
  return {
    old := ← Record.field? fields "from" r.string?
    new := ← Record.field? fields "to" r.string? }

/-- Writes a rename rule. -/
def toJson (r : RenameRule) : Json := .ofMembers [("from", .text r.old), ("to", .text r.new)]

end RenameRule

namespace Config

/-- Reads a configuration, whose gaps are not filled. -/
def read? (r : ValueReader ν) (v : ν) : Option Config := do
  let fields ← r.record? ["sourceRoot", "templateRoot", "token", "ignoreFolders", "ignoreFiles",
    "staticFiles", "variables", "replacements", "renameRules"] v
  let default : Config := {}
  let path? := fun v => (r.string? v).map Path.ofString
  return {
    sourceRoot := ← Record.fieldOr fields "sourceRoot" path? default.sourceRoot
    templateRoot := ← Record.fieldOr fields "templateRoot" path? default.templateRoot
    delimiters := ← Record.fieldOr fields "token" (Delimiters.read? r) default.delimiters
    ignoreFolders := ← Record.fieldOr fields "ignoreFolders" r.strings? []
    ignoreFiles := ← Record.fieldOr fields "ignoreFiles" r.strings? []
    staticFiles := ← Record.fieldOr fields "staticFiles" r.strings? []
    declared := ← Record.fieldOr fields "variables" (Variable.readAll? r) ∅
    rules := {
      replacements := ← Record.fieldOr fields "replacements" (r.list? (Replacement.read? r)) []
      renames := ← Record.fieldOr fields "renameRules" (r.list? (RenameRule.read? r)) [] } }

/-- Writes a configuration, if its roots are texts. -/
def toJson? (c : Config) : Option Json := do
  let sourceRoot ← Bytes.toString? c.sourceRoot.text
  let templateRoot ← Bytes.toString? c.templateRoot.text
  return .ofMembers [
    ("sourceRoot", .text sourceRoot),
    ("templateRoot", .text templateRoot),
    ("token", c.delimiters.toJson),
    ("ignoreFolders", .texts c.ignoreFolders),
    ("ignoreFiles", .texts c.ignoreFiles),
    ("staticFiles", .texts c.staticFiles),
    ("variables", Variable.allToJson c.declared),
    ("replacements", .array (c.rules.replacements.map Replacement.toJson)),
    ("renameRules", .array (c.rules.renames.map RenameRule.toJson))]

end Config

end Stencil
