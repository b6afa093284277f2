/-
  The description of a template, in a file at its root.

  It is written at the end of a build and read at the start of a generation: the delimiters of the
  tokens, the variables, and the patterns of the files that are copied as they are.
-/
import Stencil.Config.Record
import Stencil.Json.Printer
import Stencil.Json.Reader
import Stencil.Timestamp

namespace Stencil

/-- The description of a template. -/
structure Metadata where
  delimiters : Delimiters := {}
  declared : Variables := ∅
  staticFiles : List String := []
  generatedAt : Timestamp
  deriving DecidableEq

namespace Metadata

/-- The description of a template built from a configuration. -/
def ofConfig (c : Config) (now : Timestamp) : Metadata where
  delimiters := c.delimiters.normalized
  declared := c.declared
  staticFiles := c.staticGlobs
  generatedAt := now

/-- Reads a description. -/
def ofJson? (j : Json) : Option Metadata := do
  let r := Json.reader
  let fields ← r.record? ["token", "variables", "staticFiles", "generatedAt"] j
  let time? := fun j => (r.string? j).bind Timestamp.read?
  return {
    delimiters := ← Record.fieldOr fields "token" (Delimiters.read? r) {}
    declared := ← Record.fieldOr fields "variables" (Variable.readAll? r) ∅
    staticFiles := ← Record.fieldOr fields "staticFiles" r.strings? []
    generatedAt := ← Record.field? fields "generatedAt" time? }

/-- Writes a description. -/
def toJson (m : Metadata) : Json :=
  .ofMembers [
    ("token", m.delimiters.toJson),
    ("variables", Variable.allToJson m.declared),
    ("staticFiles", .texts m.staticFiles),
    ("generatedAt", .text m.generatedAt.toText)]

/-- The description in the text of its file, its delimiters normalized. -/
def read? (content : String) : Option Metadata :=
  ((Json.read? content).bind ofJson?).map fun m => { m with delimiters := m.delimiters.normalized }

/-- The text of the file of a description. -/
def print (m : Metadata) : String := m.toJson.pretty ++ "\n"

end Metadata

end Stencil
