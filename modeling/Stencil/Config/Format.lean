/-
  The written forms of a configuration.

  A file whose extension is `yaml` or `yml`, in letters of either case, holds YAML; every other one
  holds JSON.
-/
import Stencil.Config.Record
import Stencil.Error
import Stencil.Json.Printer
import Stencil.Json.Reader
import Stencil.Naming
import Stencil.Yaml.Document
import Stencil.Yaml.Printer

namespace Stencil.Config

/-- Does a file of this name hold YAML? -/
def isYaml (file : Path) : Bool :=
  match file.extension?.bind Bytes.toString? with
  | some extension =>
    let folded := extension.toList.map asciiLower
    folded == "yaml".toList || folded == "yml".toList
  | none => false

/-- Reads a configuration written as JSON, whose gaps are not filled. -/
def readJson? (content : String) : Option Config := (Json.read? content).bind (read? Json.reader)

/-- Reads a configuration written as YAML, whose gaps are not filled. -/
def readYaml? (content : String) : Option Config :=
  (Yaml.read? content).bind fun root => read? (Yaml.Anchors.ofRoot root).reader root

/-- Reads the content of a configuration file and fills the gaps. -/
def parse (content : String) (file : Path) : Except Error Config :=
  let (config?, fault) :=
    if isYaml file then (readYaml? content, Error.yaml) else (readJson? content, Error.json)
  match config? with
  | some c => .ok c.withDefaults
  | none => .error fault

/-- The content of the file of a configuration, whose roots have to be texts. -/
def print (c : Config) (file : Path) : Except Error String :=
  match c.toJson? with
  | some j => .ok (if isYaml file then Yaml.print j else j.pretty)
  | none => .error (if isYaml file then .yaml else .json)

end Stencil.Config
