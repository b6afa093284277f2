/-
  Why a command fails, and what it says then.

  Every cause ends the command.  Steps that are only tried, such as copying the configuration into a
  new project, give a warning instead.
-/
import Stencil.Fault
import Stencil.Path

namespace Stencil

/-- What is wrong with a configuration. -/
inductive ConfigProblem where
  | missing (file : Path)
  | sourceUnreachable (root : Path) (fault : Fault)
  | templateHoldsSource (root : Path)
  | other (text : String)
  deriving DecidableEq

/-- What is wrong with the description of a template. -/
inductive MetadataProblem where
  | unreadable (fault : Fault)
  /-- It is not the description of a template, or not even JSON. -/
  | malformed
  | other (text : String)
  deriving DecidableEq

/-- What is wrong with a path. -/
inductive PathProblem where
  | outside (path root : Path)
  | notText (path : Path)
  | leaves (relative : String) (root : Path)
  | other (text : String)
  deriving DecidableEq

/-- Why a command fails. -/
inductive Error where
  | io (fault : Fault)
  /-- A directory or entry met by a walk cannot be read. -/
  | walk (path : Path) (fault : Fault)
  | json
  | yaml
  | config (problem : ConfigProblem)
  | metadata (template : Path) (problem : MetadataProblem)
  | missingValue (name : String)
  | unknownSource (name source : String)
  | outputExists (output : Path)
  | prompt (reason : String)
  | invalidPath (problem : PathProblem)
  deriving DecidableEq

namespace ConfigProblem

/-- The wording of the problem. -/
def message : ConfigProblem → String
  | missing file => "configuration file '" ++ file.display ++ "' not found"
  | sourceUnreachable root fault =>
    "source root '" ++ root.display ++ "' is not accessible: " ++ fault.message
  | templateHoldsSource root => "template root '" ++ root.display ++ "' contains the source root"
  | other text => text

end ConfigProblem

namespace MetadataProblem

/-- The wording of the problem. -/
def message : MetadataProblem → String
  | unreadable fault => fault.message
  | malformed => "malformed description"
  | other text => text

end MetadataProblem

namespace PathProblem

/-- The wording of the problem. -/
def message : PathProblem → String
  | outside path root => "'" ++ path.display ++ "' is outside '" ++ root.display ++ "'"
  | notText path => "'" ++ path.display ++ "' is not valid UTF-8"
  | leaves relative root => "'" ++ relative ++ "' leaves '" ++ root.display ++ "'"
  | other text => text

end PathProblem

namespace Error

/-- What the command says. -/
def message : Error → String
  | io fault => "IO error: " ++ fault.message ++ "."
  | walk path fault =>
    "Failed to traverse directory: IO error for operation on " ++ path.display ++ ": " ++
      fault.message ++ "."
  | json => "Failed to parse JSON."
  | yaml => "Failed to parse YAML."
  | config problem => "Configuration error: " ++ problem.message ++ "."
  | metadata template problem =>
    "Template metadata in '" ++ template.display ++ "' is missing or invalid: " ++ problem.message ++
      ". Ensure you ran build-template before generate."
  | missingValue name => "Missing value for variable '" ++ name ++ "'."
  | unknownSource name source =>
    "Variable '" ++ name ++ "' depends on unknown variable '" ++ source ++ "'."
  | outputExists output => "Output path '" ++ output.display ++ "' already exists."
  | prompt reason => "Prompt error: " ++ reason ++ "."
  | invalidPath problem => "Invalid path: " ++ problem.message ++ "."

end Error

end Stencil
