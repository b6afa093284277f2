/-
  Configurations: what is taken from a source tree, and how it becomes a template or a project.

  `withDefaults` completes a configuration: the delimiters are normalized, empty roots get their
  defaults, and the lists of patterns are merged behind the built-in ones.  The pipelines merge the
  lists themselves as well (`ignoreRules`, `staticGlobs`), so a configuration works either way.
-/
import Stencil.Defaults
import Stencil.Ignore
import Stencil.Naming.Rules
import Stencil.Path
import Stencil.Token
import Stencil.Variable

namespace Stencil

/-- A configuration. -/
structure Config where
  sourceRoot : Path := .ofString "."
  templateRoot : Path := .ofString Defaults.templateRoot
  delimiters : Delimiters := {}
  ignoreFolders : List String := []
  ignoreFiles : List String := []
  staticFiles : List String := []
  declared : Variables := ∅
  rules : Rules := {}
  deriving DecidableEq, Inhabited

namespace Config

/-- The path, or the default in the place of an empty one. -/
def pathOr (p : Path) (default : String) : Path := if p.text.isEmpty then .ofString default else p

/-- The folder patterns behind the built-in ones. -/
def folderPatterns (c : Config) : List String := mergePatterns Defaults.ignoreFolders c.ignoreFolders

/-- The file patterns behind the built-in ones. -/
def filePatterns (c : Config) : List String := mergePatterns Defaults.ignoreFiles c.ignoreFiles

/-- The patterns of files that are copied as they are, behind the built-in ones. -/
def staticGlobs (c : Config) : List String := mergePatterns Defaults.staticFiles c.staticFiles

/-- The configuration with its gaps filled. -/
def withDefaults (c : Config) : Config :=
  { c with
    delimiters := c.delimiters.normalized
    sourceRoot := pathOr c.sourceRoot "."
    templateRoot := pathOr c.templateRoot Defaults.templateRoot
    ignoreFolders := c.folderPatterns
    ignoreFiles := c.filePatterns
    staticFiles := c.staticGlobs }

/-- What is left out of a walk, `extra` being the patterns of the source tree's own ignore file. -/
def ignoreRules (c : Config) (extra : List String) : IgnoreRules :=
  .read c.folderPatterns c.filePatterns extra

/-- The configuration as seen from the directory of its file: relative roots start there. -/
def rootedAt (c : Config) (directory : Path) : Config :=
  { c with
    sourceRoot := directory.join c.sourceRoot
    templateRoot := directory.join c.templateRoot }

end Config

end Stencil
