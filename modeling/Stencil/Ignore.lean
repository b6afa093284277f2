/-
  Which entries of a source tree are left out.

  There are patterns for folders, patterns for files and extra patterns, from the project's own ignore
  file.  A folder is tested by its name and by its path.  A file is tested in the same way, and every
  folder above it is tested as a folder, so that a file in an ignored folder is ignored also where the
  folder itself was not met.  The extra patterns hold for both.
-/
import Stencil.Pattern

namespace Stencil

/-- The patterns of what is left out. -/
structure IgnoreRules where
  folders : PatternSet
  files : PatternSet
  extra : PatternSet

namespace IgnoreRules

/-- Reads the three lists of patterns. -/
def read (folders files extra : List String) : IgnoreRules :=
  ⟨.read folders, .read files, .read extra⟩

/-- Does one of the folder patterns match the last segment or the whole of a folder's path? -/
def ignoresFolder (r : IgnoreRules) (folder : List (List Char)) : Bool :=
  r.folders.matchesPath (String.ofList (folder.getLastD [])) ||
    r.folders.matchesPath (String.ofList (joinSegments folder))

/-- The paths of the folders above a path, the outermost first. -/
def foldersAbove (path : List (List Char)) : List (List (List Char)) :=
  (List.range path.length).tail.map path.take

/-- Is the entry at a relative path left out? -/
def ignores (r : IgnoreRules) (path : String) (isFolder : Bool) : Bool :=
  let path := segments (dropTrailingSlashes (forwardSlashChars path.toList))
  let name := String.ofList (path.getLastD [])
  let whole := String.ofList (joinSegments path)
  (if isFolder then r.ignoresFolder path
    else r.files.matchesPath name || r.files.matchesPath whole ||
      (foldersAbove path).any r.ignoresFolder) ||
    r.extra.matchesPath whole || r.extra.matchesPath name

end IgnoreRules

/-- The patterns in the text of an ignore file: one a line, without blank lines and comments. -/
def ignoreFilePatterns (text : String) : List String :=
  ((lines text.toList).map trimChars).filterMap fun line =>
    match line with
    | [] => none
    | '#' :: _ => none
    | line => some (String.ofList (forwardSlashChars line))

example : ignoreFilePatterns "# c\n *.pyc \n\ndocs\\x/**\n" = ["*.pyc", "docs/x/**"] := by decide +kernel
example : (IgnoreRules.read ["node_modules"] [] []).ignores "web/node_modules/x.js" false = true := by
  decide +kernel

end Stencil
