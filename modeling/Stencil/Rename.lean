/-
  Rename rules: how the path of a file becomes its path in the new tree.

  A rule names a path or the leading segments of one.  It never matches inside a longer segment: a
  rule for `src` renames `src/main.c` and leaves `srcs/main.c` and `app/src` alone.  Rules are tried in
  order and the first that matches is applied.
-/
import Stencil.Sorted
import Stencil.Text.Segments

namespace Stencil

/-- Leading segments and what replaces them. -/
structure RenameRule where
  old : String
  new : String
  deriving DecidableEq, Inhabited

namespace RenameRule

/-- The leading segments that the rule looks for: forward slashes, and no `./` before them. -/
def key (r : RenameRule) : List Char :=
  let cs := forwardSlashChars r.old.toList
  (['.', '/'].isPrefixOf? cs).getD cs

/-- The path by the rule, if the rule matches. -/
def renamed? (r : RenameRule) (path : List Char) : Option (List Char) :=
  if r.key.isEmpty then none
  else
    match r.key.isPrefixOf? path with
    | some [] => some (forwardSlashChars r.new.toList)
    | some ('/' :: rest) => some (forwardSlashChars r.new.toList ++ '/' :: rest)
    | _ => none

/-- The rules with the longest `old` first; among equal lengths the order stays. -/
def sortLongest (rs : List RenameRule) : List RenameRule :=
  sortBy (LongerFirst fun r => r.old.utf8ByteSize) rs

end RenameRule

/-- The path by the first rule that matches; without one it stays. -/
def renameChars (rules : List RenameRule) (path : List Char) : List Char :=
  (rules.findSome? (·.renamed? path)).getD path

/-- The path by the first rule that matches; without one it stays. -/
def rename (rules : List RenameRule) (path : String) : String :=
  String.ofList (renameChars rules path.toList)

example : rename [⟨"./src", "app"⟩] "src/main.c" = "app/main.c" := by decide
example : rename [⟨"src", "app"⟩] "srcs/main.c" = "srcs/main.c" := by decide

end Stencil
