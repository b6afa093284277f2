/-
  Patterns of a configuration, and lists of them.

  A pattern is a glob.  One that is no well-formed glob is not refused: it then matches every path that
  holds its text.  White space around a pattern and slashes behind it do not count, backslashes count
  as slashes, and a pattern of which nothing is left is dropped.
-/
import Stencil.Glob.Reader
import Stencil.Text.Blank
import Stencil.Text.Segments

namespace Stencil

/-- A pattern ready for matching. -/
inductive Pattern where
  | glob (g : Glob)
  | text (part : Bytes)

namespace Pattern

/-- Reads a pattern; a blank one is none. -/
def read? (pattern : String) : Option Pattern :=
  let cs := dropTrailingSlashes (forwardSlashChars (trimChars pattern.toList))
  if cs.isEmpty then none
  else
    match Glob.read? cs with
    | some g => some (.glob g)
    | none => some (.text (Bytes.ofChars cs))

/-- Does the pattern match a path with forward slashes? -/
def matchesPath : Pattern → Bytes → Bool
  | glob g, path => g.accepts path
  | text part, path => Bytes.holds part path

end Pattern

/-- Patterns of which one has to match. -/
structure PatternSet where
  patterns : List Pattern

namespace PatternSet

/-- Reads the patterns that are not blank. -/
def read (patterns : List String) : PatternSet := ⟨patterns.filterMap Pattern.read?⟩

/-- The number of patterns. -/
def size (s : PatternSet) : Nat := s.patterns.length

/-- Does one of the patterns match the path, its backslashes counted as slashes? -/
def matchesPath (s : PatternSet) (path : String) : Bool :=
  let bytes := Bytes.ofString (forwardSlashes path)
  s.patterns.any (·.matchesPath bytes)

end PatternSet

/-- Adds to `kept` the patterns that are neither blank nor there already, without the white space
    around them. -/
def addPatterns (kept : List String) : List String → List String
  | [] => kept
  | p :: ps =>
    let p := trim p
    addPatterns (if p.isEmpty || kept.contains p then kept else kept ++ [p]) ps

/-- The patterns of two lists, each once and at its first place. -/
def mergePatterns (base more : List String) : List String := addPatterns (addPatterns [] base) more

example : mergePatterns ["a", "b"] [" b ", "", "c", "a"] = ["a", "b", "c"] := by decide +kernel
example : (PatternSet.read ["*.md"]).matchesPath "docs/README.md" = false := by decide +kernel
example : (PatternSet.read ["src/[broken"]).matchesPath "app/src/[broken/file.txt" = true := by decide +kernel

end Stencil
