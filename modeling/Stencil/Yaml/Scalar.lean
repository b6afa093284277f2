/-
  Scalars: texts in one of five styles.

  The readers of all styles go over the text character by character.  What they have read of a gap
  between two words, and not yet made a part of the text, is a `Gap`: blanks count as they are, but
  around the end of a line they do not, and a single line feed counts as a space.
-/
import Stencil.Yaml.Cursor

namespace Stencil.Yaml

/-- The ways to write a scalar. -/
inductive ScalarStyle where
  | plain
  | singleQuoted
  | doubleQuoted
  | literal
  | folded
  deriving DecidableEq

/-- A scalar: its text and how it is written. -/
structure Scalar where
  text : String
  style : ScalarStyle
  deriving DecidableEq

/-- The part of a scalar that is read, where it stops, and whether a line ended before that place. -/
structure ScalarReading where
  text : List Char
  stop : Cursor
  newLine : Bool := false

/-- The reading whose text has some characters in front. -/
def ScalarReading.prepend (front : List Char) (r : ScalarReading) : ScalarReading :=
  { r with text := front ++ r.text }

/-- A gap between words. -/
inductive Gap where
  /-- Blanks on one line. -/
  | blanks (cs : List Char)
  /-- The first break, unless it is escaped, and all further ones. -/
  | breaks (first : Option Char) (more : List Char)

namespace Gap

/-- No gap. -/
def empty : Gap := .blanks []

/-- Is there no gap? -/
def isEmpty : Gap → Bool
  | blanks [] => true
  | _ => false

/-- Does a line end in the gap? -/
def hasBreak : Gap → Bool
  | blanks _ => false
  | breaks _ _ => true

/-- The gap that has one more character of a gap at its end. -/
def past (g : Gap) (c : Char) : Gap :=
  match g with
  | blanks cs => if isBreak c then breaks (some c) [] else blanks (cs ++ [c])
  | breaks first more => if isBreak c then breaks first (more ++ [c]) else breaks first more

/-- What the gap is in the text. -/
def text : Gap → List Char
  | blanks cs => cs
  | breaks (some '\n') [] => [' ']
  | breaks (some '\n') more => more
  | breaks first more => first.toList ++ more

end Gap

end Stencil.Yaml
