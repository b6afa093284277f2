/-
  Plain scalars.

  A plain scalar goes on over blanks and line ends, as long as its lines are indented far enough, and
  stops before a comment, a colon with a gap behind it, the bounds of a document and, in flow style,
  commas and brackets.
-/
import Stencil.Yaml.Scalar

namespace Stencil.Yaml.Plain

/-- Is the next word no part of the scalar that is being read?  `indent` is the least column of its
    lines in block style. -/
def stopsWord (inFlow : Bool) (indent : Nat) (c : Cursor) : Bool :=
  (!inFlow && c.place.column < indent) || c.atBoundary || c.rest.head? == some '#'

/-- Does the scalar end before the colon or the mark of flow style that stands here? -/
def stopsInWord (inFlow : Bool) (c : Char) (behind : List Char) : Bool :=
  (c == ':' && atGap behind) || (inFlow && isFlowMark c)

/-- Is it a colon of flow style with a mark behind it? -/
def strayColon (inFlow : Bool) (c : Char) (behind : List Char) : Bool :=
  inFlow && c == ':' && behind.head?.any fun x => isFlowMark x || x == '?'

/-- Reads on behind a gap. -/
def readFrom (inFlow : Bool) (indent : Nat) : Gap → Place → List Char → Option ScalarReading
  | gap, place, [] => some { text := [], stop := ⟨place, []⟩, newLine := gap.hasBreak }
  | gap, place, c :: cs =>
    let here : Cursor := ⟨place, c :: cs⟩
    if isGap c then
      if c == '\t' && gap.hasBreak && place.column < indent then none
      else readFrom inFlow indent (gap.past c) (place.past c) cs
    else if !gap.isEmpty && stopsWord inFlow indent here then
      some { text := [], stop := here, newLine := gap.hasBreak }
    else if strayColon inFlow c cs then none
    else if stopsInWord inFlow c cs then some { text := [], stop := here, newLine := gap.hasBreak }
    else
      (readFrom inFlow indent .empty (place.past c) cs).map (·.prepend (gap.text ++ [c]))

/-- Reads the plain scalar that starts here. -/
def read? (inFlow : Bool) (indent : Nat) (c : Cursor) : Option ScalarReading :=
  readFrom inFlow indent .empty c.place c.rest

end Stencil.Yaml.Plain
