/-
  Places in a text.

  The indentation of a line has a meaning, so a place knows its line and its column, both from zero,
  and how many characters stand before it.
-/
import Stencil.Yaml.Characters

namespace Stencil.Yaml

/-- A place in a text. -/
structure Place where
  index : Nat := 0
  line : Nat := 0
  column : Nat := 0
  deriving DecidableEq

/-- The place behind a character. -/
def Place.past (p : Place) (c : Char) : Place :=
  if isBreak c then { index := p.index + 1, line := p.line + 1, column := 0 }
  else { p with index := p.index + 1, column := p.column + 1 }

/-- A place, and the text from there on. -/
structure Cursor where
  place : Place := {}
  rest : List Char

namespace Cursor

/-- The cursor behind the next `n` characters. -/
def drop : Nat → Cursor → Cursor
  | 0, c => c
  | n + 1, c =>
    match c.rest with
    | [] => c
    | x :: xs => drop n ⟨c.place.past x, xs⟩

/-- The cursor behind some characters that the text begins with. -/
def past (c : Cursor) (passed : List Char) : Cursor := c.drop passed.length

/-- The characters of a class that the text begins with, and the cursor behind them. -/
def span (c : Cursor) (keep : Char → Bool) : List Char × Cursor :=
  let passed := c.rest.takeWhile keep
  (passed, c.past passed)

/-- The cursor behind the characters of a class. -/
def skip (c : Cursor) (keep : Char → Bool) : Cursor := (c.span keep).2

/-- Does a line with a mark of the bounds of documents, three times the same character and then a gap,
    start here? -/
def atMark (c : Cursor) (mark : Char) : Bool :=
  c.place.column == 0 &&
    match c.rest with
    | x :: y :: z :: rest => x == mark && y == mark && z == mark && atGap rest
    | _ => false

/-- Does the end of a document, or the start of one, stand here? -/
def atBoundary (c : Cursor) : Bool := c.atMark '-' || c.atMark '.'

end Cursor

end Stencil.Yaml
