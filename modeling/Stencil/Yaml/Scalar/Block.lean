/-
  Literal and folded scalars.

  Such a scalar is a block of lines that are indented further than what holds it.  The first line that
  is not empty, or a number at the start, sets the indentation.  In a literal scalar every line end
  counts; in a folded one a line end between two lines that do not start with a blank is a space.  What
  becomes of the line ends behind the last line is for the sign at the start to say.
-/
import Stencil.Yaml.Scalar

namespace Stencil.Yaml.Block

/-- What is kept of the line ends behind the last line. -/
inductive Chomp where
  | strip
  | clip
  | keep
  deriving DecidableEq

/-- The line ends at the end of a block: that of its last line, and those of the empty lines below. -/
def Chomp.tail (chomp : Chomp) (ended : Option Char) (below : List Char) : List Char :=
  match chomp with
  | .strip => []
  | .clip => ended.toList
  | .keep => ended.toList ++ below

/-- Where the reader is. -/
inductive Mode where
  /-- At the start of a line: the indentation of the block if it is known, the deepest column that an
      empty line came to, how the last line ended, the ends of the empty lines below it, and whether
      it started with a blank. -/
  | margin (indent : Option Nat) (deepest : Nat) (ended : Option Char) (below : List Char)
      (blankStart : Bool)
  /-- In a line. -/
  | line (indent : Nat) (blankStart : Bool)

/-- What stands in the text for the line ends between a line and the next one. -/
def between (folded : Bool) (ended : Option Char) (below : List Char) (blankStart nextBlank : Bool) :
    List Char :=
  if folded && ended == some '\n' && !blankStart && !nextBlank then
    if below.isEmpty then [' '] else below
  else ended.toList ++ below

/-- Reads on.  `least` is the least indentation that a block may have here. -/
def readFrom (folded : Bool) (chomp : Chomp) (least : Nat) :
    Mode → Place → List Char → Option ScalarReading
  | .margin _ _ ended below _, place, [] =>
    some { text := chomp.tail ended below, stop := ⟨place, []⟩ }
  | .line _ _, place, [] => some { text := [], stop := ⟨place, []⟩ }
  | .margin indent deepest ended below blankStart, place, c :: cs =>
    let inMargin := indent.all fun n => place.column < n
    if c = ' ' ∧ inMargin then
      readFrom folded chomp least (.margin indent deepest ended below blankStart) (place.past c) cs
    else if c = '\t' ∧ inMargin then none
    else
      let deepest := max deepest place.column
      if isBreak c then
        readFrom folded chomp least (.margin indent deepest ended (below ++ [c]) blankStart)
          (place.past c) cs
      else
        let indent := indent.getD (max deepest least)
        if place.column = indent then
          (readFrom folded chomp least (.line indent (isBlank c)) (place.past c) cs).map
            (·.prepend (between folded ended below blankStart (isBlank c) ++ [c]))
        else some { text := chomp.tail ended below, stop := ⟨place, c :: cs⟩ }
  | .line indent blankStart, place, c :: cs =>
    if isBreak c then
      readFrom folded chomp least (.margin (some indent) 0 (some c) [] blankStart) (place.past c) cs
    else
      (readFrom folded chomp least (.line indent blankStart) (place.past c) cs).map (·.prepend [c])

/-- The sign that tells what is kept of the last line ends. -/
def chomp? : Char → Option Chomp
  | '+' => some .keep
  | '-' => some .strip
  | _ => none

/-- The number that tells how far a block is indented. -/
def step? (c : Char) : Option Nat := if isDigit c then some (c.toNat - 48) else none

/-- Reads the signs at the start of a block, in either order; none if the number is zero. -/
def readHeader? (c : Cursor) : Option (Chomp × Option Nat × Cursor) :=
  let header :=
    match c.rest.head?.bind chomp?, c.rest.head?.bind step? with
    | some chomp, _ =>
      match (c.drop 1).rest.head?.bind step? with
      | some step => (chomp, some step, c.drop 2)
      | none => (chomp, none, c.drop 1)
    | none, some step =>
      match (c.drop 1).rest.head?.bind chomp? with
      | some chomp => (chomp, some step, c.drop 2)
      | none => (.clip, some step, c.drop 1)
    | none, none => (.clip, none, c)
  if header.2.1 = some 0 then none else some header

/-- The cursor behind the rest of a line that holds blanks and a comment, or neither. -/
def skipComment? (c : Cursor) : Option Cursor :=
  let c := c.skip isBlank
  let c := if c.rest.head? = some '#' then c.skip fun x => !isBreak x else c
  if c.rest.head?.all isBreak then some (c.drop 1) else none

/-- Reads a block behind its first character.  `parent` is the column of the collection that holds it,
    if one does. -/
def read? (folded : Bool) (parent : Option Nat) (c : Cursor) : Option ScalarReading := do
  let (chomp, step, c) ← readHeader? c
  let c ← skipComment? c
  let least := max 1 ((parent.map (· + 1)).getD 0)
  let indent := step.map fun n => parent.getD 0 + n
  readFrom folded chomp least (.margin indent 0 none [] false) c.place c.rest

end Stencil.Yaml.Block
