/-
  Reading glob patterns.

  The reader goes through the characters once.  Its state is a stack: the pieces read so far at the
  outermost level and, for every open brace, the alternatives that are complete and the pieces of the
  one being read, all latest first.  A class in brackets is read in one go by `readClass`.  A pattern
  is refused when a bracket or brace is not closed, when a brace is closed that was not opened, or
  when a range in a class runs backwards.

  Every round takes at least one character off the pattern, so its length is enough fuel.
-/
import Stencil.Glob

namespace Stencil.Glob

/-! ## Classes -/

/-- The characters of a class read so far, the latest first, as ranges.  `joining`: was the last
    character a `-` that may join two ends? -/
structure ClassState where
  ranges : List (Char × Char) := []
  joining : Bool := false

/-- The class with one more character: a new range, or the upper end of the last one. -/
def ClassState.add (st : ClassState) (c : Char) : Option ClassState :=
  match st.joining, st.ranges with
  | true, (low, _) :: rest => if c < low then none else some { ranges := (low, c) :: rest }
  | _, ranges => some { ranges := (c, c) :: ranges }

/-- Reads a class up to the bracket that closes it: its ranges in order, and what follows.  A bracket
    or a `-` that stands first is an ordinary character, and so is a `-` that stands last. -/
def readClass (first : Bool) (st : ClassState) : List Char → Option (List (Char × Char) × List Char)
  | [] => none
  | c :: cs =>
    if c = ']' && !first then
      let ranges := if st.joining then ('-', '-') :: st.ranges else st.ranges
      some (ranges.reverse, cs)
    else if c = '-' && !first && !st.joining then readClass false { st with joining := true } cs
    else (st.add c).bind fun st => readClass false st cs

/-- The ranges of bytes of a range of characters: a character beyond ASCII counts as its bytes one by
    one, and the range runs from the last byte of the low end to the first byte of the high end. -/
def byteRanges (range : Char × Char) : List (UInt8 × UInt8) :=
  let low := String.utf8EncodeChar range.1
  let high := String.utf8EncodeChar range.2
  let single (b : UInt8) := (b, b)
  if range.1 = range.2 then low.map single
  else
    low.dropLast.map single ++ [(low.getLastD 0, high.headD 0)] ++ high.tail.map single

/-- Reads a class behind its opening bracket: the piece, and what follows. -/
def readBracket (cs : List Char) : Option (Piece × List Char) :=
  let (negated, cs) :=
    match cs with
    | '!' :: rest => (true, rest)
    | '^' :: rest => (true, rest)
    | cs => (false, cs)
  (readClass true {} cs).map fun (ranges, rest) => (.oneOf negated (ranges.flatMap byteRanges), rest)

/-! ## Patterns -/

/-- What is read at one level: the complete alternatives and the pieces of the current one, the latest
    first. -/
structure Level where
  done : List (List Piece) := []
  current : List Piece := []

/-- The levels around the reader: the innermost and those outside it. -/
structure Levels where
  inner : Level := {}
  outer : List Level := []

namespace Levels

/-- Is the reader inside a brace? -/
def inBraces (ls : Levels) : Bool := !ls.outer.isEmpty

/-- One more piece. -/
def push (ls : Levels) (p : Piece) : Levels :=
  { ls with inner := { ls.inner with current := p :: ls.inner.current } }

/-- A brace opens. -/
def enter (ls : Levels) : Levels := { inner := {}, outer := ls.inner :: ls.outer }

/-- The next alternative begins. -/
def next (ls : Levels) : Levels :=
  { ls with inner := { done := ls.inner.current.reverse :: ls.inner.done } }

/-- A brace closes. -/
def leave? (ls : Levels) : Option Levels :=
  match ls.outer with
  | [] => none
  | level :: outer =>
    let alternatives := (ls.inner.current.reverse :: ls.inner.done).reverse
    let piece := Piece.branches (alternatives.filter fun ps => !isVoid ps)
    some { inner := { level with current := piece :: level.current }, outer }

/-- `**` behind a slash takes the place of the piece before it, unless that is a `**` at the start or
    at the end already. -/
def absorb (ls : Levels) (p : Piece) : Levels :=
  match ls.inner.current with
  | .leading :: _ => ls
  | .trailing :: _ => ls
  | current => { ls with inner := { ls.inner with current := p :: current.tail } }

/-- Reads `**`, behind which `cs` follows and before which `before` stands: the levels, whether a slash
    was read with it, and what follows. -/
def readStars (ls : Levels) (before : Option Char) (cs : List Char) : Levels × Bool × List Char :=
  let twoRuns := ((ls.push .run).push .run, false, cs)
  if ls.inner.current.isEmpty then
    match cs with
    | [] => (ls.push .leading, false, [])
    | '/' :: rest => (ls.push .leading, true, rest)
    | _ => twoRuns
  else if before != some '/' && !(ls.inBraces && (before == some ',' || before == some '\x7b')) then
    twoRuns
  else
    match cs with
    | [] => (ls.absorb .trailing, false, [])
    | '/' :: rest => (ls.absorb .between, true, rest)
    | c :: _ =>
      if ls.inBraces && (c = ',' || c = '\x7d') then (ls.absorb .trailing, false, cs) else twoRuns

end Levels

/-- Reads the rest of a pattern; `before` is the character that stands before it. -/
def readFrom : (fuel : Nat) → Levels → (before : Option Char) → List Char → Option (List Piece)
  | _, ls, _, [] => if ls.inBraces then none else some ls.inner.current.reverse
  | 0, _, _, _ :: _ => none
  | fuel + 1, ls, before, c :: cs =>
    match c with
    | '?' => readFrom fuel (ls.push .one) (some c) cs
    | '*' =>
      match cs with
      | '*' :: cs =>
        let (ls, slash, rest) := ls.readStars before cs
        readFrom fuel ls (some (if slash then '/' else '*')) rest
      | cs => readFrom fuel (ls.push .run) (some c) cs
    | '[' => (readBracket cs).bind fun (p, rest) => readFrom fuel (ls.push p) (some ']') rest
    | '\x7b' => readFrom fuel ls.enter (some c) cs
    | '\x7d' => ls.leave?.bind fun ls => readFrom fuel ls (some c) cs
    | ',' =>
      if ls.inBraces then readFrom fuel ls.next (some c) cs
      else readFrom fuel (ls.push (.char ',')) (some c) cs
    | c => readFrom fuel (ls.push (.char c)) (some c) cs

/-- The glob that a pattern writes, if it is well formed. -/
def read? (pattern : List Char) : Option Glob :=
  (readFrom pattern.length {} none pattern).map fun pieces => ⟨pieces⟩

end Stencil.Glob
