/-
  The tokens of a YAML text, in order.

  In block style the column of a token opens and closes collections: a key or an element further in
  than the innermost collection opens one, and a token further out closes those that it is left of.
  Whether a scalar is a key shows only at the colon behind it.  So where a key may start its place is
  kept, and the tokens for it are put in front when its colon comes; a key is written on one line and
  within 1024 characters.

  Each step takes at least one character off the text, so its length bounds the number of steps.
-/
import Stencil.Yaml.Scalar.Plain
import Stencil.Yaml.Scalar.Quoted
import Stencil.Yaml.Token.Reader

namespace Stencil.Yaml.Token

/-- A token that may turn out to start a key. -/
structure Candidate where
  place : Place
  /-- The number of tokens before it. -/
  before : Nat
  /-- Must it be a key, because it stands where the innermost block collection has its keys? -/
  required : Bool

/-- What is known in the middle of a text. -/
structure Lexer where
  cursor : Cursor
  /-- The tokens so far, the last one first. -/
  tokens : List Token := []
  /-- The columns of the open block collections, the innermost first. -/
  columns : List Nat := []
  /-- What may start a key, outside of flow style or in its innermost bracket. -/
  candidate : Option Candidate := none
  /-- The same for the levels around it; there is one for each open bracket. -/
  around : List (Option Candidate) := []
  /-- May a key start here? -/
  keyAllowed : Bool := true

namespace Lexer

/-- Is a bracket open? -/
def inFlow (l : Lexer) : Bool := !l.around.isEmpty

/-- The lexer behind a token. -/
def push (l : Lexer) (t : Token) : Lexer := { l with tokens := t :: l.tokens }

/-- The lexer behind a token that ends at a cursor. -/
def take (l : Lexer) (t : Token) (c : Cursor) : Lexer := { l with tokens := t :: l.tokens, cursor := c }

/-- Puts tokens in front of all but the first `before` tokens. -/
def insertAt (l : Lexer) (before : Nat) (ts : List Token) : Lexer :=
  let behind := l.tokens.length - before
  { l with tokens := l.tokens.take behind ++ ts.reverse ++ l.tokens.drop behind }

/-- Closes the block collections whose columns are not of a kind. -/
def closeWhile (l : Lexer) (isLeft : Nat → Bool) : Lexer :=
  { l with
    tokens := List.replicate (l.columns.takeWhile isLeft).length .blockEnd ++ l.tokens
    columns := l.columns.dropWhile isLeft }

/-- Closes the block collections further in than a column, outside of flow style. -/
def closeBeyond (l : Lexer) (column : Nat) : Lexer :=
  if l.inFlow then l else l.closeWhile fun c => column < c

/-- Closes all block collections, outside of flow style. -/
def closeAll (l : Lexer) : Lexer := if l.inFlow then l else l.closeWhile fun _ => true

/-- Would a collection at this column be further in than the innermost one? -/
def isDeeper (l : Lexer) (column : Nat) : Bool := !l.inFlow && l.columns.head?.all fun c => c < column

/-- Opens a block collection at a column, unless there is one. -/
def openAt (l : Lexer) (column : Nat) (t : Token) : Lexer :=
  if l.isDeeper column then { l.push t with columns := column :: l.columns } else l

/-- Gives up the candidate of this level, which may not be one that must be a key. -/
def forget? (l : Lexer) : Option Lexer :=
  if l.candidate.any (·.required) then none else some { l with candidate := none }

/-- Makes the next token the candidate of this level, if a key may start here. -/
def save? (l : Lexer) : Option Lexer :=
  if l.keyAllowed then do
    let l ← l.forget?
    return { l with
      candidate := some {
        place := l.cursor.place
        before := l.tokens.length
        required := !l.inFlow && l.columns.head? == some l.cursor.place.column } }
  else some l

/-- Is a candidate too far back to be a key? -/
def isStale (here : Place) (k : Candidate) : Bool :=
  k.place.line < here.line || k.place.index + 1024 < here.index

/-- The candidate of a level, unless it is too far back.  None if it must be a key and is. -/
def fresh? (here : Place) (k : Option Candidate) : Option (Option Candidate) :=
  if k.any (isStale here) then
    if k.any (·.required) then none else some none
  else some k

/-- Gives up the candidates that are too far back. -/
def dropStale? (l : Lexer) : Option Lexer := do
  let here := l.cursor.place
  return { l with candidate := ← fresh? here l.candidate, around := ← l.around.mapM (fresh? here) }

/-! ## Between tokens -/

/-- Passes over blanks, comments and line ends.  Where a block key may start a tab is no blank. -/
def skipGapFrom (inFlow : Bool) (inComment keyAllowed : Bool) : Place → List Char → Cursor × Bool
  | place, [] => (⟨place, []⟩, keyAllowed)
  | place, c :: cs =>
    if isBreak c then skipGapFrom inFlow false (keyAllowed || !inFlow) (place.past c) cs
    else if inComment then skipGapFrom inFlow true keyAllowed (place.past c) cs
    else if c = ' ' ∨ (c = '\t' ∧ (inFlow ∨ !keyAllowed)) then
      skipGapFrom inFlow false keyAllowed (place.past c) cs
    else if c = '#' then skipGapFrom inFlow true keyAllowed (place.past c) cs
    else (⟨place, c :: cs⟩, keyAllowed)

/-- The lexer at the next token. -/
def skipGap (l : Lexer) : Lexer :=
  let (cursor, keyAllowed) :=
    skipGapFrom l.inFlow false l.keyAllowed l.cursor.place l.cursor.rest
  { l with cursor, keyAllowed }

/-! ## Tokens -/

/-- Takes the next `n` characters as a token. -/
def takeChars (l : Lexer) (n : Nat) (t : Token) : Lexer := l.take t (l.cursor.drop n)

/-- A directive. -/
def directive? (l : Lexer) : Option Lexer := do
  let l ← l.closeAll.forget?
  let (t, c) ← readDirective? (l.cursor.drop 1)
  return { l.take t c with keyAllowed := false }

/-- The bounds of a document. -/
def boundary? (l : Lexer) (t : Token) : Option Lexer := do
  let l ← l.closeAll.forget?
  return { l.takeChars 3 t with keyAllowed := false }

/-- An opening bracket. -/
def open? (l : Lexer) (t : Token) : Option Lexer := do
  let l ← l.save?
  return { l.takeChars 1 t with
    candidate := none, around := l.candidate :: l.around, keyAllowed := true }

/-- A closing bracket. -/
def close? (l : Lexer) (t : Token) : Option Lexer := do
  let l ← l.forget?
  let l := { l.takeChars 1 t with keyAllowed := false }
  return match l.around with
    | [] => l
    | candidate :: around => { l with candidate, around }

/-- A comma. -/
def comma? (l : Lexer) : Option Lexer := do
  let l ← l.forget?
  return { l.takeChars 1 .comma with keyAllowed := true }

/-- The hyphen of an element. -/
def element? (l : Lexer) : Option Lexer := do
  if !l.inFlow && !l.keyAllowed then none
  let l ← (l.openAt l.cursor.place.column .blockSequence).forget?
  return { l.takeChars 1 .element with keyAllowed := true }

/-- The question mark of a key. -/
def key? (l : Lexer) : Option Lexer := do
  if !l.inFlow && !l.keyAllowed then none
  let l ← (l.openAt l.cursor.place.column .blockMapping).forget?
  return { l.takeChars 1 .key with keyAllowed := !l.inFlow }

/-- The colon of a value. -/
def value? (l : Lexer) : Option Lexer :=
  match l.candidate with
  | some k =>
    let column := k.place.column
    let l :=
      if l.isDeeper column then
        { l.insertAt k.before [.blockMapping, .key] with columns := column :: l.columns }
      else l.insertAt k.before [.key]
    some { l.takeChars 1 .value with candidate := none, keyAllowed := false }
  | none =>
    if !l.inFlow && !l.keyAllowed then none
    else
      let l := l.openAt l.cursor.place.column .blockMapping
      some { l.takeChars 1 .value with keyAllowed := !l.inFlow }

/-- An anchor or an alias. -/
def anchor? (l : Lexer) (token : String → Token) : Option Lexer := do
  let l ← l.save?
  let (name, c) ← readAnchorName? (l.cursor.drop 1)
  return { l.take (token name) c with keyAllowed := false }

/-- A tag. -/
def tag? (l : Lexer) : Option Lexer := do
  let l ← l.save?
  let (t, c) ← readTag? l.cursor
  if !endsTag l.inFlow c.rest then none
  return { l.take (.tag t) c with keyAllowed := false }

/-- The token of what has been read of a scalar. -/
def takeScalar (l : Lexer) (style : ScalarStyle) (r : ScalarReading) : Lexer :=
  l.take (.scalar ⟨String.ofList r.text, style⟩) r.stop

/-- A literal or folded scalar. -/
def block? (l : Lexer) (style : ScalarStyle) : Option Lexer := do
  let l ← l.forget?
  let r ← Block.read? (style == .folded) l.columns.head? (l.cursor.drop 1)
  return { l.takeScalar style r with keyAllowed := true }

/-- A scalar between quotes. -/
def quoted? (l : Lexer) (style : ScalarStyle) (read? : Cursor → Option ScalarReading) :
    Option Lexer := do
  let l ← l.save?
  let r ← read? (l.cursor.drop 1)
  return { l.takeScalar style r with keyAllowed := false }

/-- A plain scalar. -/
def plain? (l : Lexer) : Option Lexer := do
  let l ← l.save?
  let r ← Plain.read? l.inFlow ((l.columns.head?.map (· + 1)).getD 0) l.cursor
  return { l.takeScalar .plain r with keyAllowed := r.newLine }

/-- May a plain scalar start with this character? -/
def startsPlain (inFlow : Bool) (c : Char) (behind : List Char) : Bool :=
  !(isGap c || isIndicator c) || (c == '-' && !behind.head?.any isBlank) ||
    (!inFlow && (c == '?' || c == ':') && !atGap behind)

/-- The next token, which starts with a character that stands where it may. -/
def token? (l : Lexer) (c : Char) (behind : List Char) : Option Lexer :=
  if l.cursor.place.column = 0 ∧ c = '%' then l.directive?
  else if l.cursor.atMark '-' then l.boundary? .documentStart
  else if l.cursor.atMark '.' then l.boundary? .documentEnd
  else if c = '[' then l.open? .flowSequence
  else if c = '\x7b' then l.open? .flowMapping
  else if c = ']' then l.close? .flowSequenceEnd
  else if c = '\x7d' then l.close? .flowMappingEnd
  else if c = ',' then l.comma?
  else if c = '-' ∧ atGap behind then l.element?
  else if c = '?' ∧ (l.inFlow ∨ atGap behind) then l.key?
  else if c = ':' ∧ (l.inFlow ∨ atGap behind) then l.value?
  else if c = '*' then l.anchor? .aliasOf
  else if c = '&' then l.anchor? .anchor
  else if c = '!' then l.tag?
  else if c = '|' ∧ !l.inFlow then l.block? .literal
  else if c = '>' ∧ !l.inFlow then l.block? .folded
  else if c = '\'' then l.quoted? .singleQuoted Quoted.readSingle?
  else if c = '"' then l.quoted? .doubleQuoted Quoted.readDouble?
  else if startsPlain l.inFlow c behind then l.plain?
  else none

/-- All tokens from here on. -/
def run : (fuel : Nat) → Lexer → Option (List Token)
  | 0, _ => none
  | fuel + 1, l => do
    let l ← l.skipGap.dropStale?
    match l.cursor.rest with
    | [] =>
      let l ← l.closeAll.forget?
      return l.tokens.reverse
    | c :: behind =>
      let l ← (l.closeBeyond l.cursor.place.column).token? c behind
      run fuel l

end Lexer

/-- The tokens of a text. -/
def ofText? (text : String) : Option (List Token) :=
  let cs := text.toList
  if !cs.all isAllowed then none
  else
    let dropMark := fun cs : List Char => if cs.head? = some byteOrderMark then cs.drop 1 else cs
    let cs := dropMark (dropMark (unifyBreaks cs))
    Lexer.run (cs.length + 1) { cursor := { rest := cs } }

end Stencil.Yaml.Token
