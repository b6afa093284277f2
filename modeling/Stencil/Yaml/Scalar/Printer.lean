/-
  Writing a text as a scalar.

  A text with line feeds is written as a literal block, any other one as a plain scalar, as far as
  that can be read back.  A plain scalar that may be taken for something else than a text, or that has
  signs of the format in it, stands between single quotes; a text with characters that are not shown,
  or with a space next to the end of a line, stands between double quotes.  No line is folded.
-/
import Stencil.Text.Hex
import Stencil.Yaml.Typed

namespace Stencil.Yaml.Scalar

/-! ## What can be written how -/

/-- Do two characters of two kinds follow each other somewhere? -/
def hasPair (first second : Char → Bool) : List Char → Bool
  | a :: b :: cs => (first a && second b) || hasPair first second (b :: cs)
  | _ => false

/-- Is it a space? -/
def isSpace (c : Char) : Bool := c == ' '

/-- Does the text start or end with a space or a break? -/
def hasBareEdge (cs : List Char) : Bool :=
  let atEdge := fun c => isSpace c || isBreak c
  cs.head?.any atEdge || cs.getLast?.any atEdge

/-- Are there characters that only an escape can write, or a space before a break? -/
def needsEscapes (cs : List Char) : Bool := !cs.all isPrintable || hasPair isSpace isBreak cs

/-- May the text stand in a block? -/
def fitsBlock (cs : List Char) : Bool := !needsEscapes cs && !cs.getLast?.any isSpace

/-- May the text stand between single quotes? -/
def fitsSingleQuotes (cs : List Char) : Bool := !needsEscapes cs && !hasPair isBreak isSpace cs

/-- Is there a colon with a gap behind it, or a number sign with a gap before it? -/
def hasInnerIndicator : List Char → Bool
  | [] => false
  | c :: cs => (c == ':' && atGap cs) || (isGap c && cs.head? == some '#') || hasInnerIndicator cs

/-- Does the text start with a sign of the format, or with the bounds of a document? -/
def startsWithIndicator : List Char → Bool
  | '-' :: '-' :: '-' :: _ => true
  | '.' :: '.' :: '.' :: _ => true
  | c :: cs => isIndicator c && (!"-?:".toList.contains c || atGap cs)
  | [] => false

/-- May the text stand without quotes, if it is not taken for something else? -/
def fitsPlain (cs : List Char) : Bool :=
  !hasBareEdge cs && fitsSingleQuotes cs && !cs.any isBreak && !startsWithIndicator cs &&
    !hasInnerIndicator cs

/-- The style in which a text is written. -/
def styleOf (s : String) : ScalarStyle :=
  let cs := s.toList
  if cs.contains '\n' then if fitsBlock cs then .literal else .doubleQuoted
  else if !Typed.looksTyped s && fitsPlain cs then .plain
  else if fitsSingleQuotes cs then .singleQuoted
  else .doubleQuoted

/-! ## The styles -/

/-- Spaces at the start of a line. -/
def margin (indent : Nat) : List Char := List.replicate indent ' '

/-- The text between single quotes, a line behind a break being indented. -/
def singleFrom (indent : Nat) : (lineStart : Bool) → List Char → List Char
  | lineStart, [] => if lineStart then margin indent else []
  | lineStart, c :: cs =>
    if isBreak c then c :: singleFrom indent true cs
    else
      (if lineStart then margin indent else []) ++ (if c = '\'' then ['\'', '\''] else [c]) ++
        singleFrom indent false cs

/-- The letter of an escape. -/
def escapeLetter? : Char → Option Char
  | '\x00' => some '0'
  | '\x07' => some 'a'
  | '\x08' => some 'b'
  | '\t' => some 't'
  | '\n' => some 'n'
  | '\x0b' => some 'v'
  | '\x0c' => some 'f'
  | '\r' => some 'r'
  | '\x1b' => some 'e'
  | '"' => some '"'
  | '\\' => some '\\'
  | '\u0085' => some 'N'
  | '\u2028' => some 'L'
  | '\u2029' => some 'P'
  | _ => none

/-- A character as the shortest escape that writes it. -/
def escape (c : Char) : List Char :=
  match escapeLetter? c with
  | some letter => ['\\', letter]
  | none =>
    let n := c.toNat
    if n ≤ 0xFF then '\\' :: 'x' :: hexDigits 2 n
    else if n ≤ 0xFFFF then '\\' :: 'u' :: hexDigits 4 n
    else '\\' :: 'U' :: hexDigits 8 n

/-- A character between double quotes. -/
def doubleChar (c : Char) : List Char :=
  if !isPrintable c || isBreak c || c == '"' || c == '\\' then escape c else [c]

/-- The lines of a block, each with its margin; an empty one has none. -/
def literalFrom (indent : Nat) : (lineStart : Bool) → List Char → List Char
  | _, [] => []
  | lineStart, c :: cs =>
    if isBreak c then c :: literalFrom indent true cs
    else (if lineStart then margin indent else []) ++ c :: literalFrom indent false cs

/-- The number at the start of a block, which is written where its first line would mislead. -/
def literalStep (cs : List Char) : List Char :=
  if cs.head?.any fun c => isSpace c || isBreak c then ['2'] else []

/-- The sign for the line ends at the end of a block. -/
def literalChomp (cs : List Char) : List Char :=
  match cs.reverse with
  | [] => ['-']
  | [c] => if isBreak c then ['+'] else ['-']
  | c :: b :: _ => if !isBreak c then ['-'] else if isBreak b then ['+'] else []

/-- The text as a scalar, whose further lines are indented. -/
def print (indent : Nat) (s : String) : List Char :=
  let cs := s.toList
  match styleOf s with
  | .plain => cs
  | .singleQuoted => '\'' :: singleFrom indent false cs ++ ['\'']
  | .doubleQuoted => '"' :: cs.flatMap doubleChar ++ ['"']
  | _ => '|' :: literalStep cs ++ literalChomp cs ++ '\n' :: literalFrom indent true cs

example : print 2 "a: 'b'" = "'a: ''b'''".toList := by decide +kernel
example : print 2 " x\ny" = "|2-\n   x\n  y".toList := by decide +kernel
example : print 2 "x \ny\u2028" = "\"x \\ny\\L\"".toList := by decide +kernel

end Stencil.Yaml.Scalar
