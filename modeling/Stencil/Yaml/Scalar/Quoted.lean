/-
  Scalars between quotes.

  Between single quotes a quote is written twice, between double ones a backslash stands before it and
  before the other escapes.  Lines are folded as in a plain scalar, whatever their indentation, but no
  line may look like the bounds of a document.
-/
import Stencil.Text.Hex
import Stencil.Yaml.Scalar

namespace Stencil.Yaml.Quoted

/-- Reads on between single quotes, behind a gap. -/
def singleFrom : Gap → Place → List Char → Option ScalarReading
  | _, _, [] => none
  | gap, place, c :: cs =>
    if isGap c then singleFrom (gap.past c) (place.past c) cs
    else if (Cursor.mk place (c :: cs)).atBoundary then none
    else if c = '\'' then
      match cs with
      | '\'' :: cs =>
        (singleFrom .empty ((place.past c).past c) cs).map (·.prepend (gap.text ++ ['\'']))
      | cs => some { text := gap.text, stop := ⟨place.past c, cs⟩ }
    else (singleFrom .empty (place.past c) cs).map (·.prepend (gap.text ++ [c]))

/-- What the character behind a backslash stands for. -/
def escaped? : Char → Option Char
  | '0' => some '\x00'
  | 'a' => some '\x07'
  | 'b' => some '\x08'
  | 't' => some '\t'
  | '\t' => some '\t'
  | 'n' => some '\n'
  | 'v' => some '\x0b'
  | 'f' => some '\x0c'
  | 'r' => some '\r'
  | 'e' => some '\x1b'
  | ' ' => some ' '
  | '"' => some '"'
  | '/' => some '/'
  | '\\' => some '\\'
  | 'N' => some '\u0085'
  | '_' => some '\u00a0'
  | 'L' => some '\u2028'
  | 'P' => some '\u2029'
  | _ => none

/-- The number of digits behind a letter that announces a code point. -/
def codeWidth? : Char → Option Nat
  | 'x' => some 2
  | 'u' => some 4
  | 'U' => some 8
  | _ => none

/-- The character with a code. -/
def charOfCode? (code : Nat) : Option Char :=
  if code < 0xD800 ∨ (0xDFFF < code ∧ code ≤ 0x10FFFF) then some (Char.ofNat code) else none

/-- Where the reader is between double quotes. -/
inductive Mode where
  /-- Behind a gap. -/
  | text (gap : Gap)
  /-- Behind a backslash. -/
  | escape
  /-- In a code point that has `more + 1` digits to come. -/
  | code (more value : Nat)

/-- Reads on between double quotes. -/
def doubleFrom : Mode → Place → List Char → Option ScalarReading
  | _, _, [] => none
  | .text gap, place, c :: cs =>
    if isGap c then doubleFrom (.text (gap.past c)) (place.past c) cs
    else if (Cursor.mk place (c :: cs)).atBoundary then none
    else if c = '"' then some { text := gap.text, stop := ⟨place.past c, cs⟩ }
    else if c = '\\' then (doubleFrom .escape (place.past c) cs).map (·.prepend gap.text)
    else (doubleFrom (.text .empty) (place.past c) cs).map (·.prepend (gap.text ++ [c]))
  | .escape, place, c :: cs =>
    if isBreak c then doubleFrom (.text (.breaks none [])) (place.past c) cs
    else
      match codeWidth? c with
      | some width => doubleFrom (.code (width - 1) 0) (place.past c) cs
      | none =>
        (escaped? c).bind fun x =>
          (doubleFrom (.text .empty) (place.past c) cs).map (·.prepend [x])
  | .code more value, place, c :: cs =>
    (hexValue? c).bind fun digit =>
      let value := 16 * value + digit
      match more with
      | more + 1 => doubleFrom (.code more value) (place.past c) cs
      | 0 =>
        (charOfCode? value).bind fun x =>
          (doubleFrom (.text .empty) (place.past c) cs).map (·.prepend [x])

/-- Reads a scalar behind its opening single quote. -/
def readSingle? (c : Cursor) : Option ScalarReading := singleFrom .empty c.place c.rest

/-- Reads a scalar behind its opening double quote. -/
def readDouble? (c : Cursor) : Option ScalarReading := doubleFrom (.text .empty) c.place c.rest

end Stencil.Yaml.Quoted
