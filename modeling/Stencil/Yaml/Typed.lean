/-
  Words that a reader of plain scalars may take for something other than a text.

  Such a word is null, a truth value or a number: an integer that fits into 128 bits, in base ten,
  sixteen, eight or two; or a decimal fraction that does not round to an infinite double.  Digits behind
  a leading zero are no number, but look too much like one to be written without quotes.
-/
import Stencil.Text.Hex
import Stencil.Yaml.Node

namespace Stencil.Yaml.Typed

/-- The value of a digit in a base. -/
def digit? (base : Nat) (c : Char) : Option Nat := (hexValue? c).filter (· < base)

/-- The value of one or more digits in a base. -/
def natural? (base : Nat) (cs : List Char) : Option Nat :=
  if cs.isEmpty then none
  else cs.foldlM (fun n c => (digit? base c).map fun d => base * n + d) 0

/-- Does the text begin with a sign? -/
def isSigned (cs : List Char) : Bool := cs.head?.any fun c => c == '+' || c == '-'

/-- The text behind a plus sign, if there is one. -/
def dropPlus : List Char → List Char
  | '+' :: cs => cs
  | cs => cs

/-- Two or more digits of which the first is a zero, with or without a sign in front. -/
def isPaddedDigits (cs : List Char) : Bool :=
  match if isSigned cs then cs.drop 1 else cs with
  | '0' :: d :: ds => (d :: ds).all isDigit
  | _ => false

/-- The number that digits write in the base that their start tells. -/
def based? (cs : List Char) : Option Nat :=
  match cs with
  | '0' :: 'x' :: ds => natural? 16 ds
  | '0' :: 'o' :: ds => natural? 8 ds
  | '0' :: 'b' :: ds => natural? 2 ds
  | ds => natural? 10 ds

/-- Is it an integer? -/
def isInteger (cs : List Char) : Bool :=
  !isPaddedDigits cs &&
    match cs with
    | '-' :: ds => (based? ds).any fun n => n ≤ Nat.pow 2 127
    | cs => (based? (dropPlus cs)).any fun n => n < Nat.pow 2 128

/-- Is `digits · 10 ^ (up - down)` closer to the largest double than to infinity? -/
def isFinite (digits up down : Nat) : Bool :=
  digits * Nat.pow 10 up < (Nat.pow 2 1024 - Nat.pow 2 970) * Nat.pow 10 down

/-- Does a number with these digits, of which `fraction` stand behind the point, and this power of ten
    round to a finite double?  Numbers far from the bound are told by their length. -/
def isFiniteDecimal (digits : List Char) (fraction : Nat) (exponent : Int) : Bool :=
  let significant := digits.dropWhile (· == '0')
  let power := exponent - fraction
  let magnitude := significant.length + power
  if significant.isEmpty || magnitude < 300 then true
  else if 400 < magnitude then false
  else isFinite ((natural? 10 significant).getD 0) power.toNat (-power).toNat

/-- The power of ten at the end of a number; zero if nothing is left. -/
def exponent? : List Char → Option Int
  | [] => some 0
  | e :: cs =>
    if e = 'e' ∨ e = 'E' then
      match cs with
      | '-' :: ds => (natural? 10 ds).map fun n => -(n : Int)
      | '+' :: ds => (natural? 10 ds).map fun n => (n : Int)
      | ds => (natural? 10 ds).map fun n => (n : Int)
    else none

/-- Is it a decimal number without a sign, with a fraction or not, that rounds to a finite double? -/
def isUnsignedDecimal (cs : List Char) : Bool :=
  let whole := cs.takeWhile isDigit
  let (fraction, rest) :=
    match cs.dropWhile isDigit with
    | '.' :: ds => (ds.takeWhile isDigit, ds.dropWhile isDigit)
    | ds => ([], ds)
  !(whole ++ fraction).isEmpty &&
    (exponent? rest).any fun e => isFiniteDecimal (whole ++ fraction) fraction.length e

/-- The words for infinity and for what is no number. -/
def numberWords : List String :=
  [".inf", ".Inf", ".INF", "+.inf", "+.Inf", "+.INF", "-.inf", "-.Inf", "-.INF", ".nan", ".NaN", ".NAN"]

/-- Is it a decimal number, or one of the words that stand for one? -/
def isDecimal (s : String) : Bool :=
  numberWords.contains s ||
    isUnsignedDecimal (if isSigned s.toList then s.toList.drop 1 else s.toList)

/-- Would a plain scalar with this text be taken for something other than the text? -/
def looksTyped (s : String) : Bool :=
  s.isEmpty || Anchors.nullWords.contains s || (Anchors.truth? s).isSome || isInteger s.toList ||
    isPaddedDigits s.toList || isDecimal s

example : ["", "~", "True", "0x10", "-0b1", "+1", "007", "1e5", ".5", "1.", "-.inf"].all looksTyped := by
  decide +kernel
example : ["yes", "NaN", "1e", "0x", "1_000", "12:30", "+-1", ".", "-", "1e400"].any looksTyped = false := by
  decide +kernel

end Stencil.Yaml.Typed
