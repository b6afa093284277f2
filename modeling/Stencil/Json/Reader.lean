/-
  Reading JSON.

  The grammar is the strict one: no comments, no trailing commas, no text behind the value, no control
  characters in strings.  Numbers are kept as they are written.

  Every call takes at least one character off the text before it calls again, or stands before a call
  that does; twice the length of the text, and one, is enough fuel.
-/
import Stencil.Json
import Stencil.Text.Hex

namespace Stencil.Json

/-- What is read off the start of a text, and the rest of the text. -/
abbrev Read (α : Type) := Option (α × List Char)

/-- Is it one of the four white space characters of JSON? -/
def isSpace (c : Char) : Bool := c == ' ' || c == '\t' || c == '\n' || c == '\r'

/-- The text without white space before it. -/
def skipSpace (cs : List Char) : List Char := cs.dropWhile isSpace

/-! ## Strings -/

/-- A character, or an escape that is half of a surrogate pair. -/
inductive StringUnit where
  | char (c : Char)
  | half (code : Nat)

/-- The value of four hexadecimal digits. -/
def hexFour? (a b c d : Char) : Option Nat := do
  return (((← hexValue? a) * 16 + (← hexValue? b)) * 16 + (← hexValue? c)) * 16 + (← hexValue? d)

/-- The unit of a code. -/
def unitOfCode (code : Nat) : StringUnit :=
  if 0xD800 ≤ code ∧ code < 0xE000 then .half code else .char (Char.ofNat code)

/-- What the character behind a backslash stands for, `u` apart. -/
def escaped? : Char → Option Char
  | '"' => some '"'
  | '\\' => some '\\'
  | '/' => some '/'
  | 'b' => some '\x08'
  | 'f' => some '\x0c'
  | 'n' => some '\n'
  | 'r' => some '\r'
  | 't' => some '\t'
  | _ => none

/-- Reads a string behind its opening quote. -/
def readUnits : List Char → Read (List StringUnit)
  | [] => none
  | '"' :: cs => some ([], cs)
  | '\\' :: 'u' :: a :: b :: c :: d :: cs =>
    (hexFour? a b c d).bind fun code =>
      (readUnits cs).map fun (units, rest) => (unitOfCode code :: units, rest)
  | '\\' :: c :: cs =>
    (escaped? c).bind fun c => (readUnits cs).map fun (units, rest) => (.char c :: units, rest)
  | c :: cs =>
    if c.toNat < 0x20 ∨ c = '\\' then none
    else (readUnits cs).map fun (units, rest) => (.char c :: units, rest)

/-- The text of the units, where the halves pair up. -/
def unitsText? : List StringUnit → Option (List Char)
  | [] => some []
  | .char c :: us => (unitsText? us).map (c :: ·)
  | .half high :: .half low :: us =>
    if high < 0xDC00 ∧ 0xDC00 ≤ low then
      let c := Char.ofNat (0x10000 + (high - 0xD800) * 0x400 + (low - 0xDC00))
      (unitsText? us).map (c :: ·)
    else none
  | .half _ :: _ => none

/-- Reads a string behind its opening quote; it is none if it is no text. -/
def readString (cs : List Char) : Read (Option String) :=
  (readUnits cs).map fun (units, rest) => ((unitsText? units).map String.ofList, rest)

/-! ## Numbers -/

/-- Is it a decimal digit? -/
def isDigit (c : Char) : Bool := '0' ≤ c && c ≤ '9'

/-- Reads one or more digits. -/
def readDigits (cs : List Char) : Read (List Char) :=
  match cs.takeWhile isDigit with
  | [] => none
  | digits => some (digits, cs.dropWhile isDigit)

/-- Reads the fraction of a number, if there is one. -/
def readFraction : List Char → Read (List Char)
  | '.' :: cs => (readDigits cs).map fun (digits, rest) => ('.' :: digits, rest)
  | cs => some ([], cs)

/-- Reads the exponent of a number, if there is one. -/
def readExponent : List Char → Read (List Char)
  | e :: cs =>
    if e = 'e' ∨ e = 'E' then
      let (sign, cs) :=
        match cs with
        | '+' :: cs => (['+'], cs)
        | '-' :: cs => (['-'], cs)
        | cs => ([], cs)
      (readDigits cs).map fun (digits, rest) => (e :: sign ++ digits, rest)
    else some ([], e :: cs)
  | [] => some ([], [])

/-- Reads the whole part of a number: a zero, or digits that do not start with one. -/
def readWhole : List Char → Read (List Char)
  | '0' :: cs =>
    match cs with
    | c :: _ => if isDigit c then none else some (['0'], cs)
    | [] => some (['0'], [])
  | cs => readDigits cs

/-- Reads a number without its sign. -/
def readUnsigned (cs : List Char) : Read (List Char) :=
  (readWhole cs).bind fun (whole, cs) =>
    (readFraction cs).bind fun (fraction, cs) =>
      (readExponent cs).map fun (exponent, cs) => (whole ++ fraction ++ exponent, cs)

/-- Reads a number. -/
def readNumber : List Char → Read (List Char)
  | '-' :: cs => (readUnsigned cs).map fun (literal, rest) => ('-' :: literal, rest)
  | cs => readUnsigned cs

/-! ## Values -/

mutual

/-- Reads a value that starts with the first character of the text. -/
def readValue : (fuel : Nat) → List Char → Read Json
  | 0, _ => none
  | _ + 1, [] => none
  | fuel + 1, c :: cs =>
    match c with
    | 'n' => ("ull".toList.isPrefixOf? cs).map fun rest => (.null, rest)
    | 't' => ("rue".toList.isPrefixOf? cs).map fun rest => (.bool true, rest)
    | 'f' => ("alse".toList.isPrefixOf? cs).map fun rest => (.bool false, rest)
    | '"' => (readString cs).map fun (s, rest) => (.string s, rest)
    | '[' =>
      match skipSpace cs with
      | ']' :: rest => some (.array [], rest)
      | cs => (readElements fuel cs).map fun (xs, rest) => (.array xs, rest)
    | '\x7b' =>
      match skipSpace cs with
      | '\x7d' :: rest => some (.object [], rest)
      | cs => (readMembers fuel cs).map fun (ms, rest) => (.object ms, rest)
    | c => (readNumber (c :: cs)).map fun (literal, rest) => (.number literal, rest)

/-- Reads one or more elements and the bracket behind them. -/
def readElements : (fuel : Nat) → List Char → Read (List Json)
  | 0, _ => none
  | fuel + 1, cs =>
    (readValue fuel cs).bind fun (x, rest) =>
      match skipSpace rest with
      | ']' :: rest => some ([x], rest)
      | ',' :: rest =>
        (readElements fuel (skipSpace rest)).map fun (xs, rest) => (x :: xs, rest)
      | _ => none

/-- Reads one or more members and the brace behind them. -/
def readMembers : (fuel : Nat) → List Char → Read (List (Option String × Json))
  | 0, _ => none
  | _ + 1, [] => none
  | fuel + 1, c :: cs =>
    if c = '"' then
      (readString cs).bind fun (name, rest) =>
        match skipSpace rest with
        | ':' :: rest =>
          (readValue fuel (skipSpace rest)).bind fun (x, rest) =>
            match skipSpace rest with
            | '\x7d' :: rest => some ([(name, x)], rest)
            | ',' :: rest =>
              (readMembers fuel (skipSpace rest)).map fun (ms, rest) => ((name, x) :: ms, rest)
            | _ => none
        | _ => none
    else none

end

/-- The value that a text writes. -/
def read? (text : String) : Option Json :=
  let cs := text.toList
  match readValue (2 * cs.length + 1) (skipSpace cs) with
  | some (j, rest) => if (skipSpace rest).isEmpty then some j else none
  | none => none

end Stencil.Json
