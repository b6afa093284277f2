/-
  Points in time, written as in RFC 3339.

  A point in time is a number of seconds from the start of 1970 in universal time, and a fraction.  In
  the last second of a day the fraction may reach beyond one second: that is a leap second.

  Writing gives a date, `T`, a time, as many groups of three digits of the fraction as are needed, and
  `Z`.  Reading is more liberal: a `t` or a space between date and time, white space between the
  parts, short numbers, more digits than are kept, and any offset, which is taken off.
-/
import Stencil.Text.Blank

namespace Stencil

/-- A point in time. -/
structure Timestamp where
  /-- Seconds from the start of 1970. -/
  seconds : Int
  /-- Billionths of a second; from a whole one on, a leap second. -/
  nanos : Nat
  deriving DecidableEq, Inhabited

namespace Timestamp

/-! ## Days and dates -/

/-- A day of the calendar. -/
structure Date where
  year : Int
  month : Nat
  day : Nat
  deriving DecidableEq

/-- Has the year a 29th of February? -/
def isLeapYear (year : Int) : Bool := year % 4 == 0 && (year % 100 != 0 || year % 400 == 0)

/-- The number of days of a month. -/
def daysInMonth (year : Int) (month : Nat) : Nat :=
  if month = 2 then (if isLeapYear year then 29 else 28)
  else if month = 4 ∨ month = 6 ∨ month = 9 ∨ month = 11 then 30
  else 31

/-- The years that are told. -/
def isYear (year : Int) : Bool := -262143 ≤ year && year ≤ 262142

/-- Is it a day of the calendar? -/
def Date.isValid (d : Date) : Bool :=
  isYear d.year && 1 ≤ d.month && d.month ≤ 12 && 1 ≤ d.day && d.day ≤ daysInMonth d.year d.month

/-- The number of days from the start of 1970 to a date.  Years are counted from March here, so that
    the leap day comes last. -/
def Date.number (d : Date) : Int :=
  let year := if d.month ≤ 2 then d.year - 1 else d.year
  let month : Int := if d.month ≤ 2 then d.month + 9 else d.month - 3
  let era := year / 400
  let yearOfEra := year % 400
  let dayOfYear := (153 * month + 2) / 5 + d.day - 1
  let dayOfEra := yearOfEra * 365 + yearOfEra / 4 - yearOfEra / 100 + dayOfYear
  era * 146097 + dayOfEra - 719468

/-- The date at a number of days from the start of 1970. -/
def Date.ofNumber (n : Int) : Date :=
  let shifted := n + 719468
  let era := shifted / 146097
  let dayOfEra := shifted % 146097
  let yearOfEra := (dayOfEra - dayOfEra / 1460 + dayOfEra / 36524 - dayOfEra / 146096) / 365
  let dayOfYear := dayOfEra - (365 * yearOfEra + yearOfEra / 4 - yearOfEra / 100)
  let month := (5 * dayOfYear + 2) / 153
  let day := dayOfYear - (153 * month + 2) / 5 + 1
  let month := if month < 10 then month + 3 else month - 9
  let year := yearOfEra + era * 400
  { year := if month ≤ 2 then year + 1 else year, month := month.toNat, day := day.toNat }

/-! ## Writing -/

/-- The digits of a number, with zeros before it up to a width. -/
def padded (width n : Nat) : List Char :=
  let digits := Nat.toDigits 10 n
  List.replicate (width - digits.length) '0' ++ digits

/-- A year: four digits, or a sign and at least four digits. -/
def yearChars (year : Int) : List Char :=
  if 0 ≤ year ∧ year ≤ 9999 then padded 4 year.toNat
  else (if year < 0 then '-' else '+') :: padded 4 year.natAbs

/-- The fraction of a second: none, or three, six or nine digits. -/
def fractionChars (nanos : Nat) : List Char :=
  if nanos = 0 then []
  else if nanos % 1000000 = 0 then '.' :: padded 3 (nanos / 1000000)
  else if nanos % 1000 = 0 then '.' :: padded 6 (nanos / 1000)
  else '.' :: padded 9 nanos

/-- The text of a point in time. -/
def toText (t : Timestamp) : String :=
  let date := Date.ofNumber (t.seconds / 86400)
  let second := (t.seconds % 86400).toNat
  let leap := 1000000000 ≤ t.nanos
  String.ofList (
    yearChars date.year ++ '-' :: padded 2 date.month ++ '-' :: padded 2 date.day ++
    'T' :: padded 2 (second / 3600) ++ ':' :: padded 2 (second / 60 % 60) ++
    ':' :: padded 2 (second % 60 + if leap then 1 else 0) ++
    fractionChars (if leap then t.nanos - 1000000000 else t.nanos) ++ ['Z'])

/-! ## Reading -/

/-- Is it a decimal digit? -/
def isDigit (c : Char) : Bool := '0' ≤ c && c ≤ '9'

/-- The number that some digits write. -/
def numberOf (digits : List Char) : Nat := digits.foldl (fun n c => n * 10 + (c.toNat - 48)) 0

/-- Reads a number of at least one and at most `width` digits. -/
def readNumber (width : Nat) (cs : List Char) : Option (Nat × List Char) :=
  match (cs.take width).takeWhile isDigit with
  | [] => none
  | digits => some (numberOf digits, cs.drop digits.length)

/-- Reads a year: up to four digits, or a sign and any number of digits. -/
def readYear (cs : List Char) : Option (Int × List Char) :=
  match trimStartChars cs with
  | '-' :: cs => (readNumber cs.length cs).map fun (n, rest) => (-n, rest)
  | '+' :: cs => (readNumber cs.length cs).map fun (n, rest) => (n, rest)
  | cs => (readNumber 4 cs).map fun (n, rest) => (n, rest)

/-- Reads one or two digits behind white space. -/
def readTwo (cs : List Char) : Option (Nat × List Char) := readNumber 2 (trimStartChars cs)

/-- Reads a mark behind white space. -/
def readMark (mark : Char) (cs : List Char) : Option (List Char) :=
  match trimStartChars cs with
  | c :: rest => if c = mark then some rest else none
  | [] => none

/-- Reads a date. -/
def readDate (cs : List Char) : Option (Date × List Char) := do
  let (year, cs) ← readYear cs
  let (month, cs) ← readTwo (← readMark '-' cs)
  let (day, cs) ← readTwo (← readMark '-' cs)
  return (⟨year, month, day⟩, cs)

/-- Reads the fraction of a second, if there is one.  Digits behind the ninth are dropped. -/
def readFraction : List Char → Option (Nat × List Char)
  | '.' :: cs =>
    match cs.takeWhile isDigit with
    | [] => none
    | digits =>
      let kept := digits.take 9
      some (numberOf kept * Nat.pow 10 (9 - kept.length), cs.drop digits.length)
  | cs => some (0, cs)

/-- Reads a time of the day: its seconds and the fraction.  The second 60 is a leap second. -/
def readTime (cs : List Char) : Option ((Nat × Nat) × List Char) := do
  let (hour, cs) ← readTwo cs
  let (minute, cs) ← readTwo (← readMark ':' cs)
  let (second, cs) ← readTwo (← readMark ':' cs)
  let (nanos, cs) ← readFraction cs
  if hour < 24 ∧ minute < 60 ∧ second ≤ 60 then
    let whole := hour * 3600 + minute * 60
    if second = 60 then return ((whole + 59, nanos + 1000000000), cs)
    else return ((whole + second, nanos), cs)
  else none

/-- Reads exactly two digits. -/
def readPair : List Char → Option (Nat × List Char)
  | a :: b :: rest => if isDigit a && isDigit b then some (numberOf [a, b], rest) else none
  | _ => none

/-- Reads the amount of an offset: hours and minutes, with colons or white space between them or
    nothing. -/
def readAmount (cs : List Char) : Option (Int × List Char) := do
  let (hours, cs) ← readPair cs
  let (minutes, cs) ← readPair (cs.dropWhile fun c => c == ':' || isBlankChar c)
  if minutes < 60 ∧ hours < 24 then return (hours * 3600 + minutes * 60, cs) else none

/-- Reads an offset from universal time, in seconds. -/
def readOffset (cs : List Char) : Option (Int × List Char) :=
  match cs with
  | 'Z' :: rest => some (0, rest)
  | 'z' :: rest => some (0, rest)
  | '+' :: rest => readAmount rest
  | '-' :: rest => (readAmount rest).map fun (n, rest) => (-n, rest)
  | '\u2212' :: rest => (readAmount rest).map fun (n, rest) => (-n, rest)
  | a :: b :: c :: rest =>
    if [a, b, c].map Char.toUpper = ['U', 'T', 'C'] then some (0, rest) else none
  | _ => none

/-- Reads a point in time. -/
def read? (text : String) : Option Timestamp := do
  let (date, cs) ← readDate text.toList
  let cs ←
    match cs with
    | 'T' :: cs => some cs
    | 't' :: cs => some cs
    | ' ' :: cs => some cs
    | _ => none
  let ((second, nanos), cs) ← readTime cs
  let (offset, cs) ← readOffset (trimStartChars cs)
  let seconds := date.number * 86400 + second - offset
  if date.isValid && (trimStartChars cs).isEmpty && isYear (Date.ofNumber (seconds / 86400)).year then
    return ⟨seconds, nanos⟩
  else none

example : (read? "2024-01-01T00:30:00-05:30").map toText = some "2024-01-01T06:00:00Z" := by
  decide +kernel
example : (read? "2024-01-02 23:59:60.5z").map toText = some "2024-01-02T23:59:60.500Z" := by
  decide +kernel
example : read? "2023-02-29T00:00:00Z" = none := by decide +kernel

end Timestamp

end Stencil
