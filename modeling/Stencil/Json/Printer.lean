/-
  Writing JSON.

  One member or element stands on a line, two spaces further in than what holds it; an empty array or
  object is written without a line of its own.  In strings only quotes, backslashes and control
  characters are escaped.
-/
import Stencil.Json

namespace Stencil.Json

/-- A hexadecimal digit. -/
def hexChar (n : Nat) : Char := Nat.digitChar (n % 16)

/-- One character of a string. -/
def escapeChar (c : Char) : List Char :=
  match c with
  | '"' => ['\\', '"']
  | '\\' => ['\\', '\\']
  | '\x08' => ['\\', 'b']
  | '\x0c' => ['\\', 'f']
  | '\n' => ['\\', 'n']
  | '\r' => ['\\', 'r']
  | '\t' => ['\\', 't']
  | c => if c.toNat < 0x20 then ['\\', 'u', '0', '0', hexChar (c.toNat / 16), hexChar c.toNat] else [c]

/-- A string between quotes. -/
def printString (s : List Char) : List Char := '"' :: s.flatMap escapeChar ++ ['"']

/-- A new line and the spaces at its start. -/
def newLine (indent : Nat) : List Char := '\n' :: List.replicate (2 * indent) ' '

mutual

/-- A value whose lines behind the first stand `indent` steps in. -/
def print (indent : Nat) : Json → List Char
  | null => "null".toList
  | bool b => (if b then "true" else "false").toList
  | number literal => literal
  | string s => printString (s.getD "").toList
  | array [] => ['[', ']']
  | array (x :: xs) =>
    '[' :: newLine (indent + 1) ++ print (indent + 1) x ++ printElements (indent + 1) xs ++
      newLine indent ++ [']']
  | object [] => ['\x7b', '\x7d']
  | object ((name, x) :: ms) =>
    '\x7b' :: newLine (indent + 1) ++ printString (name.getD "").toList ++ [':', ' '] ++
      print (indent + 1) x ++ printMembers (indent + 1) ms ++ newLine indent ++ ['\x7d']

/-- The elements behind the first, each on a line. -/
def printElements (indent : Nat) : List Json → List Char
  | [] => []
  | x :: xs => ',' :: newLine indent ++ print indent x ++ printElements indent xs

/-- The members behind the first, each on a line. -/
def printMembers (indent : Nat) : List (Option String × Json) → List Char
  | [] => []
  | (name, x) :: ms =>
    ',' :: newLine indent ++ printString (name.getD "").toList ++ [':', ' '] ++ print indent x ++
      printMembers indent ms

end

/-- The text of a value. -/
def pretty (j : Json) : String := String.ofList (print 0 j)

example : pretty (ofMembers [("a", texts ["x\n"]), ("b", .array [])]) =
    "\x7b\n  \"a\": [\n    \"x\\n\"\n  ],\n  \"b\": []\n\x7d" := by decide +kernel

end Stencil.Json
