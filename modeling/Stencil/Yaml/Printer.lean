/-
  Writing YAML in block style.

  The members of an object stand on lines of their own, two spaces further in than what holds it; the
  elements of an array stand behind hyphens at the column of the member that holds it.  An empty array
  or object is a pair of brackets.  A name that is long or has line ends in it stands behind a question
  mark, its value on a line below.
-/
import Stencil.Json
import Stencil.Text.Bytes
import Stencil.Yaml.Scalar.Printer

namespace Stencil.Yaml

/-- What has to stand behind a scalar to end its line; a block ends its last line itself, if that one
    has an end. -/
def lineEnd (cs : List Char) : List Char := if cs.getLast?.any isBreak then [] else ['\n']

/-- May a name stand on one line with the colon behind it? -/
def isSimpleKey (name : String) : Bool :=
  !name.toList.any isBreak && (Bytes.ofString name).length ≤ 128

/-- A scalar behind an indicator, and the end of its line. -/
def printScalar (cs : List Char) : List Char := ' ' :: cs ++ lineEnd cs

/-- A member at a column, without the margin of its first line.  `value` gives what follows its colon,
    where a collection starts on the same line or not. -/
def printMember (column : Nat) (name : Option String) (value : (compact : Bool) → List Char) :
    List Char :=
  let key := name.getD ""
  let shown := Scalar.print (column + 2) key
  if isSimpleKey key then shown ++ ':' :: value false
  else '?' :: printScalar shown ++ Scalar.margin column ++ ':' :: value true

mutual

/-- The rest of a line behind a colon, a hyphen or a question mark, and the lines below that belong to
    it.  `indent` is the column of what holds the value; `compact` tells whether a collection starts on
    the same line. -/
def printValue (indent : Nat) (compact : Bool) : Json → List Char
  | .null => printScalar "null".toList
  | .bool b => printScalar (if b then "true" else "false").toList
  | .number literal => printScalar literal
  | .string s => printScalar (Scalar.print (indent + 2) (s.getD ""))
  | .array [] => " []\n".toList
  | .array (x :: xs) =>
    let column := if compact then indent + 2 else indent
    (if compact then [' '] else '\n' :: Scalar.margin column) ++ '-' :: printValue column true x ++
      printElements column xs
  | .object [] => [' ', '\x7b', '\x7d', '\n']
  | .object ((name, x) :: ms) =>
    let column := indent + 2
    (if compact then [' '] else '\n' :: Scalar.margin column) ++
      printMember column name (printValue column · x) ++ printMembers column ms

/-- The elements behind the first, at a column. -/
def printElements (column : Nat) : List Json → List Char
  | [] => []
  | x :: xs =>
    Scalar.margin column ++ '-' :: printValue column true x ++ printElements column xs

/-- The members behind the first, at a column. -/
def printMembers (column : Nat) : List (Option String × Json) → List Char
  | [] => []
  | (name, x) :: ms =>
    Scalar.margin column ++ printMember column name (printValue column · x) ++ printMembers column ms

end

/-- The document of a value. -/
def print (j : Json) : String :=
  String.ofList <|
    match j with
    | .object ((name, x) :: ms) => printMember 0 name (printValue 0 · x) ++ printMembers 0 ms
    | .array (x :: xs) => '-' :: printValue 0 true x ++ printElements 0 xs
    | j => (printValue 0 true j).drop 1

example : print (.ofMembers [("a", .texts ["x", "1"]), ("b", .ofMembers [("c", .array [])])]) =
    "a:\n- x\n- '1'\nb:\n  c: []\n" := by decide +kernel

end Stencil.Yaml
