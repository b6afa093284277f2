/-
  Tokens: the names of variables between two delimiters, and their substitution by values.

  `Delimiters.token` writes a token such as `{{NAME}}`.  `substituteBytes` replaces every token of a
  declared name by the value of that name.  It goes from one opening delimiter to the next: the bytes
  before it are copied, and then either a token starts there, whose value is written and which is
  passed over, or one byte is copied and the search goes on behind it, because the next token may
  start inside the delimiter.  Where several names fit, the longest is taken.  What is written is
  never read again, so a value that looks like a token stays as it is.

  Each round consumes at least one byte, so the length of the text is enough fuel.
-/
import Stencil.NameMap
import Stencil.Text.Blank
import Stencil.Text.Bytes

namespace Stencil

/-! ## Delimiters -/

/-- What stands before and after the name of a variable in a token. -/
structure Delimiters where
  opening : String := "\x7b\x7b"
  closing : String := "\x7d\x7d"
  deriving DecidableEq, Inhabited

namespace Delimiters

/-- The delimiters without white space around them; a blank one becomes the default. -/
def normalized (d : Delimiters) : Delimiters where
  opening := if isBlank d.opening then "\x7b\x7b" else trim d.opening
  closing := if isBlank d.closing then "\x7d\x7d" else trim d.closing

/-- The token of a name. -/
def token (d : Delimiters) (name : String) : String := d.opening ++ name ++ d.closing

end Delimiters

/-! ## Substitution -/

/-- The resolved values of variables. -/
abbrev Values := NameMap String

namespace Token

/-- The bytes before the first `part` and the bytes behind it. -/
def cut? (part : Bytes) : Bytes → Option (Bytes × Bytes)
  | [] => if part.isEmpty then some ([], []) else none
  | b :: bs =>
    match Bytes.dropStart? part (b :: bs) with
    | some rest => some ([], rest)
    | none => (cut? part bs).map fun (before, rest) => (b :: before, rest)

/-- A name that fits behind an opening delimiter: its length, its value and what follows the token. -/
structure Fit where
  size : Nat
  value : Bytes
  rest : Bytes

/-- The fit of one name with its value. -/
def fit? (closing after : Bytes) (entry : String × String) : Option Fit :=
  let name := Bytes.ofString entry.1
  (Bytes.dropStart? (name ++ closing) after).map fun rest =>
    { size := name.length, value := Bytes.ofString entry.2, rest := rest }

/-- The longer of two fits. -/
def longer (a : Option Fit) (b : Option Fit) : Option Fit :=
  match a, b with
  | some f, some g => if g.size < f.size then some f else some g
  | some f, none => some f
  | none, g => g

/-- The longest fit among all names. -/
def longest? (closing after : Bytes) (entries : List (String × String)) : Option Fit :=
  entries.foldl (fun best e => longer best (fit? closing after e)) none

/-- The substitution, for as many rounds as there is fuel. -/
def substituteFrom (entries : List (String × String)) (opening closing : Bytes) : Nat → Bytes → Bytes
  | 0, text => text
  | fuel + 1, text =>
    match cut? opening text with
    | none => text
    | some (before, after) =>
      before ++ match longest? closing after entries with
        | some f => f.value ++ substituteFrom entries opening closing fuel f.rest
        | none =>
          opening.take 1 ++ substituteFrom entries opening closing fuel (opening.drop 1 ++ after)

end Token

/-- The bytes with every token of a declared name replaced by its value.  Without an opening delimiter
    there are no tokens. -/
def substituteBytes (values : Values) (opening closing : String) (text : Bytes) : Bytes :=
  if opening.isEmpty then text
  else
    Token.substituteFrom values.entries (Bytes.ofString opening) (Bytes.ofString closing)
      text.length text

/-- The text with every token of a declared name replaced by its value. -/
def substitute (values : Values) (opening closing : String) (text : String) : String :=
  Bytes.lossy (substituteBytes values opening closing (Bytes.ofString text))

namespace Delimiters

/-- Substitutes the tokens between these delimiters, once they are normalized. -/
def renderBytes (d : Delimiters) (values : Values) (text : Bytes) : Bytes :=
  substituteBytes values d.normalized.opening d.normalized.closing text

/-- Substitutes the tokens of a text between these delimiters, once they are normalized. -/
def render (d : Delimiters) (values : Values) (text : String) : String :=
  substitute values d.normalized.opening d.normalized.closing text

end Delimiters

example : substitute (NameMap.ofList [("A", "short"), ("A]B", "long")]) "[" "]" "[[A]B]" = "[long" := by
  decide +kernel
example : substitute (NameMap.ofList [("A", "[A]")]) "[" "]" "[A][B]" = "[A][B]" := by
  decide +kernel

end Stencil
