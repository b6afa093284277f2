/-
  Transforms: how the value of one variable becomes the value of another.

  A transform is named in the configuration.  `Transform.named` reads the name, without regard to case
  or to the white space around it, and takes an unknown name for the transform that changes nothing.

  A slug is the list of maximal runs of letters and digits, in lower case and joined by one separator.
  `slugFrom` computes it in one pass: it remembers whether a gap was met since the last letter, and
  writes the separator only when a letter follows and something was written before.
-/
import Stencil.Text.Alphanumeric
import Stencil.Text.Blank
import Stencil.Text.LetterCase

namespace Stencil

/-! ## Slugs -/

/-- The rest of a slug.  `started`: was something written yet?  `gap`: was a character other than a
    letter or digit met since? -/
def slugFrom (separator : Char) : (started gap : Bool) → List Char → List Char
  | _, _, [] => []
  | started, gap, c :: cs =>
    if isAlphanumeric c then
      (if gap && started then [separator] else []) ++ lowerChar c ++ slugFrom separator true false cs
    else slugFrom separator started true cs

/-- The letters and digits of a text in lower case, with `separator` between two runs of them. -/
def slugChars (separator : Char) (cs : List Char) : List Char := slugFrom separator false false cs

/-- The slug of a text. -/
def slug (separator : Char) (s : String) : String := String.ofList (slugChars separator s.toList)

/-! ## Titles -/

/-- A word with its first character in upper case and the others in lower case. -/
def titleWord (word : List Char) : List Char :=
  match lowerChars word with
  | [] => []
  | first :: rest => upperChar first ++ rest

/-- The words of a text, each with a capital, joined by single spaces. -/
def titleCase (s : String) : String :=
  String.ofList (List.intercalate [' '] ((words s.toList).map titleWord))

/-! ## Transforms by name -/

/-- What can be done to a value. -/
inductive Transform where
  | identity
  | slug (separator : Char)
  | upper
  | lower
  | title
  deriving DecidableEq

namespace Transform

/-- The transform of a name. -/
def named (name : String) : Transform :=
  match lowerCase (trim name) with
  | "slug-kebab" => .slug '-'
  | "slug-snake" => .slug '_'
  | "upper" => .upper
  | "lower" => .lower
  | "title" => .title
  | _ => .identity

/-- Applies a transform to a value. -/
def apply : Transform → String → String
  | identity, s => s
  | slug separator, s => Stencil.slug separator s
  | upper, s => upperCase s
  | lower, s => lowerCase s
  | title, s => titleCase s

end Transform

/-- Applies the transform of a name to a value. -/
def transform (name value : String) : String := (Transform.named name).apply value

example : slug '-' "  --Hello,   World!! " = "hello-world" := by decide +kernel
example : slug '_' "Ünïcode Straße 2" = "ünïcode_straße_2" := by decide +kernel
example : titleCase "  hELLO    wORLD " = "Hello World" := by decide +kernel
example : transform " SLUG-Kebab" "My App" = "my-app" := by decide +kernel

end Stencil
