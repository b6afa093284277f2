/-
  Naming conventions: the spellings under which one project name occurs in its files.

  A name such as `MyBank` is also written `my-bank`, `my_bank`, `MY_BANK`, `myBank`, `MYBANK`,
  `mybank` and `My Bank`.  `Convention.spell` writes a name in one convention, `spellings` in all of
  them, in the order in which conventions take precedence.

  There are two families.  The conventions with separators (`snakeFrom`) cut where a character other
  than a letter or digit stands, and before a character that is not an ASCII small letter when one of
  its neighbours is a small letter.  The conventions with capitals (`humpFrom`) start a word after
  such characters, after a number, and where a capital follows a small letter.  Only ASCII letters
  change their case in either family.
-/
import Stencil.Text.Alphanumeric
import Stencil.Text.Blank
import Stencil.Text.LetterCase

namespace Stencil

/-- The conventions, those of higher precedence first. -/
inductive Convention where
  | pascal
  | kebab
  | snake
  | screaming
  | camel
  | upper
  | lower
  | title
  | verbatim
  deriving DecidableEq, Repr

/-- The ASCII capital of an ASCII small letter; other characters stay. -/
def asciiUpper (c : Char) : Char := if 'a' ≤ c ∧ c ≤ 'z' then Char.ofNat (c.toNat - 32) else c

/-- The ASCII small letter of an ASCII capital; other characters stay. -/
def asciiLower (c : Char) : Char := if 'A' ≤ c ∧ c ≤ 'Z' then Char.ofNat (c.toNat + 32) else c

/-- The characters without those after the last letter or digit. -/
def dropTrailingMarks (cs : List Char) : List Char :=
  (cs.reverse.dropWhile fun c => !isAlphanumeric c).reverse

/-! ## Conventions with separators -/

/-- Is one of the characters numbered `i + 1` and `i - 1` a small letter?  A number outside the text
    counts as a capital. -/
def smallNeighbour (whole : List Char) (i : Nat) : Bool :=
  isLower (whole.getD (i + 1) 'A') || (0 < i && isLower (whole.getD (i - 1) 'A'))

/-- The rest of a name with separators.  `whole` is the whole name, `i` the number of bytes before
    `cs` and `start` tells whether a word starts here. -/
def snakeFrom (whole : List Char) (separator : Char) (fold : Char → Char) :
    (i : Nat) → (start : Bool) → List Char → List Char
  | _, _, [] => []
  | i, start, c :: cs =>
    let next := i + c.utf8Size
    if !isAlphanumeric c then
      if start then snakeFrom whole separator fold next true cs
      else separator :: snakeFrom whole separator fold next true cs
    else if !start && c == asciiUpper c && smallNeighbour whole i then
      separator :: fold c :: snakeFrom whole separator fold next false cs
    else fold c :: snakeFrom whole separator fold next false cs

/-- A name in words joined by `separator`, every character passed through `fold`. -/
def snakeChars (separator : Char) (fold : Char → Char) (cs : List Char) : List Char :=
  snakeFrom cs separator fold 0 true (dropTrailingMarks cs)

/-! ## Conventions with capitals -/

/-- How the conventions with capitals differ: does the first word start with a capital, and are words
    set apart by spaces? -/
structure Humps where
  firstCapital : Bool
  spaced : Bool

/-- What was met so far: whether a word starts here, the last character written in lower case, whether
    a letter or digit was met, and whether a capital was written. -/
structure HumpState where
  start : Bool
  last : Char := ' '
  met : Bool := false
  capitals : Bool := false

/-- The rest of a name with capitals. -/
def humpFrom (humps : Humps) : HumpState → List Char → List Char
  | _, [] => []
  | st, c :: cs =>
    if !isAlphanumeric c then
      humpFrom humps (if st.met then { st with start := true } else st) cs
    else if isNumeric c && !humps.spaced then
      c :: humpFrom humps { st with start := true, met := true } cs
    else if st.start || (isLower st.last && isUpper c) then
      (if humps.spaced && st.capitals then [' '] else []) ++
        asciiUpper c :: humpFrom humps { st with start := false, met := true, capitals := true } cs
    else asciiLower c :: humpFrom humps { st with last := c, met := true } cs

/-- A name in words that start with capitals. -/
def humpChars (humps : Humps) (cs : List Char) : List Char :=
  humpFrom humps { start := humps.firstCapital } (dropTrailingMarks cs)

/-! ## All conventions -/

/-- The words of a name run together. -/
def joinedWords (name : String) : String :=
  String.ofList ((snakeChars '_' asciiLower name.toList).filter (· != '_'))

namespace Convention

/-- All conventions in the order of precedence. -/
def all : List Convention :=
  [.pascal, .kebab, .snake, .screaming, .camel, .upper, .lower, .title, .verbatim]

/-- Writes a name in a convention. -/
def spell : Convention → String → String
  | pascal, name => String.ofList (humpChars ⟨true, false⟩ name.toList)
  | kebab, name => String.ofList (snakeChars '-' asciiLower name.toList)
  | snake, name => String.ofList (snakeChars '_' asciiLower name.toList)
  | screaming, name => String.ofList (snakeChars '_' asciiUpper name.toList)
  | camel, name => String.ofList (humpChars ⟨false, false⟩ name.toList)
  | upper, name => upperCase (joinedWords name)
  | lower, name => lowerCase (joinedWords name)
  | title, name => String.ofList (humpChars ⟨true, true⟩ name.toList)
  | verbatim, name => name

/-- The name of a convention. -/
def label : Convention → String
  | pascal => "pascal"
  | kebab => "kebab"
  | snake => "snake"
  | screaming => "screaming"
  | camel => "camel"
  | upper => "upper"
  | lower => "lower"
  | title => "title"
  | verbatim => "original"

end Convention

/-- The spellings of a name in all conventions; a blank name has none. -/
def spellings (name : String) : List (Convention × String) :=
  if isBlank name then [] else Convention.all.map fun k => (k, k.spell (trim name))

example : (spellings "MyBank").map Prod.snd =
    ["MyBank", "my-bank", "my_bank", "MY_BANK", "myBank", "MYBANK", "mybank", "My Bank", "MyBank"] := by
  decide +kernel

end Stencil
