/-
  White space: the Unicode property `White_Space`, and what is done with it.

  `trimChars` drops white space at both ends, `words` is the list of maximal runs of other characters,
  `lines` cuts a text at its line feeds.  A text is blank when it holds nothing but white space.
-/
import Stencil.Text.CharClass

namespace Stencil

/-- The characters of the property `White_Space`. -/
def blankRanges : CodeRanges :=
  [
    (0x9, 0xD), (0x20, 0x20), (0x85, 0x85), (0xA0, 0xA0), (0x1680, 0x1680), (0x2000, 0x200A),
    (0x2028, 0x2029), (0x202F, 0x202F), (0x205F, 0x205F), (0x3000, 0x3000)
  ]

/-- Is it a white space character? -/
def isBlankChar (c : Char) : Bool := inRanges blankRanges c

/-- The characters without the white space before them. -/
def trimStartChars (cs : List Char) : List Char := cs.dropWhile isBlankChar

/-- The characters without the white space after them. -/
def trimEndChars (cs : List Char) : List Char := (cs.reverse.dropWhile isBlankChar).reverse

/-- The characters without the white space around them. -/
def trimChars (cs : List Char) : List Char := trimEndChars (trimStartChars cs)

/-- The text without the white space around it. -/
def trim (s : String) : String := String.ofList (trimChars s.toList)

/-- Does the text hold nothing but white space? -/
def isBlank (s : String) : Bool := s.toList.all isBlankChar

/-- The first characters that are not white space, and what follows them. -/
def wordsFrom : List Char → List Char → List (List Char)
  | [], [] => []
  | word, [] => [word.reverse]
  | word, c :: cs =>
    if isBlankChar c then
      if word.isEmpty then wordsFrom [] cs else word.reverse :: wordsFrom [] cs
    else wordsFrom (c :: word) cs

/-- The words of a text: its maximal runs of characters that are not white space. -/
def words (cs : List Char) : List (List Char) := wordsFrom [] cs

/-- A line without the carriage return that ends it. -/
def dropReturn (cs : List Char) : List Char :=
  match cs.reverse with
  | '\r' :: rest => rest.reverse
  | _ => cs

/-- The lines of a text.  A line feed ends a line, with a carriage return before it; the text after
    the last line feed is a line when it is not empty. -/
def lines (cs : List Char) : List (List Char) :=
  match (cs.splitOn '\n').reverse with
  | [] => []
  | last :: done =>
    (done.reverse.map dropReturn) ++ (if last.isEmpty then [] else [last])

example : trim " \u2003a b\u00a0\n" = "a b" := by decide
example : isBlank "\u3000 " = true ∧ isBlank "\u200b" = false := by decide
example : words " a  bc ".toList = [['a'], ['b', 'c']] := by decide
example : lines "a\r\n\nb\r".toList = [['a'], [], ['b', '\r']] := by decide

end Stencil
