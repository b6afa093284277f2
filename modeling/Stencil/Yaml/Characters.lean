/-
  The character classes of YAML.

  Besides the line feed, four more characters break a line.  A text that is read may hold only the
  characters of `isAllowed`; one that is written shows as they are only those of `isPrintable`.
-/

namespace Stencil.Yaml

/-- Does the character break a line? -/
def isBreak (c : Char) : Bool :=
  c == '\n' || c == '\r' || c == '\u0085' || c == '\u2028' || c == '\u2029'

/-- Is it a space or a tab? -/
def isBlank (c : Char) : Bool := c == ' ' || c == '\t'

/-- Does the character end a word? -/
def isGap (c : Char) : Bool := isBlank c || isBreak c

/-- Is there a gap, or nothing, at the start of the text? -/
def atGap : List Char → Bool
  | [] => true
  | c :: _ => isGap c

/-- Is it a decimal digit? -/
def isDigit (c : Char) : Bool := '0' ≤ c && c ≤ '9'

/-- May the character stand in the name of an anchor, of a directive or of a tag handle? -/
def isNameChar (c : Char) : Bool :=
  isDigit c || ('a' ≤ c && c ≤ 'z') || ('A' ≤ c && c ≤ 'Z') || c == '_' || c == '-'

/-- May the character stand in a tag?  Between angle brackets commas and square brackets may as well. -/
def isTagChar (bracketed : Bool) (c : Char) : Bool :=
  isNameChar c || ";/?:@&=+$.!~*'()".toList.contains c || (bracketed && ",[]".toList.contains c)

/-- Is it a bracket of flow style, or a comma? -/
def isFlowMark (c : Char) : Bool :=
  c == ',' || c == '[' || c == ']' || c == '\x7b' || c == '\x7d'

/-- Is it a character that no plain scalar starts with?  A hyphen, a question mark and a colon may start
    one if something follows that is no gap. -/
def isIndicator (c : Char) : Bool := isFlowMark c || "-?:#&*!|>'\"%@`".toList.contains c

/-- May a text that is read hold the character? -/
def isAllowed (c : Char) : Bool :=
  let n := c.toNat
  n == 0x9 || n == 0xA || n == 0xD || n == 0x85 || (0x20 ≤ n && n ≤ 0x7E) ||
    (0xA0 ≤ n && n ≤ 0xFFFD) || 0x10000 ≤ n

/-- Is the character shown as it is? -/
def isPrintable (c : Char) : Bool :=
  let n := c.toNat
  n == 0xA || (0x20 ≤ n && n ≤ 0x7E) || (0xA0 ≤ n && n ≤ 0xFFFD && n != 0xFEFF) || 0x10000 ≤ n

/-- The mark that may stand at the start of a text to tell the order of its bytes. -/
def byteOrderMark : Char := '\uFEFF'

/-- The text with its lines parted by line feeds, other ways to write the same being replaced: a
    carriage return, alone or before a line feed, and the next-line character. -/
def unifyBreaks : List Char → List Char
  | [] => []
  | '\r' :: '\n' :: cs => '\n' :: unifyBreaks cs
  | '\r' :: cs => '\n' :: unifyBreaks cs
  | '\u0085' :: cs => '\n' :: unifyBreaks cs
  | c :: cs => c :: unifyBreaks cs

example : unifyBreaks ['a', '\r', '\n', 'b', '\r', '\u0085', '\u2028'] =
    ['a', '\n', 'b', '\n', '\n', '\u2028'] := by decide

end Stencil.Yaml
