/-
  Reading the tokens that are no scalars: directives, anchors, aliases and tags.
-/
import Stencil.Text.Bytes
import Stencil.Text.Hex
import Stencil.Yaml.Scalar.Block
import Stencil.Yaml.Token

namespace Stencil.Yaml.Token

/-! ## Anchors and aliases -/

/-- May this stand behind the name of an anchor? -/
def endsAnchor (rest : List Char) : Bool :=
  atGap rest || rest.head?.any fun c => "?:,]\x7d%@`".toList.contains c

/-- Reads the name of an anchor. -/
def readAnchorName? (c : Cursor) : Option (String × Cursor) :=
  let (name, c) := c.span isNameChar
  if name.isEmpty || !endsAnchor c.rest then none else some (String.ofList name, c)

/-! ## Tags -/

/-- The number of bytes in the code point that starts with a byte. -/
def widthOfLead? (byte : UInt8) : Option Nat :=
  if byte < 0x80 then some 1
  else if 0xC0 ≤ byte ∧ byte < 0xE0 then some 2
  else if 0xE0 ≤ byte ∧ byte < 0xF0 then some 3
  else if 0xF0 ≤ byte ∧ byte < 0xF8 then some 4
  else none

/-- Reads the characters of a tag, of which a percent sign and two hexadecimal digits stand for a byte.
    `missing` bytes of a code point are still to come. -/
def readTagBytes (bracketed : Bool) : (missing : Nat) → List Char → Option (Bytes × List Char)
  | missing, '%' :: a :: b :: cs => do
    let byte := UInt8.ofNat (16 * (← hexValue? a) + (← hexValue? b))
    let missing ←
      match missing with
      | missing + 1 => if 0x80 ≤ byte ∧ byte < 0xC0 then some missing else none
      | 0 => (widthOfLead? byte).map (· - 1)
    let (bytes, rest) ← readTagBytes bracketed missing cs
    return (byte :: bytes, rest)
  | 0, c :: cs =>
    if c = '%' then none
    else if isTagChar bracketed c then
      (readTagBytes bracketed 0 cs).map fun (bytes, rest) => (Bytes.ofChars [c] ++ bytes, rest)
    else some ([], c :: cs)
  | 0, [] => some ([], [])
  | _ + 1, _ => none

/-- Reads the characters of a tag as a text. -/
def readTagText (bracketed : Bool) (c : Cursor) : Option (String × Cursor) := do
  let (bytes, rest) ← readTagBytes bracketed 0 c.rest
  return (Bytes.lossy bytes, c.drop (c.rest.length - rest.length))

/-- Reads what looks like a handle: an exclamation mark, a name, and another mark if there is one. -/
def readHandle? (c : Cursor) : Option (String × Cursor) :=
  if c.rest.head? != some '!' then none
  else
    let (name, c) := (c.drop 1).span isNameChar
    if c.rest.head? = some '!' then some (String.ofList ('!' :: name ++ ['!']), c.drop 1)
    else some (String.ofList ('!' :: name), c)

/-- Does a handle end with a mark that is not its first one? -/
def isClosedHandle (handle : String) : Bool := 2 ≤ handle.length && handle.toList.getLast? == some '!'

/-- Reads a tag at its exclamation mark. -/
def readTag? (c : Cursor) : Option (WrittenTag × Cursor) :=
  if (c.drop 1).rest.head? = some '<' then do
    let (text, c) ← readTagText true (c.drop 2)
    if text.isEmpty ∨ c.rest.head? ≠ some '>' then none
    return (⟨"", text⟩, c.drop 1)
  else do
    let (handle, c) ← readHandle? c
    let (text, c) ← readTagText false c
    if isClosedHandle handle then
      if text.isEmpty then none
      return (⟨handle, text⟩, c)
    else
      let suffix := String.ofList (handle.toList.drop 1) ++ text
      return (if suffix.isEmpty then ⟨"", "!"⟩ else ⟨"!", suffix⟩, c)

/-- May this stand behind a tag? -/
def endsTag (inFlow : Bool) (rest : List Char) : Bool :=
  atGap rest || (inFlow && rest.head? == some ',')

/-! ## Directives -/

/-- Reads a number of at most nine digits. -/
def readVersionNumber? (c : Cursor) : Option (Nat × Cursor) :=
  let (digits, c) := c.span isDigit
  if digits.isEmpty ∨ 9 < digits.length then none
  else some (digits.foldl (fun n d => 10 * n + (d.toNat - 48)) 0, c)

/-- Reads the version behind the name of its directive. -/
def readVersion? (c : Cursor) : Option (Token × Cursor) := do
  let (major, c) ← readVersionNumber? (c.skip isBlank)
  if c.rest.head? ≠ some '.' then none
  let (minor, c) ← readVersionNumber? (c.drop 1)
  return (.version major minor, c)

/-- Reads a handle and its meaning behind the name of their directive. -/
def readHandleMeaning? (c : Cursor) : Option (Token × Cursor) := do
  let (handle, c) ← readHandle? (c.skip isBlank)
  if handle ≠ "!" ∧ !isClosedHandle handle then none
  if !c.rest.head?.any isBlank then none
  let (meaning, c) ← readTagText true (c.skip isBlank)
  if meaning.isEmpty ∨ !atGap c.rest then none
  return (.tagHandle handle meaning, c)

/-- Reads a directive behind its percent sign, to the end of its line. -/
def readDirective? (c : Cursor) : Option (Token × Cursor) := do
  let (name, c) := c.span isNameChar
  if !atGap c.rest then none
  let (token, c) ←
    match String.ofList name with
    | "YAML" => readVersion? c
    | "TAG" => readHandleMeaning? c
    | _ => none
  let c ← Block.skipComment? c
  return (token, c)

end Stencil.Yaml.Token
