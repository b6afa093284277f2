/-
  Texts and their bytes.

  A file holds bytes, and so does the name of a file; a configuration holds text.  The two meet in
  UTF-8.  `Bytes.ofString` writes a text as bytes; `Bytes.scalars` reads bytes back, one code point
  at a time, and marks every maximal piece that is no code point.  From that one reading come
  `Bytes.toString?`, which refuses ill-formed bytes, and `Bytes.lossy`, which shows each ill-formed
  piece as U+FFFD.

  The reader is a fold over the bytes: its state is the code point begun and not yet finished, with
  the range that the next byte has to lie in.  A byte outside that range ends the piece begun, as one
  marked piece, and is then read afresh.  So the recursion is on the bytes and needs no measure.
-/

namespace Stencil

/-- What a file holds, and what the name of a file is made of. -/
abbrev Bytes := List UInt8

namespace Bytes

/-! ## From text to bytes -/

/-- The UTF-8 form of a list of characters. -/
def ofChars (cs : List Char) : Bytes := cs.flatMap String.utf8EncodeChar

/-- The UTF-8 form of a text. -/
def ofString (s : String) : Bytes := ofChars s.toList

@[simp] theorem ofChars_nil : ofChars [] = [] := rfl

@[simp] theorem ofChars_cons (c : Char) (cs : List Char) :
    ofChars (c :: cs) = String.utf8EncodeChar c ++ ofChars cs := rfl

/-- Texts are written one after the other. -/
@[simp] theorem ofChars_append (cs ds : List Char) :
    ofChars (cs ++ ds) = ofChars cs ++ ofChars ds := by
  simp [ofChars]

@[simp] theorem ofString_append (s t : String) : ofString (s ++ t) = ofString s ++ ofString t := by
  simp [ofString]

/-- Two texts with the same bytes are the same. -/
theorem ofString_injective {s t : String} (h : ofString s = ofString t) : s = t := by
  have henc : s.toList.utf8Encode = t.toList.utf8Encode := congrArg List.toByteArray h
  rw [String.utf8Encode_toList, String.utf8Encode_toList] at henc
  exact String.toByteArray_inj.mp henc

/-- A text that is not empty has bytes. -/
theorem ofString_ne_nil {s : String} (h : s ≠ "") : ofString s ≠ [] :=
  fun hnil => h (ofString_injective hnil)

/-- The number of bytes is the size of the text in UTF-8. -/
theorem length_ofString (s : String) : (ofString s).length = s.utf8ByteSize := by
  rw [← String.size_toByteArray, ← String.utf8Encode_toList, List.utf8Encode, List.size_toByteArray]
  rfl

/-! ## From bytes to text -/

/-- A code point begun: its value so far, the number of bytes still missing, and the range of the
    next one. -/
structure Begun where
  value : Nat
  missing : Nat
  low : UInt8 := 0x80
  high : UInt8 := 0xBF

/-- What a byte says when no code point is begun. -/
inductive Lead where
  | whole (c : Char)
  | begins (b : Begun)
  | stray

/-- Reads a byte at the start of a code point.  The narrowed ranges rule out overlong forms
    (`E0`, `F0`), surrogates (`ED`) and values above `10FFFF` (`F4`). -/
def lead (b : UInt8) : Lead :=
  if b < 0x80 then .whole (Char.ofNat b.toNat)
  else if b < 0xC2 then .stray
  else if b < 0xE0 then .begins { value := b.toNat - 0xC0, missing := 1 }
  else if b = 0xE0 then .begins { value := 0, missing := 2, low := 0xA0 }
  else if b = 0xED then .begins { value := 0xD, missing := 2, high := 0x9F }
  else if b < 0xF0 then .begins { value := b.toNat - 0xE0, missing := 2 }
  else if b = 0xF0 then .begins { value := 0, missing := 3, low := 0x90 }
  else if b < 0xF4 then .begins { value := b.toNat - 0xF0, missing := 3 }
  else if b = 0xF4 then .begins { value := 4, missing := 3, high := 0x8F }
  else .stray

/-- Reads bytes from a state: `some c` for each code point, `none` for each maximal piece that is
    none. -/
def scalarsFrom : Option Begun → Bytes → List (Option Char)
  | none, [] => []
  | some _, [] => [none]
  | none, b :: bs =>
    match lead b with
    | .whole c => some c :: scalarsFrom none bs
    | .begins g => scalarsFrom (some g) bs
    | .stray => none :: scalarsFrom none bs
  | some g, b :: bs =>
    if g.low ≤ b ∧ b ≤ g.high then
      let value := g.value * 64 + (b.toNat - 0x80)
      if g.missing ≤ 1 then some (Char.ofNat value) :: scalarsFrom none bs
      else scalarsFrom (some { value := value, missing := g.missing - 1 }) bs
    else
      none :: match lead b with
        | .whole c => some c :: scalarsFrom none bs
        | .begins g' => scalarsFrom (some g') bs
        | .stray => none :: scalarsFrom none bs

/-- The code points of some bytes, `none` standing for a piece that is no code point. -/
def scalars (bs : Bytes) : List (Option Char) := scalarsFrom none bs

/-- The text of well-formed bytes. -/
def toString? (bs : Bytes) : Option String := ((scalars bs).mapM id).map String.ofList

/-- The text of any bytes, each ill-formed piece shown as U+FFFD. -/
def lossy (bs : Bytes) : String := String.ofList ((scalars bs).map fun c => c.getD '\uFFFD')

/-- Are the bytes the UTF-8 form of a text? -/
def isText (bs : Bytes) : Bool := (scalars bs).all Option.isSome

example : ofString "aé日😀" = [97, 195, 169, 230, 151, 165, 240, 159, 152, 128] := by decide
example : toString? [97, 195, 169, 230, 151, 165, 240, 159, 152, 128] = some "aé日😀" := by decide
example : toString? [0xED, 0xA0, 0x80] = none := by decide
example : lossy [0x61, 0xE6, 0x97, 0x62, 0xFF, 0xC3] = "a\uFFFDb\uFFFD\uFFFD" := by decide

/-- What is left of the bytes behind `start`, if they begin with it. -/
abbrev dropStart? (start bs : Bytes) : Option Bytes := start.isPrefixOf? bs

/-- Does `part` occur somewhere in the bytes? -/
def holds (part : Bytes) : Bytes → Bool
  | [] => part.isEmpty
  | b :: bs => part.isPrefixOf (b :: bs) || holds part bs

/-- The bytes hold `part` just where it is an infix of them. -/
theorem holds_iff {part bs : Bytes} : holds part bs = true ↔ part <:+: bs := by
  induction bs with
  | nil => rw [holds, List.isEmpty_iff, List.infix_nil]
  | cons b bs ih =>
    rw [holds, Bool.or_eq_true, ih, List.isPrefixOf_iff_prefix, List.infix_cons_iff]

/-- The separator of file names in a path. -/
def slash : UInt8 := 0x2F

end Bytes

end Stencil
