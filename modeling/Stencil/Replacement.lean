/-
  Replacements: literal texts to be found in a file and what is put in their place.

  `replaceBytes` reads from the left; where `find` starts, the new bytes are written and the bytes of
  `find` are passed over, so occurrences do not overlap and what was written is not read again.
  `applyReplacements` applies a list of replacements one after the other, each to the whole result of
  those before it.  `applyReplacementsToText` does so in a text, by the replacement of characters that
  texts have.
-/
import Stencil.Sorted
import Stencil.Text.Bytes

namespace Stencil

/-- A literal text and what replaces it. -/
structure Replacement where
  find : String
  replaceWith : String
  deriving DecidableEq, Inhabited

namespace Replacement

/-- Replaces from the left; `skip` bytes still belong to the occurrence found last. -/
def replaceFrom (find new : Bytes) : (skip : Nat) → Bytes → Bytes
  | _, [] => []
  | skip + 1, _ :: bs => replaceFrom find new skip bs
  | 0, b :: bs =>
    if find.isPrefixOf (b :: bs) then new ++ replaceFrom find new (find.length - 1) bs
    else b :: replaceFrom find new 0 bs

/-- The bytes with every occurrence of `find` replaced, from the left and without overlap. -/
def replaceBytes (find new content : Bytes) : Bytes := replaceFrom find new 0 content

/-- Applies one replacement.  An empty text to find changes nothing. -/
def apply (r : Replacement) (content : Bytes) : Bytes :=
  if r.find.isEmpty then content
  else replaceBytes (Bytes.ofString r.find) (Bytes.ofString r.replaceWith) content

/-- Applies one replacement to a text.  An empty text to find changes nothing. -/
def applyToText (r : Replacement) (text : String) : String :=
  if r.find.isEmpty then text else text.replace r.find r.replaceWith

/-- The replacements with the longest `find` first; among equal lengths the order stays. -/
def sortLongest (rs : List Replacement) : List Replacement :=
  sortBy (LongerFirst fun r => r.find.utf8ByteSize) rs

end Replacement

/-- Applies replacements in their order. -/
def applyReplacements (rs : List Replacement) (content : Bytes) : Bytes :=
  rs.foldl (fun content r => r.apply content) content

/-- Applies replacements in their order to a text. -/
def applyReplacementsToText (rs : List Replacement) (text : String) : String :=
  rs.foldl (fun text r => r.applyToText text) text

example : Replacement.replaceBytes [1, 1] [2] [1, 1, 1, 0, 1, 1] = [2, 1, 0, 2] := by decide

end Stencil
