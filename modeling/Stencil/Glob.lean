/-
  Glob patterns: what they are and which paths they match.

  A glob is a list of pieces, matched against the bytes of a whole path.  `?` and `*` never cross a
  slash; the three forms of `**` do: at the start of a pattern, at its end, and between two segments.
  Braces hold alternatives, which are globs again.

  `Piece.accepts` is given what is to be matched behind the piece, as a test on the bytes that are
  left, and tries every way the piece can match.  So the recursion is on the glob and on the bytes,
  and no bound is needed.
-/
import Stencil.Text.Bytes

namespace Stencil

namespace Glob

/-- A part of a glob. -/
inductive Piece where
  /-- A character that stands for itself. -/
  | char (c : Char)
  /-- `?`: one byte that is no slash. -/
  | one
  /-- `*`: any bytes that are no slashes. -/
  | run
  /-- `**` and the slash behind it, at the start: nothing, or any leading segments. -/
  | leading
  /-- A slash and `**` at the end: a slash and anything behind it. -/
  | trailing
  /-- `**` between two slashes: a slash, or any segments between two slashes. -/
  | between
  /-- `[...]`: one byte of some ranges, or of none of them. -/
  | oneOf (negated : Bool) (ranges : List (UInt8 × UInt8))
  /-- Alternatives in braces.  Those that can only match the empty path are left out. -/
  | branches (alternatives : List (List Piece))

/-- Does the test hold of some bytes that are left when leading bytes are dropped? -/
def anySuffix (k : Bytes → Bool) : Bytes → Bool
  | [] => k []
  | b :: bs => k (b :: bs) || anySuffix k bs

/-- Does the test hold of what is left behind some slash? -/
def behindSlash (k : Bytes → Bool) : Bytes → Bool
  | [] => false
  | b :: bs => (b == Bytes.slash && k bs) || behindSlash k bs

/-- Does the test hold of what is left when leading bytes that are no slashes are dropped? -/
def behindRun (k : Bytes → Bool) : Bytes → Bool
  | [] => k []
  | b :: bs => k (b :: bs) || (b != Bytes.slash && behindRun k bs)

mutual

/-- Can the piece match leading bytes such that the test holds of what is left? -/
def Piece.accepts : Piece → (Bytes → Bool) → Bytes → Bool
  | .char c, k, bs =>
    match Bytes.dropStart? (String.utf8EncodeChar c) bs with
    | some rest => k rest
    | none => false
  | .one, k, bs =>
    match bs with
    | [] => false
    | b :: rest => b != Bytes.slash && k rest
  | .run, k, bs => behindRun k bs
  | .leading, k, bs => k bs || behindSlash k bs
  | .trailing, k, bs =>
    match bs with
    | [] => false
    | b :: rest => b == Bytes.slash && anySuffix k rest
  | .between, k, bs =>
    match bs with
    | [] => false
    | b :: rest => b == Bytes.slash && (k rest || behindSlash k rest)
  | .oneOf negated ranges, k, bs =>
    match bs with
    | [] => false
    | b :: rest => (ranges.any fun r => r.1 ≤ b && b ≤ r.2) != negated && k rest
  | .branches [], k, bs => k bs
  | .branches alternatives, k, bs => someAccepts alternatives k bs

/-- Can the pieces match leading bytes one after the other? -/
def allAccept : List Piece → (Bytes → Bool) → Bytes → Bool
  | [], k, bs => k bs
  | p :: ps, k, bs => p.accepts (allAccept ps k) bs

/-- Can one of the alternatives match leading bytes? -/
def someAccepts : List (List Piece) → (Bytes → Bool) → Bytes → Bool
  | [], _, _ => false
  | ps :: rest, k, bs => allAccept ps k bs || someAccepts rest k bs

end

/-- Can the pieces match nothing but the empty path? -/
def isVoid (ps : List Piece) : Bool :=
  ps.all fun
    | .branches [] => true
    | _ => false

end Glob

/-- A glob pattern. -/
structure Glob where
  pieces : List Glob.Piece

namespace Glob

/-- Does the glob match the whole path?  A glob that is a leading `**` alone matches everything. -/
def accepts (g : Glob) (path : Bytes) : Bool :=
  match g.pieces with
  | [.leading] => true
  | ps => allAccept ps List.isEmpty path

example : (⟨[.leading, .run, .char '.', .char 'c']⟩ : Glob).accepts (Bytes.ofString "a/b/x.c") = true := by
  decide +kernel

end Glob

end Stencil
