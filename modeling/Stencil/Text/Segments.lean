/-
  Paths written as text: segments between slashes.

  A relative path inside a project is a text whose segments stand between slashes.  Patterns and rules
  may be written with backslashes; `forwardSlashes` brings them to the one form that is compared.
-/

namespace Stencil

/-- The characters with every backslash turned into a slash. -/
def forwardSlashChars (cs : List Char) : List Char := cs.map fun c => if c = '\\' then '/' else c

/-- The text with every backslash turned into a slash. -/
def forwardSlashes (s : String) : String := String.ofList (forwardSlashChars s.toList)

/-- The segments between the slashes of a text; a text without slashes is one segment. -/
def segments (cs : List Char) : List (List Char) := cs.splitOn '/'

/-- Segments joined by slashes. -/
def joinSegments (xs : List (List Char)) : List Char := List.intercalate ['/'] xs

/-- The characters without the slashes before them. -/
def dropLeadingSlashes (cs : List Char) : List Char := cs.dropWhile (· == '/')

/-- The characters without the slashes after them. -/
def dropTrailingSlashes (cs : List Char) : List Char := (cs.reverse.dropWhile (· == '/')).reverse

/-- What is joined by a separator: the first piece, and each other piece behind a separator. -/
theorem intercalate_cons_eq {α : Type} (sep : α) (x : List α) (xs : List (List α)) :
    List.intercalate [sep] (x :: xs) = x ++ xs.flatMap (sep :: ·) := by
  induction xs generalizing x with
  | nil => simp
  | cons y ys ih =>
    rw [List.intercalate_cons_cons, ih y]
    simp

example : segments "a//b/".toList = [['a'], [], ['b'], []] := by decide
example : joinSegments [['a'], [], ['b']] = "a//b".toList := by decide

end Stencil
