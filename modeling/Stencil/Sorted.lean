/-
  Sorting lists whose order is part of an answer.

  `sortBy` is the insertion sort of the library (`sortBy_eq_insertionSort`, in the proofs): it is stable,
  and it computes by recursion on the list, so that a sorted list can be evaluated in a proof;
  `List.mergeSort` does not reduce there.  The lists here are short.
-/

namespace Stencil

variable {α : Type} (r : α → α → Prop) [DecidableRel r]

/-- Puts `x` before the first member that it may stand before. -/
def insertBy (x : α) (ys : List α) : List α :=
  let (before, behind) := ys.span fun y => ¬ r x y
  before ++ x :: behind

/-- The members in increasing order; members that may stand either way keep their order. -/
def sortBy (xs : List α) : List α := xs.foldr (insertBy r) []

/-- The order of descending sizes. -/
abbrev LongerFirst (size : α → Nat) (a b : α) : Prop := size b ≤ size a

example : sortBy (LongerFirst List.length) [[1], [2, 2], [3]] = [[2, 2], [1], [3]] := by decide

end Stencil
