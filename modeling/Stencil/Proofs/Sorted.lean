/-
  What is known of sorting.

  The sort of the program is the insertion sort of the library (`sortBy_eq_insertionSort`), so what is
  known of that one is known of it: the members stay (`sortBy_perm`), they come in order
  (`pairwise_sortBy`), and what stood in order among them stands so still (`sublist_sortBy`).
-/
import Mathlib.Data.List.Sort
import Mathlib.Data.List.TakeDrop
import Stencil.Sorted

namespace Stencil

variable {α β : Type} {r : α → α → Prop} [DecidableRel r]

/-- A member is put where the library puts it: behind those that it may not stand before. -/
theorem insertBy_eq_orderedInsert : insertBy r = List.orderedInsert r := by
  funext x ys
  rw [insertBy, List.span_eq_takeWhile_dropWhile, List.orderedInsert_eq_take_drop]

/-- **The sort is insertion sort.** -/
theorem sortBy_eq_insertionSort (xs : List α) : sortBy r xs = xs.insertionSort r := by
  rw [sortBy, insertBy_eq_orderedInsert, List.insertionSort]

/-- Sorting keeps the members. -/
theorem sortBy_perm (xs : List α) : (sortBy r xs).Perm xs :=
  sortBy_eq_insertionSort (r := r) xs ▸ List.perm_insertionSort r xs

/-- Any two members must be comparable for the members to come in order. -/
theorem pairwise_sortBy (total : ∀ a b, r a b ∨ r b a) (trans : ∀ a b c, r a b → r b c → r a c)
    (xs : List α) : (sortBy r xs).Pairwise r := by
  have : Std.Total r := ⟨total⟩
  have : IsTrans α r := ⟨trans⟩
  exact sortBy_eq_insertionSort (r := r) xs ▸ List.pairwise_insertionSort r xs

/-- What is in order stays as it is. -/
theorem sortBy_of_pairwise {xs : List α} (h : xs.Pairwise r) : sortBy r xs = xs :=
  (sortBy_eq_insertionSort xs).trans h.insertionSort_eq

/-- The sort is stable: members that stand in order keep their order. -/
theorem sublist_sortBy {xs ys : List α} (hxs : xs.Pairwise r) (h : xs.Sublist ys) :
    xs.Sublist (sortBy r ys) :=
  sortBy_eq_insertionSort (r := r) ys ▸ List.sublist_insertionSort hxs h

/-- What is sorted by its images can be sorted before the images are taken. -/
theorem sortBy_map (f : β → α) (xs : List β) :
    sortBy r (xs.map f) = (sortBy (fun x y => r (f x) (f y)) xs).map f := by
  rw [sortBy_eq_insertionSort, sortBy_eq_insertionSort,
    List.map_insertionSort _ r f xs fun _ _ _ _ => Iff.rfl]

end Stencil
