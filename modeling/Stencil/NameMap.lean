/-
  Values under distinct names, in the order in which the names were first given.

  Variables are declared in an order that a written configuration shows, so a map of them is a list of
  pairs and not a tree.  That no name stands in it twice is part of the type: giving a name again
  replaces its value and keeps its place.
-/
import Stencil.Keyed

namespace Stencil

/-- A list of named values in which no name stands twice. -/
structure NameMap (α : Type) where
  entries : List (String × α)
  nodup : (entries.map Prod.fst).Nodup
  deriving DecidableEq

namespace NameMap

variable {α : Type}

/-- The map without names. -/
def empty : NameMap α := ⟨[], List.nodup_nil⟩

instance : EmptyCollection (NameMap α) := ⟨empty⟩

instance : Inhabited (NameMap α) := ⟨empty⟩

/-- The names, in order. -/
def names (m : NameMap α) : List String := m.entries.map Prod.fst

/-- The value of a name. -/
def get? (m : NameMap α) (name : String) : Option α := m.entries.lookup name

/-- Has the name a value? -/
def has (m : NameMap α) (name : String) : Bool := m.names.contains name

/-- The number of names. -/
def size (m : NameMap α) : Nat := m.entries.length

/-- Gives a name a value. -/
def insert (m : NameMap α) (name : String) (value : α) : NameMap α :=
  ⟨insertKey name value m.entries, nodup_insertKey m.nodup⟩

/-- The map of some pairs: of a repeated name the last value, at its first place. -/
def ofList (pairs : List (String × α)) : NameMap α :=
  pairs.foldl (fun m p => m.insert p.1 p.2) empty

/-! ## What a map holds -/

/-- A name has the value that stands beside it. -/
theorem get?_eq_some_iff {m : NameMap α} {name : String} {value : α} :
    m.get? name = some value ↔ (name, value) ∈ m.entries :=
  lookup_eq_some_iff_mem m.nodup

/-- The names with a value are those of the map. -/
theorem get?_isSome_iff {m : NameMap α} {name : String} : (m.get? name).isSome ↔ name ∈ m.names :=
  lookup_isSome_iff_mem

theorem has_iff {m : NameMap α} {name : String} : m.has name = true ↔ name ∈ m.names := by
  simp [has]

/-- A name is in the map if it has a value there. -/
theorem has_eq_true_iff_exists {m : NameMap α} {name : String} :
    m.has name = true ↔ ∃ value, m.get? name = some value := by
  rw [has_iff, ← get?_isSome_iff, Option.isSome_iff_exists]

/-- A map with the names of another one has a value for each of its names. -/
theorem exists_get?_of_names_perm {β : Type} {m : NameMap α} {m' : NameMap β} {name : String}
    {value : β} (h : m.names.Perm m'.names) (hvalue : m'.get? name = some value) :
    ∃ x, m.get? name = some x := by
  rw [← Option.isSome_iff_exists, get?_isSome_iff, h.mem_iff, ← get?_isSome_iff, hvalue]
  rfl

/-- The order of the entries does not matter to the values. -/
theorem get?_of_perm {m m' : NameMap α} (h : m.entries.Perm m'.entries) (name : String) :
    m.get? name = m'.get? name := by
  ext value
  rw [get?_eq_some_iff, get?_eq_some_iff, h.mem_iff]

/-- Pairs with distinct names are the map they make. -/
theorem entries_ofList {pairs : List (String × α)} (h : (pairs.map Prod.fst).Nodup) :
    (ofList pairs).entries = pairs := by
  suffices hfold : ∀ (m : NameMap α), ((m.entries ++ pairs).map Prod.fst).Nodup →
      (pairs.foldl (fun m p => m.insert p.1 p.2) m).entries = m.entries ++ pairs by
    exact hfold empty (by simpa [empty] using h)
  clear h
  induction pairs with
  | nil => simp
  | cons p pairs ih =>
    intro m hm
    have hnew : p.1 ∉ m.entries.map Prod.fst := by
      rw [List.map_append, List.map_cons] at hm
      exact fun hmem => (List.nodup_append.mp hm).2.2 _ hmem _ (List.mem_cons_self ..) rfl
    have hinsert : (m.insert p.1 p.2).entries = m.entries ++ [p] := insertKey_of_not_mem hnew
    rw [List.foldl_cons, ih]
    · simp [hinsert]
    · simpa [hinsert] using hm

example : (ofList [("b", 1), ("a", 2), ("b", 3)]).entries = [("b", 3), ("a", 2)] := by decide

end NameMap

end Stencil
