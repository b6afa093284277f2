/-
  Lists of values under distinct keys.

  `insertKey` gives a key a value: in its place when the key is there, else at the end.  So the keys
  stay distinct and keep the order in which they first came.
-/

namespace Stencil

variable {κ α : Type}

section Lookup

variable [BEq κ] [LawfulBEq κ]

/-- Something is found under the keys alone. -/
theorem lookup_isSome_iff_mem {key : κ} {es : List (κ × α)} :
    (es.lookup key).isSome ↔ key ∈ es.map Prod.fst := by
  simp [List.lookup_isSome_iff]

/-- Among distinct keys, the value of a key is the one that stands beside it. -/
theorem lookup_eq_some_iff_mem {key : κ} {value : α} {es : List (κ × α)}
    (h : (es.map Prod.fst).Nodup) : es.lookup key = some value ↔ (key, value) ∈ es := by
  rw [List.lookup_eq_some_iff]
  constructor
  · rintro ⟨before, after, rfl, -⟩
    simp
  · intro hmem
    obtain ⟨before, after, rfl⟩ := List.append_of_mem hmem
    refine ⟨before, after, rfl, fun e he => ?_⟩
    rw [List.map_append, List.map_cons, List.nodup_append] at h
    exact bne_iff_ne.mpr fun heq =>
      h.2.2 e.1 (List.mem_map_of_mem he) key List.mem_cons_self heq.symm

end Lookup

variable [DecidableEq κ]

/-- The pairs after `key` got the value `value`. -/
def insertKey (key : κ) (value : α) : List (κ × α) → List (κ × α)
  | [] => [(key, value)]
  | e :: es => if e.1 = key then (key, value) :: es else e :: insertKey key value es

/-- The key is among the keys then, and no other one is new. -/
theorem mem_keys_insertKey {key x : κ} {value : α} {es : List (κ × α)} :
    x ∈ (insertKey key value es).map Prod.fst ↔ x = key ∨ x ∈ es.map Prod.fst := by
  induction es with
  | nil => simp [insertKey]
  | cons e es ih =>
    by_cases h : e.1 = key
    · simp [insertKey, h]
    · simp only [insertKey, h, if_false, List.map_cons, List.mem_cons, ih]
      constructor <;> rintro (h | h | h) <;> simp [h]

/-- No key comes to stand twice. -/
theorem nodup_insertKey {key : κ} {value : α} {es : List (κ × α)}
    (h : (es.map Prod.fst).Nodup) : ((insertKey key value es).map Prod.fst).Nodup := by
  induction es with
  | nil => simp [insertKey]
  | cons e es ih =>
    simp only [List.map_cons, List.nodup_cons] at h
    by_cases he : e.1 = key
    · simp only [insertKey, he, if_true, List.map_cons, List.nodup_cons]
      exact ⟨he ▸ h.1, h.2⟩
    · simp only [insertKey, he, if_false, List.map_cons, List.nodup_cons, mem_keys_insertKey]
      exact ⟨fun hx => hx.elim False.elim h.1, ih h.2⟩

@[simp] theorem lookup_insertKey_self [BEq κ] [LawfulBEq κ] (key : κ) (value : α)
    (es : List (κ × α)) : (insertKey key value es).lookup key = some value := by
  induction es with
  | nil => simp [insertKey]
  | cons e es ih =>
    obtain ⟨k, v⟩ := e
    by_cases h : k = key
    · simp [insertKey, h]
    · simp [insertKey, h, List.lookup_cons, beq_eq_false_iff_ne.mpr (Ne.symm h), ih]

/-- The other keys keep their values. -/
theorem lookup_insertKey_of_ne [BEq κ] [LawfulBEq κ] {key x : κ} (hne : x ≠ key) (value : α)
    (es : List (κ × α)) : (insertKey key value es).lookup x = es.lookup x := by
  induction es with
  | nil => simp [insertKey, hne]
  | cons e es ih =>
    obtain ⟨k, v⟩ := e
    by_cases h : k = key
    · simp [insertKey, h, List.lookup_cons, beq_eq_false_iff_ne.mpr hne]
    · simp [insertKey, h, List.lookup_cons, ih]

/-- A new key comes last. -/
theorem insertKey_of_not_mem {key : κ} {value : α} {es : List (κ × α)}
    (h : key ∉ es.map Prod.fst) : insertKey key value es = es ++ [(key, value)] := by
  induction es with
  | nil => rfl
  | cons e es ih =>
    rw [List.map_cons, List.mem_cons, not_or] at h
    simp [insertKey, Ne.symm h.1, ih h.2]

end Stencil
