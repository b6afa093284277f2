/-
  Which variable is taken next.

  The second pass keeps a list of derived variables that wait, in the order of their names, and
  takes one off it in each round.  What it takes depends on the names and sources alone and not on
  any value, so the order is found here, before values come in.

  * `Queue` is the invariant: the list is sorted, it holds derived variables, and with a forced
    variable it holds all of the variable's chain.
  * A round keeps it (`Queue.next`), and takes a variable whose source waits exactly when it takes a
    forced one (`Queue.isReady_next_iff`).  Where none is ready, each one's source waits, so the
    chain of the first one never leaves the list; and a forced variable that waits cannot be
    overtaken by one on its chain, because the first on the chain to be taken is taken while its
    source waits.
-/
import Stencil.Proofs.Resolution.Chain
import Stencil.Proofs.Resolution.Conversation

namespace Stencil.Resolution

open Relation

/-! ## One round -/

/-- What is taken is an element that passes the test, and the others keep their order. -/
theorem takeFirst?_eq_some {α : Type} {test : α → Bool} {xs rest : List α} {x : α}
    (h : takeFirst? test xs = some (x, rest)) :
    test x = true ∧ ∃ before after, xs = before ++ x :: after ∧ rest = before ++ after := by
  induction xs generalizing rest with
  | nil => simp [takeFirst?] at h
  | cons y ys ih =>
    by_cases hy : test y = true
    · obtain ⟨rfl, rfl⟩ : y = x ∧ ys = rest := by simpa [takeFirst?, hy] using h
      exact ⟨hy, [], ys, rfl, rfl⟩
    · simp only [takeFirst?, hy, if_false, Bool.false_eq_true, Option.map_eq_some_iff] at h
      obtain ⟨⟨z, zs⟩, htake, heq⟩ := h
      obtain ⟨rfl, rfl⟩ : z = x ∧ y :: zs = rest := by simpa using heq
      obtain ⟨hz, before, after, rfl, rfl⟩ := ih htake
      exact ⟨hz, y :: before, after, rfl, rfl⟩

/-- Nothing is taken if nothing passes. -/
theorem takeFirst?_eq_none_iff {α : Type} {test : α → Bool} {xs : List α} :
    takeFirst? test xs = none ↔ ∀ x ∈ xs, test x = false := by
  induction xs with
  | nil => simp [takeFirst?]
  | cons y ys ih =>
    by_cases hy : test y = true
    · simp [takeFirst?, hy]
    · simp [takeFirst?, hy, ih]

variable {o : Overrides} {declared : Variables}

/-- A round takes one variable out of the list, and it takes one that is ready if there is any. -/
theorem next_spec (first : String × Variable) (others : List (String × Variable)) :
    (∃ before after, first :: others = before ++ (next first others).1 :: after ∧
      (next first others).2 = before ++ after) ∧
    (isReady (first :: others) (next first others).1 = true ∨
      (∀ e ∈ first :: others, isReady (first :: others) e = false) ∧
        (next first others).1 = first) := by
  cases htake : takeFirst? (isReady (first :: others)) (first :: others) with
  | none =>
    have hnext : next first others = (first, others) := by rw [next, htake]; rfl
    rw [hnext]
    exact ⟨⟨[], others, rfl, rfl⟩, .inr ⟨takeFirst?_eq_none_iff.mp htake, rfl⟩⟩
  | some taken =>
    obtain ⟨entry, waiting⟩ := taken
    have hnext : next first others = (entry, waiting) := by rw [next, htake]; rfl
    obtain ⟨hready, hsplit⟩ := takeFirst?_eq_some htake
    rw [hnext]
    exact ⟨hsplit, .inl hready⟩

/-- A round takes one variable and leaves the others. -/
theorem next_perm (first : String × Variable) (others : List (String × Variable)) :
    (first :: others).Perm ((next first others).1 :: (next first others).2) := by
  obtain ⟨before, after, hlist, hrest⟩ := (next_spec first others).1
  rw [hlist, hrest]
  exact List.perm_middle

/-- The variables that go on waiting keep their order. -/
theorem next_sublist (first : String × Variable) (others : List (String × Variable)) :
    (next first others).2.Sublist (first :: others) := by
  obtain ⟨before, after, hlist, hrest⟩ := (next_spec first others).1
  rw [hlist, hrest]
  exact (List.Sublist.refl before).append (List.sublist_cons_self _ _)

/-- A derived variable is ready when its source does not wait. -/
theorem isReady_iff {waiting : List (String × Variable)} {e : String × Variable} {source : String}
    (h : e.2.source? = some source) :
    isReady waiting e = true ↔ source ∉ waiting.map Prod.fst := by
  simp [isReady, h]

/-! ## The invariant of the list -/

/-- A list of waiting variables. -/
structure Queue (o : Overrides) (declared : Variables) (waiting : List (String × Variable)) : Prop where
  sorted : waiting.Pairwise fun a b => nameLe a.1 b.1 = true
  nodup : (waiting.map Prod.fst).Nodup
  derives : ∀ e ∈ waiting, ∃ source, Derives o declared e.1 e.2 source
  /-- With a forced variable its whole chain waits. -/
  chain : ∀ e ∈ waiting, Forced o declared e.1 →
    ∀ b, ReflTransGen (DerivedFrom o declared) e.1 b → b ∈ waiting.map Prod.fst

namespace Queue

variable {waiting : List (String × Variable)} {first : String × Variable}
  {others : List (String × Variable)}

/-- The source of a forced variable that waits is waiting too. -/
theorem not_isReady_of_forced (h : Queue o declared waiting) {e : String × Variable} (he : e ∈ waiting)
    (hforced : Forced o declared e.1) : isReady waiting e = false := by
  obtain ⟨source, hsource⟩ := h.derives e he
  have hwaits := h.chain e he hforced source (ReflTransGen.single ⟨e.2, hsource⟩)
  rw [← Bool.not_eq_true, isReady_iff hsource.source, not_not]
  exact hwaits

/-- Where nobody is ready, chains stay in the list. -/
theorem mem_of_stuck (h : Queue o declared waiting)
    (hstuck : ∀ e ∈ waiting, isReady waiting e = false) {a b : String}
    (ha : a ∈ waiting.map Prod.fst) (hchain : ReflTransGen (DerivedFrom o declared) a b) :
    b ∈ waiting.map Prod.fst := by
  induction hchain with
  | refl => exact ha
  | tail _ hstep ih =>
    obtain ⟨e, he, rfl⟩ := List.mem_map.mp ih
    obtain ⟨source, hsource⟩ := h.derives e he
    obtain ⟨v, hv⟩ := hstep
    obtain ⟨-, rfl⟩ := hsource.unique hv
    have hready := hstuck e he
    rwa [← Bool.not_eq_true, isReady_iff hsource.source, not_not] at hready

/-- The first one has the least name. -/
theorem nameLe_of_mem (h : Queue o declared (first :: others)) {b : String}
    (hb : b ∈ (first :: others).map Prod.fst) : nameLe first.1 b = true := by
  obtain ⟨e, he, rfl⟩ := List.mem_map.mp hb
  rcases List.mem_cons.mp he with rfl | he
  · exact nameLe_refl _
  · exact (List.pairwise_cons.mp h.sorted).1 e he

/-- Where nobody is ready, the first one is forced. -/
theorem forced_of_stuck (h : Queue o declared (first :: others))
    (hstuck : ∀ e ∈ first :: others, isReady (first :: others) e = false) :
    Forced o declared first.1 := by
  intro b hchain
  have hb := h.mem_of_stuck hstuck (by simp) hchain
  refine ⟨?_, h.nameLe_of_mem hb⟩
  obtain ⟨e, he, rfl⟩ := List.mem_map.mp hb
  obtain ⟨source, hsource⟩ := h.derives e he
  exact ⟨source, e.2, hsource⟩

theorem next_mem : (Resolution.next first others).1 ∈ first :: others :=
  (next_perm first others).mem_iff.mpr (List.mem_cons_self ..)

/-- **A round takes a variable whose source waits exactly when it takes a forced one.** -/
theorem isReady_next_iff (h : Queue o declared (first :: others)) :
    isReady (first :: others) (Resolution.next first others).1 = false ↔
      Forced o declared (Resolution.next first others).1.1 := by
  constructor
  · intro hwaits
    rcases (next_spec first others).2 with hready | ⟨hstuck, hfirst⟩
    · simp [hready] at hwaits
    · rw [hfirst]
      exact h.forced_of_stuck hstuck
  · exact h.not_isReady_of_forced next_mem

/-- A round keeps the invariant. -/
theorem next (h : Queue o declared (first :: others)) :
    Queue o declared (Resolution.next first others).2 where
  sorted := h.sorted.sublist (next_sublist first others)
  nodup := h.nodup.sublist ((next_sublist first others).map Prod.fst)
  derives e he := h.derives e ((next_sublist first others).subset he)
  chain e he hforced b hb := by
    have hmem := (next_sublist first others).subset he
    have hb' := h.chain e hmem hforced b hb
    have hperm := (next_perm first others).map Prod.fst
    -- `e` still waits, so it is not the one that was taken
    have hne : (Resolution.next first others).1.1 ≠ e.1 := by
      intro heq
      have hnodup := hperm.nodup_iff.mp h.nodup
      rw [List.map_cons, List.nodup_cons] at hnodup
      exact hnodup.1 (heq ▸ List.mem_map_of_mem he)
    rcases List.mem_cons.mp (hperm.mem_iff.mp hb') with rfl | hrest
    · exfalso
      rcases (next_spec first others).2 with hready | ⟨hstuck, hfirst⟩
      · -- the source of a ready one does not wait, yet it is on the chain of `e`
        obtain ⟨source, hsource⟩ := h.derives _ next_mem
        have hwaits := h.chain e hmem hforced source (hb.tail ⟨_, hsource⟩)
        exact (isReady_iff hsource.source).mp hready hwaits
      · -- the first one comes before `e`, and `e` before all on its chain
        rw [hfirst] at hb hne
        exact hne (nameLe_antisymm (h.nameLe_of_mem (List.mem_map_of_mem hmem)) (hforced _ hb).2)
    · exact hrest

end Queue

/-! ## All rounds -/

/-- The variables that the first pass leaves, in the order of their names. -/
def leftOver (o : Overrides) (declared : Variables) : List (String × Variable) :=
  (sortByName declared.entries).filter fun e => !isGiven o e

/-- The first pass leaves exactly the variables that are not overridden and derive from another one. -/
theorem mem_leftOver_iff {e : String × Variable} :
    e ∈ leftOver o declared ↔ ∃ source, Derives o declared e.1 e.2 source := by
  have hgiven : (!isGiven o e) = true ↔
      override? o e.1 = none ∧ ∃ source, e.2.source? = some source := by
    simp [isGiven, Option.isSome_iff_exists]
  rw [leftOver, List.mem_filter, (sortByName_perm declared.entries).mem_iff, hgiven]
  constructor
  · rintro ⟨he, hplain, source, hsource⟩
    exact ⟨source, NameMap.get?_eq_some_iff.mpr he, hplain, hsource⟩
  · rintro ⟨source, he, hplain, hsource⟩
    exact ⟨NameMap.get?_eq_some_iff.mp he, hplain, source, hsource⟩

/-- The same by their names. -/
theorem mem_names_leftOver_iff {a : String} :
    a ∈ (leftOver o declared).map Prod.fst ↔ ∃ b, DerivedFrom o declared a b := by
  rw [List.mem_map]
  constructor
  · rintro ⟨e, he, rfl⟩
    obtain ⟨source, hsource⟩ := mem_leftOver_iff.mp he
    exact ⟨source, e.2, hsource⟩
  · rintro ⟨b, v, hv⟩
    exact ⟨(a, v), mem_leftOver_iff.mpr ⟨b, hv⟩, rfl⟩

theorem nodup_names_sortByName (declared : Variables) :
    ((sortByName declared.entries).map Prod.fst).Nodup :=
  ((sortByName_perm declared.entries).map Prod.fst).nodup_iff.mpr declared.nodup

/-- The invariant holds when the second pass begins. -/
theorem queue_leftOver (o : Overrides) (declared : Variables) :
    Queue o declared (leftOver o declared) where
  sorted := (pairwise_sortByName declared.entries).sublist List.filter_sublist
  nodup := (nodup_names_sortByName declared).sublist (List.filter_sublist.map Prod.fst)
  derives _ he := mem_leftOver_iff.mp he
  chain _ _ hforced b hb := mem_names_leftOver_iff.mpr (hforced b hb).1

/-- A list of variables that wait in some round.  The values do not matter to it; they only decide
    whether a round is the last because its variable has no value. -/
inductive Stage (o : Overrides) (declared : Variables) : List (String × Variable) → Prop where
  | start : Stage o declared (leftOver o declared)
  | next {first : String × Variable} {others : List (String × Variable)}
      (h : Stage o declared (first :: others)) : Stage o declared (next first others).2

/-- **The invariant holds in every round**, by induction on the rounds before it. -/
theorem Stage.queue {waiting : List (String × Variable)} (h : Stage o declared waiting) :
    Queue o declared waiting := by
  induction h with
  | start => exact queue_leftOver o declared
  | next _ ih => exact ih.next

/-- Every variable that waits is taken in some round, by induction on the number of those that wait. -/
theorem Stage.exists_taken {waiting : List (String × Variable)} {e : String × Variable}
    (h : Stage o declared waiting) (he : e ∈ waiting) :
    ∃ first others, Stage o declared (first :: others) ∧ (Resolution.next first others).1 = e := by
  induction hlength : waiting.length generalizing waiting with
  | zero =>
    rw [List.length_eq_zero_iff.mp hlength] at he
    exact absurd he List.not_mem_nil
  | succ n ih =>
    match waiting with
    | first :: others =>
      have hperm := next_perm first others
      rcases List.mem_cons.mp (hperm.mem_iff.mp he) with htaken | hwaits
      · exact ⟨first, others, h, htaken.symm⟩
      · refine ih h.next hwaits ?_
        have hlengths := hperm.length_eq
        rw [hlength, List.length_cons] at hlengths
        omega

end Stencil.Resolution
