/-
  Which rename rule is applied to a path.

  Rules are tried in their order, and the first that matches is applied (`applied?`); what it makes of the
  path is what the path is renamed to (`renamed?_of_applied`).

  In a generation from a source tree the rules given and the derived ones are merged, the longest first.
  The first match in a sorted list is a longest one among the matches (`LongestFirst.le_of_find?`), and
  sorting keeps the order of those of one length.  So where a rule given matches, a derived rule is applied
  only if it is longer than each of the rules given that match (`LongestFirst.find?_append`).
-/
import Stencil.Proofs.Naming.Merged

namespace Stencil

/-! ## The first match in a sorted list -/

section Sorting

variable {α : Type} {size : α → Nat} {given first second sorted : List α} {p : α → Bool} {a b : α}

/-- No match is longer than the first one. -/
theorem LongestFirst.le_of_find? (h : LongestFirst size given sorted) (ha : sorted.find? p = some a)
    (hb : b ∈ sorted) (hp : p b = true) : size b ≤ size a := by
  obtain ⟨-, before, after, hsplit, hbefore⟩ := List.find?_eq_some_iff_append.mp ha
  have hdescending := h.descending
  rw [hsplit] at hb hdescending
  rcases List.mem_append.mp hb with hb | hb
  · have hnot := hbefore b hb
    rw [hp] at hnot
    cases hnot
  rcases List.mem_cons.mp hb with rfl | hb
  · exact Nat.le_refl _
  · exact (List.pairwise_cons.mp (List.pairwise_append.mp hdescending).2.1).1 b hb

/-- The first match is the first one among the members of its size, as they were given. -/
theorem LongestFirst.find?_ties (h : LongestFirst size given sorted) (ha : sorted.find? p = some a) :
    (given.filter fun x => size x = size a).find? p = some a := by
  rw [← h.ties, List.find?_filter]
  obtain ⟨hp, before, after, hsplit, hbefore⟩ := List.find?_eq_some_iff_append.mp ha
  refine List.find?_eq_some_iff_append.mpr ⟨by simp [hp], before, after, hsplit, ?_⟩
  intro b hb
  simp [hbefore b hb]

/-- **The first list keeps its precedence.**  Where one of its members matches, a member of the second
    list comes first only if it is greater than each of those that match. -/
theorem LongestFirst.find?_append (h : LongestFirst size (first ++ second) sorted)
    (hmatch : ∃ b ∈ first, p b = true) : ∃ a, sorted.find? p = some a ∧
      (a ∈ first ∨ (a ∈ second ∧ ∀ b ∈ first, p b = true → size b < size a)) := by
  have hsorted : ∀ b ∈ first, b ∈ sorted :=
    fun b hb => h.perm.mem_iff.mpr (List.mem_append_left second hb)
  obtain ⟨b, hb, hpb⟩ := hmatch
  obtain ⟨a, ha⟩ := Option.isSome_iff_exists.mp (List.find?_isSome.mpr ⟨b, hsorted b hb, hpb⟩)
  refine ⟨a, ha, ?_⟩
  by_cases hfirst : a ∈ first
  · exact .inl hfirst
  · have hsecond : a ∈ second :=
      (List.mem_append.mp (h.perm.mem_iff.mp (List.mem_of_find?_eq_some ha))).resolve_left hfirst
    refine .inr ⟨hsecond, ?_⟩
    intro c hc hpc
    refine Nat.lt_of_le_of_ne (h.le_of_find? ha (hsorted c hc) hpc) fun heq => hfirst ?_
    -- a match of the size of `a` in the first list, in which the first such match would then lie
    have hties := h.find?_ties ha
    rw [List.filter_append, List.find?_append] at hties
    have hc' : c ∈ first.filter fun x => size x = size a := List.mem_filter.mpr ⟨hc, by simp [heq]⟩
    obtain ⟨d, hd⟩ := Option.isSome_iff_exists.mp (List.find?_isSome.mpr ⟨c, hc', hpc⟩)
    rw [hd, Option.some_or] at hties
    obtain rfl := Option.some.inj hties
    exact (List.mem_filter.mp (List.mem_of_find?_eq_some hd)).1

end Sorting

/-! ## The rule that is applied -/

/-- Does the rule match the path? -/
def RenameRule.matchesPath (r : RenameRule) (path : String) : Bool := (r.renamed? path.toList).isSome

/-- The rule that is applied to a path: the first one that matches. -/
def applied? (rules : List RenameRule) (path : String) : Option RenameRule :=
  rules.find? (·.matchesPath path)

/-- A path is renamed as the rule says that is applied to it. -/
theorem renamed?_of_applied {rules : List RenameRule} {path : String} {r : RenameRule}
    (h : applied? rules path = some r) : r.renamed? path.toList = some (rename rules path).toList := by
  obtain ⟨hmatch, before, after, rfl, hbefore⟩ := List.find?_eq_some_iff_append.mp h
  obtain ⟨new, hnew⟩ := Option.isSome_iff_exists.mp hmatch
  have hnone : before.findSome? (·.renamed? path.toList) = none := by
    rw [List.findSome?_eq_none_iff]
    intro q hq
    have hnot := hbefore q hq
    rw [RenameRule.matchesPath] at hnot
    simpa using hnot
  rw [rename, renameChars, List.findSome?_append, hnone, Option.none_or, List.findSome?_cons, hnew]
  simp

/-- Is the rule that is applied to a path one of those given, or a derived one whose text is longer in
    bytes than that of every rule given that matches? -/
def Rules.KeepPrecedence (given derived : Rules) (path : String) : Prop :=
  let renames := RenameRule.sortLongest (given.extend derived).renames
  ∃ r, applied? renames path = some r ∧ r.renamed? path.toList = some (rename renames path).toList ∧
    (r ∈ given.renames ∨ (r ∈ derived.renames ∧ ∀ u ∈ given.renames, u.matchesPath path = true →
      u.old.utf8ByteSize < r.old.utf8ByteSize))

/-- **The rules given keep their precedence over derived ones.**  Merged, they are put longest first, and
    those given come first among equal lengths.  So they keep it wherever one of them matches. -/
theorem keepPrecedence_extend (given derived : Rules) :
    given.Merged derived (given.extend derived) ∧
    ∀ path : String, (∃ u ∈ given.renames, u.matchesPath path = true) →
      given.KeepPrecedence derived path := by
  have hmerged := given.merged_extend derived
  refine ⟨hmerged, ?_⟩
  intro path hmatch
  unfold Rules.KeepPrecedence
  rw [hmerged.sortLongest_renames]
  obtain ⟨r, hr, hprecedes⟩ := hmerged.renames.find?_append hmatch
  exact ⟨r, hr, renamed?_of_applied hr, hprecedes⟩

/-- A rule given for the old name itself, for which there is a derived rule as well. -/
theorem keepPrecedence_myBank :
    (∃ u ∈ [⟨"MyBank", "Legacy"⟩], RenameRule.matchesPath u "MyBank/a.txt" = true) ∧
    Rules.KeepPrecedence ⟨[], [⟨"MyBank", "Legacy"⟩]⟩ (deriveRules "MyBank" "NewApp")
      "MyBank/a.txt" := by
  have hmatch : ∃ u ∈ [⟨"MyBank", "Legacy"⟩], RenameRule.matchesPath u "MyBank/a.txt" = true :=
    ⟨_, List.mem_singleton_self _, by decide⟩
  exact ⟨hmatch, (keepPrecedence_extend ⟨[], [⟨"MyBank", "Legacy"⟩]⟩
    (deriveRules "MyBank" "NewApp")).2 "MyBank/a.txt" hmatch⟩

example : rename (RenameRule.sortLongest (Rules.extend ⟨[], [⟨"MyBank", "Legacy"⟩]⟩
    (deriveRules "MyBank" "NewApp")).renames) "MyBank/a.txt" = "Legacy/a.txt" := by decide +kernel

end Stencil
