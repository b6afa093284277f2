/-
  The longest rule first: is it the most specific one?

  Rules are put in order by the length of their texts as they are written.  What they look for is the key:
  a `./` at the start of the text is not part of it.

  1. **The longest text is applied.**  Of the rules that cover a path, it is the one with the longest text,
     and of texts of one length the first that was given (`applied?_sortLongest_iff`).
  2. **The longest key is another matter.**  A text is two bytes longer than its key if it is dotted, that
     is, if it starts with `./`, and as long as its key if not (`size_old`).  So a rule that is not dotted
     is the most specific one wherever it is applied.  A dotted rule can stand before one that is not: one
     with the same key that was given first, or one whose key is longer by one or two bytes.  Only then
     is it not the most specific one (`mostSpecific_iff`).

  Keys that cover one path are starts of its text, so two of one length are the same.
-/
import Stencil.Proofs.Rename.Segments

namespace Stencil

namespace RenameRule

/-! ## The length of a key -/

/-- The number of bytes that the rule looks for. -/
def keySize (r : RenameRule) : Nat := (Bytes.ofChars r.key).length

/-- Both slashes are written as one byte. -/
theorem length_ofChars_forwardSlashChars (cs : List Char) :
    (Bytes.ofChars (forwardSlashChars cs)).length = (Bytes.ofChars cs).length := by
  induction cs with
  | nil => rfl
  | cons c cs ih =>
    have hone : (String.utf8EncodeChar (if c = '\\' then '/' else c)).length =
        (String.utf8EncodeChar c).length := by
      split
      · rename_i hc
        rw [hc]
        rfl
      · rfl
    show (Bytes.ofChars (_ :: forwardSlashChars cs)).length = _
    rw [Bytes.ofChars_cons, Bytes.ofChars_cons, List.length_append, List.length_append, ih, hone]

theorem size_old (r : RenameRule) :
    r.old.utf8ByteSize = r.keySize + if r.isDotted then 2 else 0 := by
  rw [← Bytes.length_ofString, Bytes.ofString, ← length_ofChars_forwardSlashChars,
    forwardSlashChars_old, keySize, Bytes.ofChars_append, List.length_append, Nat.add_comm]
  congr 1
  split <;> rfl

end RenameRule

/-! ## The rule that is applied -/

section

variable {rules : List RenameRule} {path : String} {q r : RenameRule}

/-- Of the rules that cover the path, it has the longest text, and it is the first one of its length. -/
structure LongestText (rules : List RenameRule) (path : String) (r : RenameRule) : Prop where
  longest : ∀ q ∈ rules, q.Covers path → q.old.utf8ByteSize ≤ r.old.utf8ByteSize
  first : (rules.find? fun q => q.Covers path ∧ q.old.utf8ByteSize = r.old.utf8ByteSize) = some r

/-- Of the rules that cover the path, it has the longest key, and it is the first one with that key. -/
structure MostSpecific (rules : List RenameRule) (path : String) (r : RenameRule) : Prop where
  covers : r.Covers path
  longest : ∀ q ∈ rules, q.Covers path → q.keySize ≤ r.keySize
  first : (rules.find? fun q => q.key = r.key) = some r

namespace LongestText

theorem mem (h : LongestText rules path r) : r ∈ rules := List.mem_of_find?_eq_some h.first

/-- The rule with the longest text covers the path. -/
theorem covers (h : LongestText rules path r) : r.Covers path :=
  (of_decide_eq_true (List.find?_eq_some_iff_append.mp h.first).1).1

/-- There is one rule with the longest text: of two the one that was given first. -/
theorem unique (h : LongestText rules path r) (h' : LongestText rules path q) : r = q := by
  have hsize : r.old.utf8ByteSize = q.old.utf8ByteSize :=
    Nat.le_antisymm (h'.longest r h.mem h.covers) (h.longest q h'.mem h'.covers)
  have hfirst := h.first
  rw [hsize, h'.first] at hfirst
  exact (Option.some.inj hfirst).symm

end LongestText

/-- **The longest text is applied.** -/
theorem applied?_sortLongest_iff :
    applied? (RenameRule.sortLongest rules) path = some r ↔ LongestText rules path r := by
  have hsorted := longestFirst_sortBy (fun r : RenameRule => r.old.utf8ByteSize) rules
  have happlies : ∀ {a}, applied? (RenameRule.sortLongest rules) path = some a →
      LongestText rules path a := by
    intro a ha
    rw [applied?_eq] at ha
    refine ⟨fun b hb hcovers => ?_, ?_⟩
    · exact hsorted.le_of_find? ha (hsorted.perm.mem_iff.mpr hb) (decide_eq_true hcovers)
    · have hties := hsorted.find?_ties ha
      rw [List.find?_filter] at hties
      simpa [and_comm] using hties
  refine ⟨happlies, ?_⟩
  intro h
  have hsome : (applied? (RenameRule.sortLongest rules) path).isSome := by
    rw [applied?_eq, List.find?_isSome]
    exact ⟨r, hsorted.perm.mem_iff.mpr h.mem, decide_eq_true h.covers⟩
  obtain ⟨a, ha⟩ := Option.isSome_iff_exists.mp hsome
  rw [ha, h.unique (happlies ha)]

/-- The first members that satisfy two conditions are the same if each satisfies both. -/
theorem eq_of_find?_eq {α : Type} {p p' : α → Bool} {xs : List α} {a b : α}
    (ha : xs.find? p = some a) (hb : xs.find? p' = some b) (hpb : p b = true) (hpa : p' a = true) :
    a = b := by
  induction xs with
  | nil => cases ha
  | cons x xs ih =>
    rw [List.find?_cons] at ha hb
    cases hx : p x with
    | true =>
      rw [hx] at ha
      obtain rfl := Option.some.inj ha
      rw [hpa] at hb
      exact Option.some.inj hb
    | false =>
      rw [hx] at ha
      cases hx' : p' x with
      | true =>
        rw [hx'] at hb
        obtain rfl := Option.some.inj hb
        rw [hpb] at hx
        cases hx
      | false =>
        rw [hx'] at hb
        exact ih ha hb

/-- Rules with the same key cover the same paths. -/
theorem covers_of_key_eq (h : r.Covers path) (hkey : q.key = r.key) : q.Covers path := by
  unfold RenameRule.Covers
  rw [hkey]
  exact h

/-- **When the longest text has the longest key.**  Only a dotted rule can stand before one with a longer
    key, or before one with the same key that was given first, and only if that one is not dotted. -/
theorem mostSpecific_iff (h : LongestText rules path r) : MostSpecific rules path r ↔
    (r.isDotted = true →
      (∀ q ∈ rules, q.Covers path → q.isDotted = false → q.keySize ≤ r.keySize) ∧
      ∀ q, (rules.find? fun q => q.key = r.key) = some q → q.isDotted = true) := by
  constructor
  · intro hspecific hdotted
    refine ⟨fun q hq hcovers _ => hspecific.longest q hq hcovers, ?_⟩
    intro q hq
    rw [hspecific.first] at hq
    exact Option.some.inj hq ▸ hdotted
  · intro hcond
    have hbound : ∀ q ∈ rules, q.Covers path →
        (q.keySize + if q.isDotted then 2 else 0) ≤ r.keySize + if r.isDotted then 2 else 0 := by
      intro q hq hcovers
      rw [← q.size_old, ← r.size_old]
      exact h.longest q hq hcovers
    refine ⟨h.covers, ?_, ?_⟩
    · intro q hq hcovers
      have hle := hbound q hq hcovers
      cases hr : r.isDotted with
      | false =>
        rw [hr, if_neg Bool.false_ne_true] at hle
        omega
      | true =>
        cases hq' : q.isDotted with
        | false => exact (hcond hr).1 q hq hcovers hq'
        | true =>
          rw [hr, hq'] at hle
          omega
    · -- the first rule with the key is written like `r`, so it is `r`
      have hsome : (rules.find? fun q => q.key = r.key).isSome :=
        List.find?_isSome.mpr ⟨r, h.mem, decide_eq_true rfl⟩
      obtain ⟨q, hq⟩ := Option.isSome_iff_exists.mp hsome
      have hkey : q.key = r.key := of_decide_eq_true (List.find?_eq_some_iff_append.mp hq).1
      have hcovers := covers_of_key_eq h.covers hkey
      have hsize : q.keySize = r.keySize := congrArg (fun key => (Bytes.ofChars key).length) hkey
      have hle := hbound q (List.mem_of_find?_eq_some hq) hcovers
      have halike : q.isDotted = r.isDotted := by
        cases hr : r.isDotted with
        | false =>
          rw [Bool.eq_false_iff]
          intro hq'
          rw [hr, hq', if_pos rfl, if_neg Bool.false_ne_true] at hle
          omega
        | true => exact (hcond hr).2 q hq
      have hwritten : q.old.utf8ByteSize = r.old.utf8ByteSize := by
        rw [q.size_old, r.size_old, hsize, halike]
      rw [hq, eq_of_find?_eq hq h.first (decide_eq_true rfl) (decide_eq_true ⟨hcovers, hwritten⟩)]

end

/-- **What is applied when the longest text comes first.**
    (1) Nothing, exactly if no rule covers the path, and then the path stays.
    (2) Else of the rules that cover the path the one with the longest text, and of those equally long the
        first that was given, and the path is renamed as that rule says.
    (3) It is the most specific one, by its key, unless it is dotted and a rule that is not dotted has a
        longer key, or is the first one with the same key.
    (4) No rule that covers the path has a key that is longer by more than two bytes. -/
theorem sortLongest_applies (rules : List RenameRule) (path : String) :
    ((applied? (RenameRule.sortLongest rules) path = none ↔ ∀ q ∈ rules, ¬ q.Covers path) ∧
      ((∀ q ∈ rules, ¬ q.Covers path) → rename (RenameRule.sortLongest rules) path = path)) ∧
    (∀ r, applied? (RenameRule.sortLongest rules) path = some r ↔ LongestText rules path r) ∧
    ∀ r, LongestText rules path r →
      rename (RenameRule.sortLongest rules) path = r.carry path ∧
      (MostSpecific rules path r ↔
        (r.isDotted = true →
          (∀ q ∈ rules, q.Covers path → q.isDotted = false → q.keySize ≤ r.keySize) ∧
          ∀ q, (rules.find? fun q => q.key = r.key) = some q → q.isDotted = true)) ∧
      ∀ q ∈ rules, q.Covers path → q.keySize ≤ r.keySize + 2 := by
  have hnone : applied? (RenameRule.sortLongest rules) path = none ↔ ∀ q ∈ rules, ¬ q.Covers path := by
    have hperm : (RenameRule.sortLongest rules).Perm rules := sortBy_perm rules
    rw [applied?_eq, List.find?_eq_none]
    simp [hperm.mem_iff]
  refine ⟨⟨hnone, fun h => rename_of_not_applied (hnone.mpr h)⟩, fun r => applied?_sortLongest_iff, ?_⟩
  intro r h
  refine ⟨rename_of_applied (applied?_sortLongest_iff.mpr h), mostSpecific_iff h, ?_⟩
  intro q hq hcovers
  have hle := h.longest q hq hcovers
  rw [q.size_old, r.size_old] at hle
  split at hle <;> split at hle <;> omega

/-- A dotted rule, and one for a folder that the path does not go through. -/
theorem mostSpecific_outside :
    LongestText [⟨"src/app", "one"⟩, ⟨"./src", "two"⟩] "src/main.c" ⟨"./src", "two"⟩ ∧
    MostSpecific [⟨"src/app", "one"⟩, ⟨"./src", "two"⟩] "src/main.c" ⟨"./src", "two"⟩ := by
  have hlongest : LongestText [⟨"src/app", "one"⟩, ⟨"./src", "two"⟩] "src/main.c" ⟨"./src", "two"⟩ :=
    ⟨by decide +kernel, by decide +kernel⟩
  have hspecific := ((sortLongest_applies _ _).2.2 _ hlongest).2.1
  refine ⟨hlongest, hspecific.mpr fun _ => ⟨by decide +kernel, fun q hq => ?_⟩⟩
  have hfirst : ([⟨"src/app", "one"⟩, ⟨"./src", "two"⟩] : List RenameRule).find?
      (fun q => q.key = (RenameRule.mk "./src" "two").key) = some ⟨"./src", "two"⟩ := by decide +kernel
  rw [hfirst] at hq
  rw [← Option.some.inj hq]
  decide

/-- A dotted rule stands before the rule with the same key that was given first, and before one that is as
    long as it is and looks for something inside. -/
theorem not_mostSpecific_dotted :
    (applied? (RenameRule.sortLongest [⟨"src", "one"⟩, ⟨"./src", "two"⟩, ⟨"src/a", "three"⟩])
        "src/main.c" = some ⟨"./src", "two"⟩ ∧
      ¬ MostSpecific [⟨"src", "one"⟩, ⟨"./src", "two"⟩, ⟨"src/a", "three"⟩] "src/main.c"
        ⟨"./src", "two"⟩) ∧
    applied? (RenameRule.sortLongest [⟨"src", "one"⟩, ⟨"./src", "two"⟩, ⟨"src/a", "three"⟩])
        "src/a/x.c" = some ⟨"./src", "two"⟩ ∧
      ¬ MostSpecific [⟨"src", "one"⟩, ⟨"./src", "two"⟩, ⟨"src/a", "three"⟩] "src/a/x.c"
        ⟨"./src", "two"⟩ := by
  refine ⟨⟨by decide +kernel, fun hspecific => ?_⟩, by decide +kernel, fun hspecific => ?_⟩
  · exact absurd hspecific.first (by decide +kernel)
  · have hinside := hspecific.longest ⟨"src/a", "three"⟩ (by decide) (by decide +kernel)
    exact absurd hinside (by decide +kernel)

end Stencil
