/-
  Rename rules, segment by segment.

  A rule is tried on the characters of a path: they have to begin with its key, and then end or go on with
  a slash.  What it does is a matter of segments.

  1. **A rule covers leading segments.**  The key and a slash stand at the start of a path exactly if the
     segments of the key are leading segments of the path, whichever of them are empty
     (`segments_isPrefix_iff`).  So what is left of the path are whole segments, and they stay
     (`renamed?_eq`).
  2. **Entries follow their folder.**  The segments of an entry are those of its folder and one or more of
     its own.  A rule that covers the entry covers the folder, unless it names something inside
     (`covers_entry_iff`).  Where no rule does, the folder and its entry are renamed by the same rule, in
     whatever order the rules are.
-/
import Mathlib.Data.List.Basic
import Mathlib.Data.List.Find
import Stencil.Proofs.Rename.Applied

namespace Stencil

/-! ## Segments of a text -/

/-- A slash parts the segments before it from those behind it. -/
theorem segments_append (cs ds : List Char) :
    segments (cs ++ '/' :: ds) = segments cs ++ segments ds :=
  List.splitOnP_append_cons cs ds (by decide)

theorem segments_of_not_mem {cs : List Char} (h : '/' ∉ cs) : segments cs = [cs] :=
  List.splitOn_eq_singleton h

/-- Segments are put together again with slashes. -/
theorem joinSegments_segments (cs : List Char) : joinSegments (segments cs) = cs :=
  List.intercalate_splitOn '/'

theorem segments_ne_nil (cs : List Char) : segments cs ≠ [] := List.splitOn_ne_nil _ _

/-- Segments behind others are written behind a slash each. -/
theorem joinSegments_append {xs : List (List Char)} (hne : xs ≠ []) (ys : List (List Char)) :
    joinSegments (xs ++ ys) = joinSegments xs ++ ys.flatMap ('/' :: ·) := by
  obtain ⟨x, zs, rfl⟩ := List.exists_cons_of_ne_nil hne
  rw [List.cons_append, joinSegments, joinSegments, intercalate_cons_eq,
    intercalate_cons_eq, List.flatMap_append, List.append_assoc]

/-- With a slash before each segment, the text has one at its start. -/
theorem flatMap_segments (cs : List Char) : (segments cs).flatMap ('/' :: ·) = '/' :: cs := by
  have hone : [([] : List Char)] ≠ [] := List.cons_ne_nil _ _
  have hjoined := joinSegments_append hone (segments cs)
  have hslash : [[]] ++ segments cs = segments ('/' :: cs) := (segments_append [] cs).symm
  rw [hslash, joinSegments_segments] at hjoined
  exact hjoined.symm

/-- A text whose segments begin with those of another one begins with it, and goes on with whole
    segments. -/
theorem eq_append_of_segments {key path : List Char} {rest : List (List Char)}
    (h : segments path = segments key ++ rest) : path = key ++ rest.flatMap ('/' :: ·) := by
  rw [← joinSegments_segments path, h, joinSegments_append (segments_ne_nil key),
    joinSegments_segments]

/-- **A text and a slash at the start are leading segments**, whichever of them are empty. -/
theorem segments_isPrefix_iff {key path : List Char} :
    segments key <+: segments path ↔ path = key ∨ ∃ rest, path = key ++ '/' :: rest := by
  constructor
  · rintro ⟨rest, hrest⟩
    have hpath := eq_append_of_segments hrest.symm
    cases rest with
    | nil => exact .inl (hpath.trans (List.append_nil key))
    | cons x xs => exact .inr ⟨x ++ xs.flatMap ('/' :: ·), hpath⟩
  · rintro (rfl | ⟨rest, rfl⟩)
    · exact List.prefix_rfl
    · rw [segments_append]
      exact List.prefix_append _ _

/-! ## What a rule does -/

namespace RenameRule

variable {r : RenameRule} {path folder rest : String}

/-- Is the rule written with a `./` before what it looks for? -/
def isDotted (r : RenameRule) : Bool :=
  ['.', '/'].isPrefixOf (forwardSlashChars r.old.toList)

/-- The text of a rule with forward slashes is its key, behind `./` if the rule is dotted. -/
theorem forwardSlashChars_old (r : RenameRule) :
    forwardSlashChars r.old.toList = (if r.isDotted then ['.', '/'] else []) ++ r.key := by
  rw [isDotted, key, ← List.isSome_isPrefixOf?_eq_isPrefixOf]
  cases hstart : ['.', '/'].isPrefixOf? (forwardSlashChars r.old.toList) with
  | none => simp
  | some rest => simpa using (List.isPrefixOf?_eq_some_iff_append_eq.mp hstart).symm

/-- Are the segments of the key leading segments of the path?  A rule without a key covers nothing. -/
def Covers (r : RenameRule) (path : String) : Prop :=
  r.key ≠ [] ∧ segments r.key <+: segments path.toList

instance (r : RenameRule) (path : String) : Decidable (r.Covers path) :=
  inferInstanceAs (Decidable (_ ∧ _))

/-- The new text, and behind it the segments of the path that the key leaves, each behind a slash. -/
def carry (r : RenameRule) (path : String) : String :=
  String.ofList (forwardSlashChars r.new.toList ++
    ((segments path.toList).drop (segments r.key).length).flatMap ('/' :: ·))

/-- **A rule matches what it covers, and carries the other segments over.** -/
theorem renamed?_eq (r : RenameRule) (path : String) :
    r.renamed? path.toList = if r.Covers path then some (r.carry path).toList else none := by
  by_cases hcovers : r.Covers path
  · obtain ⟨hkey, rest, hrest⟩ := hcovers
    have hbehind : r.key.isPrefixOf? path.toList = some (rest.flatMap ('/' :: ·)) :=
      List.isPrefixOf?_eq_some_iff_append_eq.mpr (eq_append_of_segments hrest.symm).symm
    have hleft : (segments path.toList).drop (segments r.key).length = rest := by
      rw [← hrest, List.drop_left]
    rw [renamed?, if_neg (by simpa using hkey), hbehind, if_pos ⟨hkey, rest, hrest⟩, carry, hleft,
      String.toList_ofList]
    -- nothing is left, or a slash follows
    cases rest with
    | nil => simp
    | cons x xs => rfl
  · rw [renamed?, if_neg hcovers]
    split
    · rfl
    · rename_i hkey
      have hnot : ¬ segments r.key <+: segments path.toList :=
        fun hleads => hcovers ⟨by simpa using hkey, hleads⟩
      rw [segments_isPrefix_iff, not_or] at hnot
      split
      · rename_i hbehind
        rw [List.isPrefixOf?_eq_some_iff_append_eq, List.append_nil] at hbehind
        exact absurd hbehind.symm hnot.1
      · rename_i rest hbehind
        exact absurd ⟨rest, (List.isPrefixOf?_eq_some_iff_append_eq.mp hbehind).symm⟩ hnot.2
      · rfl

/-- A rule matches exactly what it covers. -/
theorem matchesPath_iff : r.matchesPath path = true ↔ r.Covers path := by
  rw [matchesPath, renamed?_eq]
  split <;> simp_all

/-- Is it something inside a folder that the rule looks for, on the way that the rest of a path takes
    there?  Then its key has the segments of the folder and leading segments of the rest. -/
def LeadsInto (r : RenameRule) (folder rest : String) : Prop :=
  ∃ lead, lead ≠ [] ∧ lead <+: segments rest.toList ∧
    segments r.key = segments folder.toList ++ lead

/-- An entry of a folder has the segments of the folder and its own. -/
theorem segments_entry (folder rest : String) : segments (folder ++ "/" ++ rest).toList =
    segments folder.toList ++ segments rest.toList := by
  rw [String.toList_append, String.toList_append, List.append_assoc]
  exact segments_append folder.toList rest.toList

/-- What lies on the way to an entry, and further than the folder. -/
theorem leadsInto_iff : r.LeadsInto folder rest ↔ segments folder.toList <+: segments r.key ∧
    segments r.key ≠ segments folder.toList ∧
    segments r.key <+: segments (folder ++ "/" ++ rest).toList := by
  rw [segments_entry]
  constructor
  · rintro ⟨lead, hne, hleads, hkey⟩
    rw [hkey]
    refine ⟨List.prefix_append _ _, ?_, (List.prefix_append_right_inj _).mpr hleads⟩
    simpa using hne
  · rintro ⟨⟨lead, hlead⟩, hne, hleads⟩
    rw [← hlead] at hne hleads
    exact ⟨lead, by simpa using hne, (List.prefix_append_right_inj _).mp hleads, hlead.symm⟩

instance (r : RenameRule) (folder rest : String) : Decidable (r.LeadsInto folder rest) :=
  decidable_of_iff _ leadsInto_iff.symm

/-- **A rule covers an entry with its folder, or it looks for something inside.** -/
theorem covers_entry_iff :
    r.Covers (folder ++ "/" ++ rest) ↔ r.Covers folder ∨ r.LeadsInto folder rest := by
  rw [leadsInto_iff]
  constructor
  · rintro ⟨hkey, hleads⟩
    have hfolder : segments folder.toList <+: segments (folder ++ "/" ++ rest).toList :=
      segments_entry folder rest ▸ List.prefix_append _ _
    rcases List.prefix_or_prefix_of_prefix hleads hfolder with habove | hinside
    · exact .inl ⟨hkey, habove⟩
    · by_cases hsame : segments r.key = segments folder.toList
      · exact .inl ⟨hkey, hsame ▸ List.prefix_rfl⟩
      · exact .inr ⟨hinside, hsame, hleads⟩
  · rintro (⟨hkey, hleads⟩ | ⟨hinside, hne, hleads⟩)
    · exact ⟨hkey, segments_entry folder rest ▸ hleads.trans (List.prefix_append _ _)⟩
    · refine ⟨fun hkey => hne ?_, hleads⟩
      -- the segments of the empty key are one, and the folder has no fewer
      have hfolder := List.length_pos_iff.mpr (segments_ne_nil folder.toList)
      have hone : (segments r.key).length = 1 := by rw [hkey]; rfl
      have hle := hinside.length_le
      exact (hinside.eq_of_length (by omega)).symm

/-- What is carried over of an entry is carried over of its folder, and the entry behind it. -/
theorem carry_entry (h : r.Covers folder) :
    r.carry (folder ++ "/" ++ rest) = r.carry folder ++ "/" ++ rest := by
  refine String.toList_inj.mp ?_
  rw [carry, carry, segments_entry, List.drop_append_of_le_length h.2.length_le, List.flatMap_append,
    flatMap_segments]
  simp

end RenameRule

/-! ## What a list of rules does -/

/-- The rule that is applied is the first one that covers the path. -/
theorem applied?_eq (rules : List RenameRule) (path : String) :
    applied? rules path = rules.find? fun r => r.Covers path := by
  rw [applied?]
  congr 1
  funext r
  rw [Bool.eq_iff_iff, RenameRule.matchesPath_iff, decide_eq_true_eq]

/-- A path is carried by the rule that is applied to it. -/
theorem rename_of_applied {rules : List RenameRule} {path : String} {r : RenameRule}
    (h : applied? rules path = some r) : rename rules path = r.carry path := by
  have hmatches : r.matchesPath path = true := (List.find?_eq_some_iff_append.mp h).1
  have hrenamed := renamed?_of_applied h
  rw [RenameRule.renamed?_eq, if_pos (RenameRule.matchesPath_iff.mp hmatches)] at hrenamed
  exact (String.toList_inj.mp (Option.some.inj hrenamed)).symm

/-- A path that no rule makes anything of stays as it is. -/
theorem rename_of_none {rules : List RenameRule} {path : String}
    (h : ∀ r ∈ rules, r.renamed? path.toList = none) : rename rules path = path := by
  rw [rename, renameChars, List.findSome?_eq_none_iff.mpr h, Option.getD_none, String.ofList_toList]

/-- A path that no rule is applied to stays as it is. -/
theorem rename_of_not_applied {rules : List RenameRule} {path : String}
    (h : applied? rules path = none) : rename rules path = path := by
  refine rename_of_none fun r hr => ?_
  have hnot := List.find?_eq_none.mp h r hr
  rw [RenameRule.matchesPath] at hnot
  simpa using hnot

/-- **Renaming works on whole segments.**  The first rule whose key is not empty and has leading segments
    of the path puts its new text in their place, and the other segments follow behind a slash each; a
    path that no rule covers stays as it is. -/
theorem rename_eq_carry (rules : List RenameRule) (path : String) :
    rename rules path = match rules.find? fun r => r.Covers path with
      | some r => r.carry path
      | none => path := by
  rw [← applied?_eq]
  split
  · rename_i r happlied
    exact rename_of_applied happlied
  · rename_i hnone
    exact rename_of_not_applied hnone

example : rename [⟨"", "x"⟩, ⟨".\\src", "app"⟩] "src//main.c" = "app//main.c" := by decide +kernel

/-- **Entries follow their folder.**  Where no rule looks for something inside the folder on the way to an
    entry, the rule that is applied to the entry is the one that is applied to the folder, and the entry
    keeps its path behind the folder's.  The order of the rules does not matter. -/
theorem rename_entry {rules : List RenameRule} {folder rest : String}
    (h : ∀ r ∈ rules, ¬ r.LeadsInto folder rest) :
    applied? rules (folder ++ "/" ++ rest) = applied? rules folder ∧
    rename rules (folder ++ "/" ++ rest) = rename rules folder ++ "/" ++ rest := by
  have hsame : applied? rules (folder ++ "/" ++ rest) = applied? rules folder := by
    rw [applied?_eq, applied?_eq]
    refine List.find?_congr ?_
    intro r hr
    rw [decide_eq_decide, RenameRule.covers_entry_iff, or_iff_left (h r hr)]
  refine ⟨hsame, ?_⟩
  cases happlied : applied? rules folder with
  | none => rw [rename_of_not_applied (hsame.trans happlied), rename_of_not_applied happlied]
  | some r =>
    have hcovers : r.Covers folder :=
      RenameRule.matchesPath_iff.mp (List.find?_eq_some_iff_append.mp happlied).1
    rw [rename_of_applied (hsame.trans happlied), rename_of_applied happlied,
      RenameRule.carry_entry hcovers]

/-- A rule for one folder inside, and an entry of another one. -/
theorem rename_entry_beside :
    (∀ r ∈ [⟨"src/gen", "out"⟩, ⟨"src", "app"⟩], ¬ RenameRule.LeadsInto r "src" "lib/a.c") ∧
    applied? [⟨"src/gen", "out"⟩, ⟨"src", "app"⟩] "src/lib/a.c" =
      applied? [⟨"src/gen", "out"⟩, ⟨"src", "app"⟩] "src" ∧
    rename [⟨"src/gen", "out"⟩, ⟨"src", "app"⟩] "src/lib/a.c" =
      rename [⟨"src/gen", "out"⟩, ⟨"src", "app"⟩] "src" ++ "/" ++ "lib/a.c" := by
  have hbeside : ∀ r ∈ [⟨"src/gen", "out"⟩, ⟨"src", "app"⟩],
      ¬ RenameRule.LeadsInto r "src" "lib/a.c" := by decide +kernel
  have hpath : "src" ++ "/" ++ "lib/a.c" = "src/lib/a.c" := by decide +kernel
  have hentry := rename_entry hbeside
  rw [hpath] at hentry
  exact ⟨hbeside, hentry⟩

end Stencil
