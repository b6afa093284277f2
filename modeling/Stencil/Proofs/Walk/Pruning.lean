/-
  Does a folder that is left out take every file below it along?

  A walk does not enter a folder that is left out, so it never asks about the files in it.  Asked about
  such a file by itself, the rules go by the path of the file alone: its own name and path, and the
  folders above it.

  1. **Folder patterns are handed down.**  A file is tested against them once for every folder above it,
     by that folder's name and path, exactly as the folder itself is (`mem_foldersAbove`).  So a file is
     left out with each of the folders above it, at any depth (`ignores_of_foldersMatch`).
  2. **Extra patterns are not.**  They are tried on the name and the path of the file, not on those of
     the folders above it.  A line `generated` of an ignore file leaves out the folder, and none of the
     files in it.

  So pruning and asking agree (`PrunesAlike`) if and only if they do for the folders that an extra pattern
  matches; without extra patterns they always do.
-/
import Stencil.Ignore

namespace Stencil

/-- Does one of the patterns match the last segment or the whole of a path? -/
def PatternSet.matchesEnd (s : PatternSet) (path : List (List Char)) : Bool :=
  s.matchesPath (String.ofList (path.getLastD [])) || s.matchesPath (String.ofList (joinSegments path))

/-- The segments by which paths are compared: of a path with forward slashes, and none at its end. -/
def pathSegments (path : String) : List (List Char) :=
  segments (dropTrailingSlashes (forwardSlashChars path.toList))

/-- Does a file lie below a folder, at any depth? -/
def LiesBelow (file folder : String) : Prop :=
  pathSegments folder <+: pathSegments file ∧ pathSegments folder ≠ pathSegments file

instance (file folder : String) : Decidable (LiesBelow file folder) :=
  inferInstanceAs (Decidable (_ ∧ _))

example : LiesBelow "src/gen/a/b.c" "src\\gen/" := by decide +kernel

namespace IgnoreRules

variable {r : IgnoreRules} {file folder : String}

/-! ## The folders above a path -/

/-- The folders above a path are its proper leading segments, of which there is at least one. -/
theorem mem_foldersAbove {path above : List (List Char)} :
    above ∈ foldersAbove path ↔ above ≠ [] ∧ above <+: path ∧ above ≠ path := by
  rw [foldersAbove, List.tail_range, List.mem_map]
  constructor
  · rintro ⟨n, hn, rfl⟩
    obtain ⟨hpos, hlt⟩ := List.mem_range'_1.mp hn
    have hlength : (path.take n).length = n := List.length_take_of_le (by omega)
    refine ⟨?_, List.take_prefix n path, ?_⟩
    · intro hnil
      rw [hnil, List.length_nil] at hlength
      omega
    · intro hwhole
      rw [hwhole] at hlength
      omega
  · rintro ⟨hne, hleads, hproper⟩
    refine ⟨above.length, List.mem_range'_1.mpr ?_, (List.prefix_iff_eq_take.mp hleads).symm⟩
    have hpos : 0 < above.length := List.length_pos_iff.mpr hne
    have hlt : above.length < path.length :=
      Nat.lt_of_le_of_ne hleads.length_le fun heq => hproper (hleads.eq_of_length heq)
    omega

theorem pathSegments_ne_nil (path : String) : pathSegments path ≠ [] := List.splitOn_ne_nil _ _

/-! ## The two tests -/

/-- Both tests try three lists of patterns, of which the extra ones are tried on the path alone. -/
theorem ignores_eq (r : IgnoreRules) (path : String) (isFolder : Bool) : r.ignores path isFolder =
    ((if isFolder then r.folders.matchesEnd (pathSegments path)
      else r.files.matchesEnd (pathSegments path) ||
        (foldersAbove (pathSegments path)).any r.folders.matchesEnd) ||
      r.extra.matchesEnd (pathSegments path)) := by
  show (_ || r.extra.matchesPath (String.ofList (joinSegments (pathSegments path))) ||
    r.extra.matchesPath (String.ofList ((pathSegments path).getLastD []))) = (_ || (_ || _))
  rw [Bool.or_assoc, Bool.or_comm (r.extra.matchesPath _)]
  rfl

/-- A folder is left out by a folder pattern or by an extra one. -/
theorem ignores_folder_iff : r.ignores folder true = true ↔
    r.folders.matchesEnd (pathSegments folder) = true ∨
      r.extra.matchesEnd (pathSegments folder) = true := by
  rw [ignores_eq, if_pos rfl, Bool.or_eq_true]

/-- A file is left out by a file pattern, with a folder above it by a folder pattern, or by an extra
    pattern of its own. -/
theorem ignores_file_iff : r.ignores file false = true ↔
    r.files.matchesEnd (pathSegments file) = true ∨
      (∃ above, above ≠ [] ∧ above <+: pathSegments file ∧ above ≠ pathSegments file ∧
        r.folders.matchesEnd above = true) ∨
      r.extra.matchesEnd (pathSegments file) = true := by
  rw [ignores_eq, if_neg Bool.false_ne_true, Bool.or_eq_true, Bool.or_eq_true, List.any_eq_true,
    or_assoc]
  simp only [mem_foldersAbove, and_assoc]

/-- **Folder patterns are handed down.** -/
theorem ignores_of_foldersMatch (h : r.folders.matchesEnd (pathSegments folder) = true)
    (hbelow : LiesBelow file folder) : r.ignores file false = true := by
  obtain ⟨hleads, hproper⟩ := hbelow
  exact ignores_file_iff.mpr (.inr (.inl ⟨_, pathSegments_ne_nil folder, hleads, hproper, h⟩))

/-! ## Pruning and asking -/

/-- Is every file below a folder that is left out left out by itself? -/
def PrunesAlike (r : IgnoreRules) : Prop :=
  ∀ folder file, r.ignores folder true = true → LiesBelow file folder → r.ignores file false = true

/-- **When pruning a folder and asking for the files below it agree.**
    (1) They agree below every folder that a folder pattern matches.
    (2) They agree altogether if and only if everything below a folder that an extra pattern matches is
        left out by itself.
    (3) That is so when there are no extra patterns. -/
theorem prunesAlike_iff (r : IgnoreRules) :
    (∀ folder file, r.folders.matchesEnd (pathSegments folder) = true → LiesBelow file folder →
      r.ignores file false = true) ∧
    (r.PrunesAlike ↔ ∀ folder file, r.extra.matchesEnd (pathSegments folder) = true →
      LiesBelow file folder → r.ignores file false = true) ∧
    (r.extra.patterns = [] → r.PrunesAlike) := by
  have hiff : r.PrunesAlike ↔ ∀ folder file, r.extra.matchesEnd (pathSegments folder) = true →
      LiesBelow file folder → r.ignores file false = true := by
    constructor
    · intro halike folder file hextra hbelow
      exact halike folder file (ignores_folder_iff.mpr (.inr hextra)) hbelow
    · intro hextra folder file hignored hbelow
      rcases ignores_folder_iff.mp hignored with hfolder | hmatch
      · exact ignores_of_foldersMatch hfolder hbelow
      · exact hextra folder file hmatch hbelow
  refine ⟨fun _ _ => ignores_of_foldersMatch, hiff, ?_⟩
  intro hnone
  rw [hiff]
  intro folder file hmatch hbelow
  rw [PatternSet.matchesEnd, PatternSet.matchesPath, PatternSet.matchesPath, hnone] at hmatch
  cases hmatch

/-- A file two folders below one that is left out. -/
theorem ignores_vendor :
    LiesBelow "lib/vendor/x/y.h" "lib/vendor" ∧
    (IgnoreRules.read ["vendor"] ["*.o"] ["drafts"]).ignores "lib/vendor/x/y.h" false = true :=
  ⟨by decide +kernel, (prunesAlike_iff (.read ["vendor"] ["*.o"] ["drafts"])).1 "lib/vendor"
    "lib/vendor/x/y.h" (by decide +kernel) (by decide +kernel)⟩

/-- An extra pattern matches the folder and not the file in it. -/
theorem not_prunesAlike_generated :
    (IgnoreRules.read [] [] ["generated"]).ignores "src/generated" true = true ∧
    LiesBelow "src/generated/main.c" "src/generated" ∧
    (IgnoreRules.read [] [] ["generated"]).ignores "src/generated/main.c" false = false ∧
    ¬ (IgnoreRules.read [] [] ["generated"]).PrunesAlike := by
  have hfolder : (IgnoreRules.read [] [] ["generated"]).ignores "src/generated" true = true := by
    decide +kernel
  have hbelow : LiesBelow "src/generated/main.c" "src/generated" := by decide +kernel
  have hfile : (IgnoreRules.read [] [] ["generated"]).ignores "src/generated/main.c" false = false := by
    decide +kernel
  refine ⟨hfolder, hbelow, hfile, ?_⟩
  intro halike
  exact absurd (halike _ _ hfolder hbelow) (by rw [hfile]; decide)

end IgnoreRules

end Stencil
