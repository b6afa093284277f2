/-
  Delimiters that are normalized stay as they are, and are never empty.

  A text that is trimmed neither begins nor ends with white space, so trimming it again changes
  nothing (`trim_trim`); and a text that shows something still shows it (`isBlank_trim`).
-/
import Mathlib.Data.List.DropRight
import Stencil.Proofs.Transform.Blank
import Stencil.Token

namespace Stencil

/-! ## Trimming twice -/

/-- Trimming the end of a text leaves a beginning of it. -/
theorem trimEndChars_isPrefix (cs : List Char) : trimEndChars cs <+: cs :=
  List.rdropWhile_prefix isBlankChar cs

/-- A text that does not begin with white space does not come to do so when its end is trimmed. -/
theorem trimStartChars_trimEndChars {cs : List Char} (h : trimStartChars cs = cs) :
    trimStartChars (trimEndChars cs) = trimEndChars cs := by
  rw [trimStartChars, List.dropWhile_eq_self_iff] at h ⊢
  intro hshows
  have hkept := trimEndChars_isPrefix cs
  rw [hkept.getElem hshows]
  exact h (hshows.trans_le hkept.length_le)

/-- A list of characters is trimmed once: the begin is trimmed before the end, and stays so. -/
theorem trimChars_trimChars (cs : List Char) : trimChars (trimChars cs) = trimChars cs := by
  have hstart : trimStartChars (trimStartChars cs) = trimStartChars cs := List.dropWhile_idempotent ..
  have hend : ∀ ds, trimEndChars (trimEndChars ds) = trimEndChars ds :=
    List.rdropWhile_idempotent isBlankChar
  rw [trimChars, trimChars, trimStartChars_trimEndChars hstart, hend]

/-- A text is trimmed once. -/
@[simp] theorem trim_trim (s : String) : trim (trim s) = trim s := by
  simp only [trim, String.toList_ofList, trimChars_trimChars]

/-- A text that shows something is not empty. -/
theorem ne_empty_of_isBlank {s : String} (h : isBlank s = false) : s ≠ "" := by
  rintro rfl
  exact Bool.noConfusion h

/-! ## Normalizing twice -/

/-- A text, or another one in the place of a blank one, is not blank. -/
theorem isBlank_trimOr {fallback : String} (h : isBlank fallback = false) (s : String) :
    isBlank (if isBlank s then fallback else trim s) = false := by
  by_cases hblank : isBlank s = true
  · rwa [if_pos hblank]
  · rw [if_neg hblank]
    exact isBlank_trim (Bool.eq_false_iff.mpr hblank)

/-- A trimmed text is trimmed once, and so is a fallback without white space around it in its place. -/
theorem trim_trimOr {fallback : String} (h : trim fallback = fallback) (s : String) :
    trim (if isBlank s then fallback else trim s) = if isBlank s then fallback else trim s := by
  by_cases hblank : isBlank s = true
  · rwa [if_pos hblank]
  · rw [if_neg hblank, trim_trim]

namespace Delimiters

/-- The default takes the place of a blank delimiter, so that a normalized one is never blank. -/
theorem isBlank_opening (d : Delimiters) : isBlank d.normalized.opening = false :=
  isBlank_trimOr (by decide) d.opening

theorem isBlank_closing (d : Delimiters) : isBlank d.normalized.closing = false :=
  isBlank_trimOr (by decide) d.closing

/-- A normalized opening delimiter is not empty, so that it does not start everywhere. -/
theorem opening_ne_empty (d : Delimiters) : d.normalized.opening ≠ "" :=
  ne_empty_of_isBlank d.isBlank_opening

/-- Nor is a normalized closing delimiter empty. -/
theorem closing_ne_empty (d : Delimiters) : d.normalized.closing ≠ "" :=
  ne_empty_of_isBlank d.isBlank_closing

/-- A normalized delimiter has no white space around it. -/
theorem trim_opening (d : Delimiters) : trim d.normalized.opening = d.normalized.opening :=
  trim_trimOr (by decide) d.opening

theorem trim_closing (d : Delimiters) : trim d.normalized.closing = d.normalized.closing :=
  trim_trimOr (by decide) d.closing

/-- Normalizing is done once. -/
@[simp] theorem normalized_normalized (d : Delimiters) :
    d.normalized.normalized = d.normalized := by
  rw [normalized, if_neg (Bool.eq_false_iff.mp d.isBlank_opening),
    if_neg (Bool.eq_false_iff.mp d.isBlank_closing), d.trim_opening, d.trim_closing]

end Delimiters

end Stencil
