/-
  Classes of characters given by tables.

  A class of the Unicode standard is a list of code ranges, in increasing order.  `inRanges` looks a
  character up by reading the list from the left; `inRuns` does the same for classes in which letters
  of two cases alternate, where a range takes every second code.
-/

namespace Stencil

/-- Ranges of codes, first and last included. -/
abbrev CodeRanges := List (Nat × Nat)

/-- Ranges of codes taken in steps: first, last, step. -/
abbrev CodeRuns := List (Nat × Nat × Nat)

/-- Is the character's code in one of the ranges? -/
def inRanges (rs : CodeRanges) (c : Char) : Bool :=
  rs.any fun r => r.1 ≤ c.toNat && c.toNat ≤ r.2

/-- Is the character's code on one of the runs? -/
def inRuns (rs : CodeRuns) (c : Char) : Bool :=
  rs.any fun r => r.1 ≤ c.toNat && c.toNat ≤ r.2.1 && (c.toNat - r.1) % r.2.2 == 0

theorem inRanges_iff {rs : CodeRanges} {c : Char} :
    inRanges rs c = true ↔ ∃ r ∈ rs, r.1 ≤ c.toNat ∧ c.toNat ≤ r.2 := by
  simp only [inRanges, List.any_eq_true, Bool.and_eq_true, decide_eq_true_eq]

/-- A character made of a valid code has that code. -/
theorem toNat_ofNat {n : Nat} (h : n.isValidChar) : (Char.ofNat n).toNat = n := by
  rw [Char.ofNat, dif_pos h]
  rfl

example : inRanges [(0x30, 0x39)] '7' = true := by decide
example : inRuns [(0x100, 0x12E, 2)] 'ā' = false := by decide

end Stencil
