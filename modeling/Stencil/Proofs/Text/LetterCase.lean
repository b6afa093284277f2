/-
  Letters and digits in lower case.

  A character is *settled* when it is a letter or digit and its own lower case form.  The lower case form
  of a letter or digit is a single settled character (`lowerChar_of_ne`), so a second change to lower case
  finds nothing to do.  One capital is an exception: `İ` becomes an `i` and a combining dot, and the dot is
  no letter.

  The tables are lists of ranges, and so are the proofs.  A shift moves all its codes into one range of
  letters and digits, and past the codes of all shifts (`CaseShift.settles`).  A shift of step two moves
  capitals to the small letters between them, so there it is not the range that counts but the step.
-/
import Stencil.Text.Alphanumeric
import Stencil.Text.LetterCase

namespace Stencil

/-! ## Shifts -/

namespace CaseShift

variable {s t : CaseShift} {r : Nat × Nat} {n : Nat}

/-- Where the shift takes a code. -/
def target (s : CaseShift) (n : Nat) : Nat := (n + s.offset).toNat

/-- Do all codes of the shift end in the range? -/
def endsIn (s : CaseShift) (r : Nat × Nat) : Bool :=
  (s.target s.last).ble r.2 && r.1.ble (s.target s.first)

/-- Do all codes of the shift end where the other one moves nothing?  That is on one side of its codes, or
    between them. -/
def misses (s t : CaseShift) : Bool :=
  (s.target s.last).blt t.first || t.last.blt (s.target s.first) ||
    (t.step.beq 2 && (s.step.beq 2 || s.first.beq s.last) &&
      ((s.target s.first - t.first) % 2).beq 1)

/-- Do all codes of the shift end at letters and digits that stay as they are in lower case? -/
def settles (s : CaseShift) : Bool :=
  alphanumericRanges.any s.endsIn && lowerShifts.all s.misses &&
    lowerSpecials.all fun p => (s.target s.last).blt p.1 || p.1.blt (s.target s.first)

/-- The codes of a shift end between the ends of its first and its last one. -/
theorem target_of_moves (hn : s.moves n = true) :
    s.target s.first ≤ s.target n ∧ s.target n ≤ s.target s.last := by
  obtain ⟨hfirst, hlast, -⟩ := moves_iff.mp hn
  simp only [target]
  omega

/-- A shift ends in a range: its first code not before it, its last one not behind it. -/
theorem endsIn_iff : s.endsIn r = true ↔ s.target s.last ≤ r.2 ∧ r.1 ≤ s.target s.first := by
  simp only [endsIn, Bool.and_eq_true, Nat.ble_eq]

theorem misses_iff : s.misses t = true ↔
    s.target s.last < t.first ∨ t.last < s.target s.first ∨
      t.step = 2 ∧ (s.step = 2 ∨ s.first = s.last) ∧ (s.target s.first - t.first) % 2 = 1 := by
  simp only [misses, Bool.or_eq_true, Bool.and_eq_true, Nat.blt_eq, Nat.beq_eq, or_assoc, and_assoc]

/-- **Where a shift misses another one, that one moves none of its targets.** -/
theorem not_moves_of_misses (h : s.misses t = true) (hn : s.moves n = true) :
    t.moves (s.target n) = false := by
  obtain ⟨hlow, hhigh⟩ := target_of_moves hn
  rw [← Bool.not_eq_true, moves_iff]
  rintro ⟨hfirst, hlast, hstep⟩
  rcases misses_iff.mp h with hbefore | hbehind | ⟨hbetween, hsteps, hodd⟩
  · omega
  · omega
  · -- the codes of `s` are an even distance apart, and so are those of `t`, which it misses at first
    obtain ⟨hstart, hend, heven⟩ := moves_iff.mp hn
    have hapart : (n - s.first) % 2 = 0 := by
      rcases hsteps with htwo | hsingle
      · rwa [htwo] at heven
      · omega
    rw [hbetween] at hstep
    simp only [target] at hodd hstep hfirst
    omega

end CaseShift

/-- **The lower case table leads to letters and digits that stay as they are.** -/
theorem settles_of_mem_lowerShifts {s : CaseShift} (hs : s ∈ lowerShifts) : s.settles = true :=
  List.all_eq_true.mp (by decide +kernel) s hs

/-! ## Characters -/

variable {c d : Char}

/-- The codes of letters and digits are codes of characters. -/
theorem toNat_ofNat_of_mem {r : Nat × Nat} {n : Nat} (hr : r ∈ alphanumericRanges) (hfirst : r.1 ≤ n)
    (hlast : n ≤ r.2) : (Char.ofNat n).toNat = n := by
  have hranges : ∀ r ∈ alphanumericRanges, r.2 < 0xD800 ∨ 0xDFFF < r.1 ∧ r.2 < 0x110000 := by
    decide +kernel
  exact toNat_ofNat ((hranges r hr).imp (by omega) (by omega))

/-- A letter or digit that is its own lower case form. -/
structure Settled (c : Char) : Prop where
  alphanumeric : isAlphanumeric c = true
  lower : lowerChar c = [c]

instance (c : Char) : Decidable (Settled c) :=
  decidable_of_iff (isAlphanumeric c = true ∧ lowerChar c = [c])
    ⟨fun h => ⟨h.1, h.2⟩, fun h => ⟨h.1, h.2⟩⟩

/-- The capital with a dot becomes two characters. -/
theorem lowerChar_dotted : lowerChar 'İ' = ['i', '\u0307'] := by decide +kernel

/-- The dot that the small letter of `İ` is followed by is neither a letter nor a digit. -/
theorem isAlphanumeric_dot : isAlphanumeric '\u0307' = false := by decide +kernel

/-- The dotted capital has another small letter, so that it is not settled. -/
theorem Settled.ne_dotted (h : Settled c) : c ≠ 'İ' := by
  rintro rfl
  exact absurd h.lower (by rw [lowerChar_dotted]; decide)

theorem Settled.ne_dot (h : Settled c) : c ≠ '\u0307' := by
  rintro rfl
  exact absurd h.alphanumeric (by rw [isAlphanumeric_dot]; decide)

/-- No other character has an entry of its own in the table of exceptions. -/
theorem lowerChar_eq_shiftCode {n : Nat} (hn : n ≠ 0x130) (hc : c.toNat = n) :
    lowerChar c = [Char.ofNat (shiftCode lowerShifts n)] := by
  have hlookup : lowerSpecials.lookup n = none := by
    simp [lowerSpecials, List.lookup_cons, beq_eq_false_iff_ne.mpr hn]
  rw [lowerChar, mapCase, hc, hlookup]

/-- **Lower case settles.** -/
theorem lowerChar_of_ne (h : isAlphanumeric c = true) (hne : c ≠ 'İ') :
    ∃ d, lowerChar c = [d] ∧ Settled d := by
  have hcode : c.toNat ≠ 0x130 := fun heq => hne (Char.toNat_inj.mp heq)
  have hlower := lowerChar_eq_shiftCode hcode rfl
  rw [shiftCode] at hlower
  cases hfind : lowerShifts.find? (·.moves c.toNat) with
  | none =>
    rw [hfind, Char.ofNat_toNat] at hlower
    exact ⟨c, hlower, h, hlower⟩
  | some s =>
    rw [hfind] at hlower
    have hmoves := List.find?_some hfind
    have hsettles := settles_of_mem_lowerShifts (List.mem_of_find?_eq_some hfind)
    simp only [CaseShift.settles, Bool.and_eq_true, List.any_eq_true, List.all_eq_true] at hsettles
    obtain ⟨⟨⟨r, hr, hends⟩, hmisses⟩, hspecials⟩ := hsettles
    obtain ⟨hlow, hhigh⟩ := CaseShift.target_of_moves hmoves
    obtain ⟨hlast, hfirst⟩ := CaseShift.endsIn_iff.mp hends
    have hstart : r.1 ≤ s.target c.toNat := Nat.le_trans hfirst hlow
    have hend : s.target c.toNat ≤ r.2 := Nat.le_trans hhigh hlast
    have htoNat := toNat_ofNat_of_mem hr hstart hend
    refine ⟨Char.ofNat (s.target c.toNat), hlower, ?_, ?_⟩
    · rw [isAlphanumeric, inRanges_iff, htoNat]
      exact ⟨r, hr, hstart, hend⟩
    · have hplain : s.target c.toNat ≠ 0x130 := by
        have hapart := hspecials (0x130, [0x69, 0x307]) (List.mem_singleton_self _)
        simp only [Bool.or_eq_true, Nat.blt_eq] at hapart
        omega
      have hstays : lowerShifts.find? (·.moves (s.target c.toNat)) = none :=
        List.find?_eq_none.mpr fun t ht =>
          Bool.eq_false_iff.mp (CaseShift.not_moves_of_misses (hmisses t ht) hmoves)
      rw [lowerChar_eq_shiftCode hplain htoNat, shiftCode, hstays]

/-- What a letter or digit becomes in lower case. -/
theorem settled_of_mem_lowerChar (h : isAlphanumeric c = true) (hd : d ∈ lowerChar c) :
    Settled d ∨ c = 'İ' ∧ d = '\u0307' := by
  by_cases hc : c = 'İ'
  · rw [hc, lowerChar_dotted, List.mem_cons, List.mem_singleton] at hd
    rcases hd with rfl | rfl
    · exact .inl (by decide +kernel)
    · exact .inr ⟨hc, rfl⟩
  · obtain ⟨e, hlower, hsettled⟩ := lowerChar_of_ne h hc
    rw [hlower, List.mem_singleton] at hd
    exact .inl (hd ▸ hsettled)

end Stencil
