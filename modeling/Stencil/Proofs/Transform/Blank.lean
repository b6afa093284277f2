/-
  What transforms leave of a text that is not blank.

  A text *shows* when a character of it is not white space.  Changes of case keep that: no case
  mapping leads to a white space character (`clear_lower` and `clear_upper`, read off the tables),
  and none maps a character to nothing.  A title keeps it too, since each word is a list of
  characters that show.

  A slug drops everything but letters and digits.  So the slug of a text without any is empty, and
  that is the only way in which a transform makes a text blank (`isBlank_transform_iff`).
-/
import Mathlib.Data.List.TakeWhile
import Stencil.Transform

namespace Stencil

/-- Some character is not white space. -/
def Shows (cs : List Char) : Prop := ∃ c ∈ cs, isBlankChar c = false

/-- A text is not blank if it shows something. -/
theorem isBlank_eq_false_iff {s : String} : isBlank s = false ↔ Shows s.toList := by
  simp [isBlank, Shows]

theorem isBlank_ofList_eq_false_iff {cs : List Char} :
    isBlank (String.ofList cs) = false ↔ Shows cs := by
  rw [isBlank_eq_false_iff, String.toList_ofList]

/-- What shows something does so with anything behind it. -/
theorem Shows.append_left {cs ds : List Char} (h : Shows cs) : Shows (cs ++ ds) := by
  obtain ⟨c, hc, hshows⟩ := h
  exact ⟨c, List.mem_append_left ds hc, hshows⟩

theorem Shows.append_right {cs ds : List Char} (h : Shows ds) : Shows (cs ++ ds) := by
  obtain ⟨c, hc, hshows⟩ := h
  exact ⟨c, List.mem_append_right cs hc, hshows⟩

/-- A list of characters that show, if there are any. -/
theorem Shows.of_forall {cs : List Char} (hne : cs ≠ []) (h : ∀ c ∈ cs, isBlankChar c = false) :
    Shows cs := by
  obtain ⟨c, hc⟩ := List.exists_mem_of_ne_nil cs hne
  exact ⟨c, hc, h c hc⟩

/-! ## Trimming -/

/-- Dropping white space at the front leaves what shows. -/
theorem mem_dropWhile_isBlankChar {c : Char} {cs : List Char} (hc : c ∈ cs)
    (hshows : isBlankChar c = false) : c ∈ cs.dropWhile isBlankChar := by
  rw [← List.takeWhile_append_dropWhile (p := isBlankChar) (l := cs), List.mem_append] at hc
  refine hc.resolve_left fun htake => ?_
  rw [List.mem_takeWhile_imp htake] at hshows
  exact Bool.false_ne_true hshows.symm

/-- Trimming leaves what shows. -/
theorem isBlank_trim {s : String} (h : isBlank s = false) : isBlank (trim s) = false := by
  obtain ⟨c, hc, hshows⟩ := isBlank_eq_false_iff.mp h
  have hstart := mem_dropWhile_isBlankChar hc hshows
  have hend := mem_dropWhile_isBlankChar (List.mem_reverse.mpr hstart) hshows
  exact isBlank_ofList_eq_false_iff.mpr ⟨c, List.mem_reverse.mpr hend, hshows⟩

/-! ## Changes of case -/

/-- Is it the code of a white space character? -/
def BlankCode (n : Nat) : Prop := ∃ r ∈ blankRanges, r.1 ≤ n ∧ n ≤ r.2

instance : DecidablePred BlankCode := fun n =>
  inferInstanceAs (Decidable (∃ r ∈ blankRanges, r.1 ≤ n ∧ n ≤ r.2))

theorem isBlankChar_iff {c : Char} : isBlankChar c = true ↔ BlankCode c.toNat :=
  inRanges_iff

/-- A character is no white space if its code is none; nor is the one that stands in for a code of no
    character. -/
theorem isBlankChar_ofNat {n : Nat} (h : ¬ BlankCode n) : isBlankChar (Char.ofNat n) = false := by
  by_cases hvalid : n.isValidChar
  · rw [← Bool.not_eq_true, isBlankChar_iff, toNat_ofNat hvalid]
    exact h
  · rw [Char.ofNat, dif_neg hvalid]
    decide

/-- A case mapping leads nowhere into white space. -/
def Clear (specials : List (Nat × List Nat)) (shifts : List CaseShift) : Prop :=
  (∀ p ∈ specials, p.2 ≠ [] ∧ ∀ n ∈ p.2, ¬ BlankCode n) ∧
  ∀ s ∈ shifts, ∀ r ∈ blankRanges, 0 < r.1 ∧
    ((s.last : Int) + s.offset < r.1 ∨ (r.2 : Int) < s.first + s.offset)

instance (specials : List (Nat × List Nat)) (shifts : List CaseShift) :
    Decidable (Clear specials shifts) :=
  inferInstanceAs (Decidable (_ ∧ _))

/-- No small letter is white space, as the tables show range by range. -/
theorem clear_lower : Clear lowerSpecials lowerShifts := by decide +kernel

theorem clear_upper : Clear upperSpecials upperShifts := by decide +kernel

/-- A shift keeps codes out of white space: all codes that it moves end on one side of each range. -/
theorem Clear.shiftCode {specials : List (Nat × List Nat)} {shifts : List CaseShift}
    (h : Clear specials shifts) {n : Nat} (hn : ¬ BlankCode n) : ¬ BlankCode (shiftCode shifts n) := by
  rw [Stencil.shiftCode]
  cases hfind : shifts.find? (·.moves n) with
  | none => exact hn
  | some s =>
    rintro ⟨r, hr, hfirst, hlast⟩
    have hmoves := List.find?_some hfind
    obtain ⟨hstart, hend, -⟩ := CaseShift.moves_iff.mp hmoves
    obtain ⟨hpos, hside⟩ := h.2 s (List.mem_of_find?_eq_some hfind) r hr
    dsimp only at hfirst hlast
    omega

/-- The characters that one is mapped to show if it does, and there is at least one. -/
theorem Clear.mapCase {specials : List (Nat × List Nat)} {shifts : List CaseShift}
    (h : Clear specials shifts) (c : Char) : mapCase specials shifts c ≠ [] ∧
      (isBlankChar c = false → ∀ d ∈ mapCase specials shifts c, isBlankChar d = false) := by
  rw [Stencil.mapCase]
  cases hlookup : specials.lookup c.toNat with
  | some codes =>
    have hmem : (c.toNat, codes) ∈ specials := by
      obtain ⟨before, after, hsplit, -⟩ := List.lookup_eq_some_iff.mp hlookup
      rw [hsplit]
      exact List.mem_append_right before (List.mem_cons_self ..)
    obtain ⟨hne, hcodes⟩ := h.1 _ hmem
    refine ⟨by simpa using hne, fun _ d hd => ?_⟩
    obtain ⟨n, hn, rfl⟩ := List.mem_map.mp hd
    exact isBlankChar_ofNat (hcodes n hn)
  | none =>
    refine ⟨List.cons_ne_nil _ _, fun hc d hd => ?_⟩
    rw [List.mem_singleton.mp hd]
    refine isBlankChar_ofNat (h.shiftCode ?_)
    rwa [← isBlankChar_iff, Bool.not_eq_true]

theorem shows_upperChar {c : Char} (hc : isBlankChar c = false) : Shows (upperChar c) :=
  .of_forall (clear_upper.mapCase c).1 ((clear_upper.mapCase c).2 hc)

/-- Upper case shows what the text shows. -/
theorem isBlank_upperCase {s : String} (h : isBlank s = false) : isBlank (upperCase s) = false := by
  obtain ⟨c, hc, hshows⟩ := isBlank_eq_false_iff.mp h
  obtain ⟨d, hd, hd'⟩ := shows_upperChar hshows
  exact isBlank_ofList_eq_false_iff.mpr ⟨d, List.mem_flatMap.mpr ⟨c, hc, hd⟩, hd'⟩

/-- What the first character becomes in lower case, where only the sigma looks around itself. -/
theorem lowerCharsFrom_cons (before : List Char) (c : Char) (cs : List Char) :
    ∃ piece, lowerCharsFrom before (c :: cs) = piece ++ lowerCharsFrom (c :: before) cs ∧
      piece ≠ [] ∧ (isBlankChar c = false → ∀ d ∈ piece, isBlankChar d = false) := by
  refine ⟨_, rfl, ?_⟩
  by_cases hc : c = 'Σ'
  · rw [if_pos hc]
    split
    · exact ⟨List.cons_ne_nil _ _, fun _ d hd => by rw [List.mem_singleton.mp hd]; decide⟩
    · exact ⟨List.cons_ne_nil _ _, fun _ d hd => by rw [List.mem_singleton.mp hd]; decide⟩
  · rw [if_neg hc]
    exact clear_lower.mapCase c

/-- A text that shows something does so in small letters, by induction on its characters; a sigma has a
    small letter in any place. -/
theorem shows_lowerCharsFrom {cs : List Char} (h : Shows cs) (before : List Char) :
    Shows (lowerCharsFrom before cs) := by
  induction cs generalizing before with
  | nil => exact absurd h (by simp [Shows])
  | cons c cs ih =>
    obtain ⟨piece, hpiece, hne, hclear⟩ := lowerCharsFrom_cons before c cs
    rw [hpiece]
    obtain ⟨d, hd, hshows⟩ := h
    rcases List.mem_cons.mp hd with rfl | hd
    · exact (Shows.of_forall hne (hclear hshows)).append_left
    · exact (ih ⟨d, hd, hshows⟩ _).append_right

/-- Lower case shows what the text shows. -/
theorem isBlank_lowerCase {s : String} (h : isBlank s = false) : isBlank (lowerCase s) = false :=
  isBlank_ofList_eq_false_iff.mpr (shows_lowerCharsFrom (isBlank_eq_false_iff.mp h) [])

/-- Where every character shows, so does every one in lower case. -/
theorem isBlankChar_of_mem_lowerCharsFrom {cs : List Char} (h : ∀ c ∈ cs, isBlankChar c = false)
    (before : List Char) {d : Char} (hd : d ∈ lowerCharsFrom before cs) : isBlankChar d = false := by
  induction cs generalizing before with
  | nil => simp [lowerCharsFrom] at hd
  | cons c cs ih =>
    obtain ⟨piece, hpiece, -, hclear⟩ := lowerCharsFrom_cons before c cs
    rw [hpiece] at hd
    rcases List.mem_append.mp hd with hd | hd
    · exact hclear (h c (List.mem_cons_self ..)) d hd
    · exact ih (fun x hx => h x (List.mem_cons_of_mem c hx)) _ hd

/-! ## Titles -/

/-- A text that shows has a word, and in a word every character shows.  By induction on the text, for
    any part of a word read before it. -/
theorem exists_mem_wordsFrom (word cs : List Char) (hword : ∀ c ∈ word, isBlankChar c = false)
    (h : word ≠ [] ∨ Shows cs) :
    ∃ w ∈ wordsFrom word cs, w ≠ [] ∧ ∀ c ∈ w, isBlankChar c = false := by
  fun_induction wordsFrom word cs with
  | case1 => exact absurd h (by simp [Shows])
  | case2 word hne =>
    refine ⟨_, List.mem_singleton_self _, by simpa using hne, fun c hc => ?_⟩
    exact hword c (List.mem_reverse.mp hc)
  | case3 word c cs hc hempty ih =>
    -- white space before the first word
    refine ih (by simp) (.inr ?_)
    obtain ⟨d, hd, hshows⟩ := h.resolve_left (not_not.mpr (List.isEmpty_iff.mp hempty))
    rcases List.mem_cons.mp hd with rfl | hd
    · exact absurd hc (Bool.eq_false_iff.mp hshows)
    · exact ⟨d, hd, hshows⟩
  | case4 word c cs hc hempty ih =>
    -- white space ends the word
    refine ⟨_, List.mem_cons_self .., ?_, fun d hd => hword d (List.mem_reverse.mp hd)⟩
    exact List.reverse_ne_nil_iff.mpr (mt List.isEmpty_iff.mpr hempty)
  | case5 word c cs hc ih =>
    refine ih (fun d hd => ?_) (.inl (List.cons_ne_nil _ _))
    rcases List.mem_cons.mp hd with rfl | hd
    · exact Bool.eq_false_iff.mpr hc
    · exact hword d hd

/-- A word shows with a capital, too. -/
theorem shows_titleWord {word : List Char} (hne : word ≠ []) (h : ∀ c ∈ word, isBlankChar c = false) :
    Shows (titleWord word) := by
  have hclear : ∀ d ∈ lowerChars word, isBlankChar d = false :=
    fun d hd => isBlankChar_of_mem_lowerCharsFrom h [] hd
  have hlower : Shows (lowerChars word) := shows_lowerCharsFrom (.of_forall hne h) []
  rw [titleWord]
  cases hchars : lowerChars word with
  | nil => simp [hchars, Shows] at hlower
  | cons first rest =>
    rw [hchars] at hclear
    exact (shows_upperChar (hclear first (List.mem_cons_self ..))).append_left

/-- What is joined shows if one part of it does. -/
theorem shows_intercalate {separator part : List Char} {parts : List (List Char)} (hpart : part ∈ parts)
    (h : Shows part) : Shows (List.intercalate separator parts) := by
  induction parts with
  | nil => exact absurd hpart List.not_mem_nil
  | cons first rest ih =>
    cases rest with
    | nil =>
      rw [List.intercalate_singleton]
      exact List.mem_singleton.mp hpart ▸ h
    | cons second rest =>
      rw [List.intercalate_cons_cons]
      rcases List.mem_cons.mp hpart with rfl | hpart
      · exact h.append_left.append_left
      · exact (ih hpart).append_right

/-- A title shows what the text shows. -/
theorem isBlank_titleCase {s : String} (h : isBlank s = false) : isBlank (titleCase s) = false := by
  obtain ⟨w, hw, hne, hshows⟩ :=
    exists_mem_wordsFrom [] s.toList (by simp) (.inr (isBlank_eq_false_iff.mp h))
  refine isBlank_ofList_eq_false_iff.mpr ?_
  exact shows_intercalate (List.mem_map_of_mem hw) (shows_titleWord hne hshows)

/-! ## Slugs -/

/-- Letters and digits are not white space: no range of one meets a range of the other. -/
theorem isBlankChar_of_isAlphanumeric {c : Char} (h : isAlphanumeric c = true) :
    isBlankChar c = false := by
  have hapart : ∀ r ∈ alphanumericRanges, ∀ b ∈ blankRanges, r.2 < b.1 ∨ b.2 < r.1 := by decide +kernel
  obtain ⟨r, hr, hfirst, hlast⟩ := inRanges_iff.mp h
  rw [← Bool.not_eq_true, isBlankChar_iff]
  rintro ⟨b, hb, hbfirst, hblast⟩
  have hside := hapart r hr b hb
  omega

/-- A slug without letters and digits is empty. -/
theorem slugFrom_eq_nil {separator : Char} {cs : List Char} (h : ∀ c ∈ cs, isAlphanumeric c = false)
    (started gap : Bool) : slugFrom separator started gap cs = [] := by
  induction cs generalizing started gap with
  | nil => rfl
  | cons c cs ih =>
    rw [slugFrom, if_neg (Bool.eq_false_iff.mp (h c (List.mem_cons_self ..)))]
    exact ih (fun d hd => h d (List.mem_cons_of_mem c hd)) started true

/-- A slug has every letter and digit of the text, in lower case. -/
theorem mem_slugFrom {separator c d : Char} {cs : List Char} (hc : c ∈ cs)
    (h : isAlphanumeric c = true) (hd : d ∈ lowerChar c) (started gap : Bool) :
    d ∈ slugFrom separator started gap cs := by
  induction cs generalizing started gap with
  | nil => exact absurd hc List.not_mem_nil
  | cons e cs ih =>
    rw [slugFrom]
    by_cases he : isAlphanumeric e = true
    · rw [if_pos he]
      rcases List.mem_cons.mp hc with rfl | hc
      · exact List.mem_append_left _ (List.mem_append_right _ hd)
      · exact List.mem_append_right _ (ih hc true false)
    · rw [if_neg he]
      rcases List.mem_cons.mp hc with rfl | hc
      · exact absurd h he
      · exact ih hc started true

/-- A slug shows a letter or digit. -/
theorem shows_slugFrom {separator c : Char} {cs : List Char} (hc : c ∈ cs)
    (h : isAlphanumeric c = true) (started gap : Bool) : Shows (slugFrom separator started gap cs) := by
  have hlower := clear_lower.mapCase c
  obtain ⟨d, hd, hshows⟩ := Shows.of_forall hlower.1 (hlower.2 (isBlankChar_of_isAlphanumeric h))
  exact ⟨d, mem_slugFrom hc h hd started gap, hshows⟩

/-- **A slug is blank exactly if the text has no letters and digits.** -/
theorem isBlank_slug_iff {separator : Char} {s : String} :
    isBlank (slug separator s) = true ↔ ∀ c ∈ s.toList, isAlphanumeric c = false := by
  constructor
  · intro h c hc
    by_contra hc'
    have hshows : Shows (slugChars separator s.toList) :=
      shows_slugFrom hc (Bool.not_eq_false _ ▸ hc') false false
    rw [slug, isBlank_ofList_eq_false_iff.mpr hshows] at h
    exact Bool.false_ne_true h
  · intro h
    rw [slug, slugChars, slugFrom_eq_nil h]
    rfl

/-! ## Transforms by name -/

/-- **What a transform makes blank.**  Only a slug does, of a text without letters and digits. -/
theorem isBlank_transform_iff {name s : String} (h : isBlank s = false) :
    isBlank (transform name s) = true ↔
      (∃ separator, Transform.named name = .slug separator) ∧
        ∀ c ∈ s.toList, isAlphanumeric c = false := by
  rw [transform]
  cases Transform.named name with
  | identity => simp [Transform.apply, h]
  | slug separator => simp [Transform.apply, isBlank_slug_iff]
  | upper => simp [Transform.apply, isBlank_upperCase h]
  | lower => simp [Transform.apply, isBlank_lowerCase h]
  | title => simp [Transform.apply, isBlank_titleCase h]

example : transform "title" "\u3000ß" = "SS" ∧ transform "slug-kebab" "!?" = "" := by decide +kernel

end Stencil
