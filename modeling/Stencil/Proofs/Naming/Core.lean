/-
  What the spellings of a name have in common: its letters and digits.

  `core` reads the ASCII letters and digits off a text, capitals as small letters.  A convention writes
  a name with other separators and in other cases, so the core stays (`core_spell`).  Bytes beyond
  ASCII have no part in it, which makes it a map over single bytes: what occurs in a text has a core
  that occurs in the core of the text.

  For the conventions that run the words together the name has to be in ASCII.  They use the cases of
  all scripts, and `ß` becomes the letters `SS`.
-/
import Stencil.Naming
import Stencil.Proofs.Transform.Blank
import Stencil.Text.Bytes

namespace Stencil

/-! ## The core of a text -/

/-- An ASCII letter or digit, a capital as its small letter. -/
def coreByte? (b : UInt8) : Option UInt8 :=
  if 0x41 ≤ b ∧ b ≤ 0x5A then some (b + 32)
  else if (0x30 ≤ b ∧ b ≤ 0x39) ∨ (0x61 ≤ b ∧ b ≤ 0x7A) then some b
  else none

/-- The ASCII letters and digits of some bytes, in lower case. -/
def core (bs : Bytes) : Bytes := bs.filterMap coreByte?

example : core (Bytes.ofString "My-Bank 2") = Bytes.ofString "mybank2" := by decide

@[simp] theorem core_nil : core [] = [] := rfl

/-- The core is read byte by byte. -/
@[simp] theorem core_append (as bs : Bytes) : core (as ++ bs) = core as ++ core bs :=
  List.filterMap_append

/-- What occurs in a text has a core that occurs in the core of the text. -/
theorem core_infix {part bs : Bytes} (h : part <:+: bs) : core part <:+: core bs := h.filterMap _

/-- The core of a text given by its characters. -/
def coreChars (cs : List Char) : Bytes := core (Bytes.ofChars cs)

@[simp] theorem coreChars_nil : coreChars [] = [] := rfl

/-- The core of a text is that of its first character and that of the others: each of them has its own
    bytes. -/
theorem coreChars_cons (c : Char) (cs : List Char) :
    coreChars (c :: cs) = coreChars [c] ++ coreChars cs := by
  simp [coreChars]

@[simp] theorem coreChars_append (cs ds : List Char) :
    coreChars (cs ++ ds) = coreChars cs ++ coreChars ds := by
  simp [coreChars]

/-- The core of a text that is given by its characters, in the form in which the lemmas below speak of
    it. -/
@[simp] theorem core_ofString_ofList (cs : List Char) :
    core (Bytes.ofString (String.ofList cs)) = coreChars cs := by
  rw [Bytes.ofString, String.toList_ofList, coreChars]

/-! ## Single characters -/

/-- Is every character of the text an ASCII character? -/
def IsAscii (cs : List Char) : Prop := ∀ c ∈ cs, c.toNat < 128

instance (cs : List Char) : Decidable (IsAscii cs) :=
  List.decidableBAll (fun c : Char => c.toNat < 128) cs

/-- What holds of 128 characters holds of every ASCII character. -/
@[elab_as_elim]
theorem forall_ascii {motive : Char → Prop} {c : Char} (h : c.toNat < 128)
    (hall : ∀ n < 128, motive (Char.ofNat n)) : motive c := by
  have hc := hall c.toNat h
  rwa [Char.ofNat_toNat] at hc

/-- Bytes beyond ASCII have no part in the core. -/
theorem coreByte?_of_le {b : UInt8} (h : 0x80 ≤ b.toNat) : coreByte? b = none := by
  rw [coreByte?, if_neg, if_neg]
  · simp only [UInt8.le_iff_toNat_le]
    simp
    omega
  · simp only [UInt8.le_iff_toNat_le]
    simp
    omega

/-- A character beyond ASCII is written in bytes beyond ASCII. -/
theorem coreChars_of_le {c : Char} (h : 128 ≤ c.toNat) : coreChars [c] = [] := by
  have hhigh : ∀ n, 128 ≤ n → n < 256 → 0x80 ≤ (UInt8.ofNat n).toNat := by
    intro n hlow hn
    have hsame : (UInt8.ofNat n).toNat = n := UInt8.toNat_ofNat_of_lt hn
    omega
  have hbytes : ∀ b ∈ String.utf8EncodeChar c, 0x80 ≤ b.toNat := by
    have hvalue : 128 ≤ c.val.toNat := h
    have hvalid : c.val.toNat < 0xD800 ∨ (0xDFFF < c.val.toNat ∧ c.val.toNat < 0x110000) := c.valid
    rw [String.utf8EncodeChar]
    generalize c.val.toNat = v at hvalue hvalid
    intro b hb
    rw [if_neg (by omega)] at hb
    split at hb
    · simp only [List.mem_cons, List.not_mem_nil, or_false] at hb
      rcases hb with rfl | rfl <;> exact hhigh _ (by omega) (by omega)
    split at hb
    · simp only [List.mem_cons, List.not_mem_nil, or_false] at hb
      rcases hb with rfl | rfl | rfl <;> exact hhigh _ (by omega) (by omega)
    · simp only [List.mem_cons, List.not_mem_nil, or_false] at hb
      rcases hb with rfl | rfl | rfl | rfl <;> exact hhigh _ (by omega) (by omega)
  rw [coreChars, Bytes.ofChars_cons, Bytes.ofChars_nil, List.append_nil, core, List.filterMap_eq_nil_iff]
  exact fun b hb => coreByte?_of_le (hbytes b hb)

/-- Only letters and digits have a part in the core. -/
theorem coreChars_of_mark {c : Char} (h : isAlphanumeric c = false) : coreChars [c] = [] := by
  by_cases hc : c.toNat < 128
  · have hascii : coreChars [c] = [] ∨ isAlphanumeric c = true :=
      forall_ascii hc (by decide +kernel)
    exact hascii.resolve_right (Bool.eq_false_iff.mp h)
  · exact coreChars_of_le (Nat.le_of_not_lt hc)

/-- Beyond ASCII a character is its own ASCII lower case. -/
theorem asciiLower_of_le {c : Char} (h : 128 ≤ c.toNat) : asciiLower c = c := by
  rw [asciiLower, if_neg]
  rintro ⟨-, hlast⟩
  have hle : c.toNat ≤ 'Z'.toNat := hlast
  have hz : 'Z'.toNat = 90 := rfl
  omega

/-- Beyond ASCII a character is its own ASCII upper case. -/
theorem asciiUpper_of_le {c : Char} (h : 128 ≤ c.toNat) : asciiUpper c = c := by
  rw [asciiUpper, if_neg]
  rintro ⟨-, hlast⟩
  have hle : c.toNat ≤ 'z'.toNat := hlast
  have hz : 'z'.toNat = 122 := rfl
  omega

/-- The core does not tell a capital from a small letter. -/
@[simp] theorem coreChars_asciiLower (c : Char) : coreChars [asciiLower c] = coreChars [c] := by
  by_cases hc : c.toNat < 128
  · exact forall_ascii hc (by decide +kernel)
  · rw [asciiLower_of_le (Nat.le_of_not_lt hc)]

@[simp] theorem coreChars_asciiUpper (c : Char) : coreChars [asciiUpper c] = coreChars [c] := by
  by_cases hc : c.toNat < 128
  · exact forall_ascii hc (by decide +kernel)
  · rw [asciiUpper_of_le (Nat.le_of_not_lt hc)]

/-! ## Lists of characters -/

section Lists

variable {cs : List Char} {p : Char → Bool}

/-- Marks alone have nothing in the core. -/
theorem coreChars_eq_nil (h : ∀ c ∈ cs, coreChars [c] = []) : coreChars cs = [] := by
  induction cs with
  | nil => rfl
  | cons c cs ih =>
    rw [coreChars_cons, h c List.mem_cons_self, ih fun d hd => h d (List.mem_cons_of_mem _ hd)]
    rfl

/-- Marks at the start can be dropped. -/
theorem coreChars_dropWhile (h : ∀ c, p c = true → coreChars [c] = []) (cs : List Char) :
    coreChars (cs.dropWhile p) = coreChars cs := by
  have hsplit : coreChars (cs.takeWhile p ++ cs.dropWhile p) = coreChars cs :=
    congrArg coreChars List.takeWhile_append_dropWhile
  rwa [coreChars_append, coreChars_eq_nil fun c hc => h c (List.mem_takeWhile_imp hc),
    List.nil_append] at hsplit

/-- Marks at the end can be dropped. -/
theorem coreChars_dropEnd (h : ∀ c, p c = true → coreChars [c] = []) (cs : List Char) :
    coreChars (cs.reverse.dropWhile p).reverse = coreChars cs := by
  have hsplit : (cs.reverse.dropWhile p).reverse ++ (cs.reverse.takeWhile p).reverse = cs := by
    rw [← List.reverse_append, List.takeWhile_append_dropWhile, List.reverse_reverse]
  have hend : coreChars (cs.reverse.takeWhile p).reverse = [] :=
    coreChars_eq_nil fun c hc => h c (List.mem_takeWhile_imp (List.mem_reverse.mp hc))
  have hcore := congrArg coreChars hsplit
  rwa [coreChars_append, hend, List.append_nil] at hcore

/-- Marks can be dropped wherever they stand. -/
theorem coreChars_filter (h : ∀ c, p c = false → coreChars [c] = []) (cs : List Char) :
    coreChars (cs.filter p) = coreChars cs := by
  induction cs with
  | nil => rfl
  | cons c cs ih =>
    rw [List.filter_cons, coreChars_cons c cs, ← ih]
    split
    · rw [coreChars_cons]
    · next hp => rw [h c (Bool.eq_false_iff.mpr hp), List.nil_append]

end Lists

/-- Trimming takes characters away and adds none. -/
theorem isAscii_trim {s : String} (h : IsAscii s.toList) : IsAscii (trim s).toList := by
  rw [trim, String.toList_ofList]
  intro c hc
  have hkept : c ∈ s.toList.dropWhile isBlankChar :=
    List.mem_reverse.mp ((List.dropWhile_sublist _).subset (List.mem_reverse.mp hc))
  exact h c ((List.dropWhile_sublist _).subset hkept)

/-- The white space around a name has no part in its core: no letter or digit is blank. -/
theorem core_trim (s : String) : core (Bytes.ofString (trim s)) = core (Bytes.ofString s) := by
  have hblank : ∀ c, isBlankChar c = true → coreChars [c] = [] := by
    intro c hc
    refine coreChars_of_mark (Bool.eq_false_iff.mpr fun hletter => ?_)
    rw [isBlankChar_of_isAlphanumeric hletter] at hc
    cases hc
  rw [trim, core_ofString_ofList, trimChars, trimEndChars, coreChars_dropEnd hblank, trimStartChars,
    coreChars_dropWhile hblank]
  rfl

/-! ## Conventions with separators -/

section Separators

variable {separator : Char} {fold : Char → Char}

/-- Conventions drop the marks at the end of a name, and its core stays. -/
theorem coreChars_dropTrailingMarks (cs : List Char) :
    coreChars (dropTrailingMarks cs) = coreChars cs :=
  coreChars_dropEnd (fun _ hc => coreChars_of_mark (by simpa using hc)) cs

/-- Words that are parted by a separator have their core: there is nothing of the separator in it, and the
    folding of letters keeps it.  By induction on the characters that are left, whatever came before. -/
theorem coreChars_snakeFrom (hseparator : coreChars [separator] = [])
    (hfold : ∀ c, coreChars [fold c] = coreChars [c]) (whole : List Char) (i : Nat) (start : Bool)
    (cs : List Char) : coreChars (snakeFrom whole separator fold i start cs) = coreChars cs := by
  induction cs generalizing i start with
  | nil => rfl
  | cons c cs ih =>
    rw [snakeFrom, coreChars_cons c cs]
    split
    · next hmark =>
      rw [coreChars_of_mark (by simpa using hmark), List.nil_append]
      split
      · exact ih _ _
      · rw [coreChars_cons, hseparator, List.nil_append, ih]
    split
    · rw [coreChars_cons, hseparator, List.nil_append, coreChars_cons, hfold, ih]
    · rw [coreChars_cons, hfold, ih]

/-- A name whose words are parted by a separator has the core of the name. -/
theorem coreChars_snakeChars (hseparator : coreChars [separator] = [])
    (hfold : ∀ c, coreChars [fold c] = coreChars [c]) (cs : List Char) :
    coreChars (snakeChars separator fold cs) = coreChars cs := by
  rw [snakeChars, coreChars_snakeFrom hseparator hfold, coreChars_dropTrailingMarks]

/-- Parting the words of an ASCII name by an ASCII separator leaves ASCII. -/
theorem isAscii_snakeFrom (hseparator : separator.toNat < 128)
    (hfold : ∀ c, c.toNat < 128 → (fold c).toNat < 128) (whole : List Char) (i : Nat) (start : Bool)
    {cs : List Char} (h : IsAscii cs) : IsAscii (snakeFrom whole separator fold i start cs) := by
  induction cs generalizing i start with
  | nil => exact h
  | cons c cs ih =>
    obtain ⟨hc, hcs⟩ := List.forall_mem_cons.mp h
    rw [snakeFrom]
    split
    · split
      · exact ih _ _ hcs
      · exact List.forall_mem_cons.mpr ⟨hseparator, ih _ _ hcs⟩
    split
    · exact List.forall_mem_cons.mpr
        ⟨hseparator, List.forall_mem_cons.mpr ⟨hfold c hc, ih _ _ hcs⟩⟩
    · exact List.forall_mem_cons.mpr ⟨hfold c hc, ih _ _ hcs⟩

end Separators

/-! ## Conventions with capitals -/

/-- Words that are told apart by their capitals: only the cases of letters change, and spaces between
    words, if there are any, have nothing in the core. -/
theorem coreChars_humpFrom (humps : Humps) (st : HumpState) (cs : List Char) :
    coreChars (humpFrom humps st cs) = coreChars cs := by
  induction cs generalizing st with
  | nil => rfl
  | cons c cs ih =>
    rw [humpFrom, coreChars_cons c cs]
    split
    · next hmark => rw [ih, coreChars_of_mark (by simpa using hmark), List.nil_append]
    split
    · rw [coreChars_cons, ih]
    split
    · have hspace : coreChars (if humps.spaced && st.capitals then [' '] else []) = [] := by
        split <;> rfl
      rw [coreChars_append, hspace, List.nil_append, coreChars_cons, coreChars_asciiUpper, ih]
    · rw [coreChars_cons, coreChars_asciiLower, ih]

theorem coreChars_humpChars (humps : Humps) (cs : List Char) :
    coreChars (humpChars humps cs) = coreChars cs := by
  rw [humpChars, coreChars_humpFrom, coreChars_dropTrailingMarks]

/-! ## Words run together -/

/-- In ASCII the upper case of all scripts is the ASCII upper case. -/
theorem upperChar_of_ascii {c : Char} (h : c.toNat < 128) : upperChar c = [asciiUpper c] :=
  forall_ascii h (by decide +kernel)

theorem lowerChar_of_ascii {c : Char} (h : c.toNat < 128) : lowerChar c = [asciiLower c] :=
  forall_ascii h (by decide +kernel)

/-- An ASCII name in capitals has the same core. -/
theorem coreChars_upper {cs : List Char} (h : IsAscii cs) :
    coreChars (cs.flatMap upperChar) = coreChars cs := by
  induction cs with
  | nil => rfl
  | cons c cs ih =>
    obtain ⟨hc, hcs⟩ := List.forall_mem_cons.mp h
    rw [List.flatMap_cons, coreChars_append, upperChar_of_ascii hc, coreChars_asciiUpper, ih hcs,
      ← coreChars_cons]

/-- An ASCII name in small letters has the same core. There is no sigma in it, whose small letter
    depends on what stands around it. -/
theorem coreChars_lowerCharsFrom {cs : List Char} (h : IsAscii cs) (before : List Char) :
    coreChars (lowerCharsFrom before cs) = coreChars cs := by
  induction cs generalizing before with
  | nil => rfl
  | cons c cs ih =>
    obtain ⟨hc, hcs⟩ := List.forall_mem_cons.mp h
    have hsigma : c ≠ 'Σ' := by
      rintro rfl
      exact absurd hc (by decide)
    rw [lowerCharsFrom, if_neg hsigma, coreChars_append, lowerChar_of_ascii hc, coreChars_asciiLower,
      ih hcs, ← coreChars_cons]

theorem isAscii_asciiLower {c : Char} (h : c.toNat < 128) : (asciiLower c).toNat < 128 :=
  forall_ascii h (by decide +kernel)

/-- An ASCII name is in ASCII also without the marks at its end. -/
theorem isAscii_dropTrailingMarks {cs : List Char} (h : IsAscii cs) : IsAscii (dropTrailingMarks cs) :=
  fun c hc => h c (List.mem_reverse.mp
    ((List.dropWhile_sublist _).subset (List.mem_reverse.mp hc)))

/-- The words of an ASCII name run together are in ASCII, and have the core of the name. -/
theorem joinedWords_spec {name : String} (h : IsAscii name.toList) :
    IsAscii (joinedWords name).toList ∧ coreChars (joinedWords name).toList = coreChars name.toList := by
  rw [joinedWords, String.toList_ofList]
  refine ⟨fun c hc => ?_, ?_⟩
  · have hseparator : '_'.toNat < 128 := by decide
    exact isAscii_snakeFrom hseparator (fun _ => isAscii_asciiLower) _ _ _
      (isAscii_dropTrailingMarks h) c (List.mem_filter.mp hc).1
  · have hmark : ∀ c : Char, (c != '_') = false → coreChars [c] = [] := by
      intro c hc
      obtain rfl : c = '_' := by simpa using hc
      decide
    rw [coreChars_filter hmark, coreChars_snakeChars (by decide) coreChars_asciiLower]

/-- **The spellings of a name have the core of the name.** -/
theorem Convention.core_spell (k : Convention) {name : String} (h : IsAscii name.toList) :
    core (Bytes.ofString (k.spell name)) = core (Bytes.ofString name) := by
  obtain ⟨hjoined, hcore⟩ := joinedWords_spec h
  cases k <;> simp only [spell]
  case pascal => rw [core_ofString_ofList, coreChars_humpChars]; rfl
  case kebab =>
    rw [core_ofString_ofList, coreChars_snakeChars (by decide) coreChars_asciiLower]; rfl
  case snake =>
    rw [core_ofString_ofList, coreChars_snakeChars (by decide) coreChars_asciiLower]; rfl
  case screaming =>
    rw [core_ofString_ofList, coreChars_snakeChars (by decide) coreChars_asciiUpper]; rfl
  case camel => rw [core_ofString_ofList, coreChars_humpChars]; rfl
  case upper => rw [upperCase, core_ofString_ofList, coreChars_upper hjoined, hcore]; rfl
  case lower =>
    rw [lowerCase, core_ofString_ofList, lowerChars, coreChars_lowerCharsFrom hjoined, hcore]; rfl
  case title => rw [core_ofString_ofList, coreChars_humpChars]; rfl

end Stencil
