/-
  What a slug is made of.

  A slug is written in one pass over the text, which remembers only whether a gap was met and whether
  anything was written before.  What comes out is a list of words joined by separators.

  1. **Runs.**  The letters and digits of a text stand in runs, with gaps of other characters between them.
     `MaximalRuns` says so of a list of runs, and a text has one such list, which is found by cutting the
     text at all other characters (`maximalRuns_iff`).
  2. **The pass.**  A gap writes nothing and a run writes its characters in lower case, behind a separator
     when something was written before (`slugFrom_gap_append`, `slugFrom_run_append`).  By induction on
     the runs the slug is the runs in lower case, joined by separators (`MaximalRuns.slugChars_eq`).
  3. **Separators.**  Lower case makes no separator out of a letter or digit.  So cutting a slug at its
     separators gives the runs back.
-/
import Stencil.Proofs.Text.LetterCase
import Stencil.Proofs.Transform.Blank
import Stencil.Text.Segments

namespace Stencil

/-! ## Runs -/

section Runs

variable {p : Char → Bool} {c : Char} {cs gap run rest : List Char} {rs : List (List Char)}

/-- The maximal runs of the characters of a class: there is a gap before each of them but the first, there
    may be one at the start and at the end, and nothing else.  A run ends where the text ends or where a
    character comes that is not of the class. -/
inductive MaximalRuns (p : Char → Bool) : List Char → List (List Char) → Prop where
  | gap {gap : List Char} (hgap : ∀ c ∈ gap, p c = false) : MaximalRuns p gap []
  | run {gap run rest : List Char} {rs : List (List Char)} (hgap : ∀ c ∈ gap, p c = false)
      (hne : run ≠ []) (hrun : ∀ c ∈ run, p c = true) (hend : ∀ c ∈ rest.head?, p c = false)
      (hrest : MaximalRuns p rest rs) : MaximalRuns p (gap ++ (run ++ rest)) (run :: rs)

/-- The runs of the characters of a class: what is left of a text cut at all others. -/
def runs (p : Char → Bool) (cs : List Char) : List (List Char) :=
  (cs.splitOnP fun c => !p c).filter fun run => !run.isEmpty

/-- A character that is none of them adds to no run. -/
theorem runs_cons_of_gap (h : p c = false) : runs p (c :: cs) = runs p cs := by
  rw [runs, List.splitOnP_cons_eq_if_modifyHead, h]
  rfl

theorem runs_gap_append (hgap : ∀ c ∈ gap, p c = false) : runs p (gap ++ cs) = runs p cs := by
  induction gap with
  | nil => rfl
  | cons c gap ih =>
    rw [List.cons_append, runs_cons_of_gap (hgap c List.mem_cons_self)]
    exact ih fun d hd => hgap d (List.mem_cons_of_mem c hd)

/-- A run that ends where another character stands is the first one. -/
theorem runs_run_append (hne : run ≠ []) (hrun : ∀ c ∈ run, p c = true)
    (hend : ∀ c ∈ rest.head?, p c = false) : runs p (run ++ rest) = run :: runs p rest := by
  have hwhole : run.splitOnP (fun c => !p c) = [run] :=
    List.splitOnP_eq_singleton fun c hc => by rw [hrun c hc]; rfl
  have hkept : [run].filter (fun run => !run.isEmpty) = [run] := by
    simpa [List.isEmpty_iff] using hne
  cases rest with
  | nil => rw [List.append_nil, runs, hwhole, hkept]; rfl
  | cons c rest =>
    have hc : p c = false := hend c rfl
    rw [runs_cons_of_gap hc, runs, List.splitOnP_append_cons run rest (by rw [hc]; rfl), hwhole,
      List.filter_append, hkept]
    rfl

/-- A text has no other maximal runs than those found by cutting it. -/
theorem MaximalRuns.eq_runs (h : MaximalRuns p cs rs) : rs = runs p cs := by
  induction h with
  | @gap gap hgap => rw [← List.append_nil gap, runs_gap_append hgap]; rfl
  | run hgap hne hrun hend _ ih => rw [runs_gap_append hgap, runs_run_append hne hrun hend, ← ih]

/-- A character of the class goes into the first run, or makes one. -/
theorem MaximalRuns.cons_run (hc : p c = true) (h : MaximalRuns p cs rs) :
    ∃ rs', MaximalRuns p (c :: cs) rs' := by
  have hsingle : ∀ d ∈ [c], p d = true := fun d hd => List.mem_singleton.mp hd ▸ hc
  cases h with
  | gap hgap =>
    exact ⟨_, .run (List.forall_mem_nil _) (List.cons_ne_nil c []) hsingle
      (fun d hd => hgap d (List.mem_of_mem_head? hd)) (.gap hgap)⟩
  | @run gap run rest rs hgap hne hrun hend hrest =>
    cases gap with
    | nil =>
      have hlonger : ∀ d ∈ c :: run, p d = true := List.forall_mem_cons.mpr ⟨hc, hrun⟩
      exact ⟨_, .run (List.forall_mem_nil _) (List.cons_ne_nil c run) hlonger hend hrest⟩
    | cons d gap =>
      refine ⟨_, .run (List.forall_mem_nil _) (List.cons_ne_nil c []) hsingle ?_
        (.run hgap hne hrun hend hrest)⟩
      exact fun e he => hgap e (Option.mem_some_iff.mp he ▸ List.mem_cons_self)

/-- Every text is made of gaps and runs.  By induction on its characters, from the end. -/
theorem exists_maximalRuns (p : Char → Bool) (cs : List Char) : ∃ rs, MaximalRuns p cs rs := by
  induction cs with
  | nil => exact ⟨[], .gap (List.forall_mem_nil _)⟩
  | cons c cs ih =>
    obtain ⟨rs, h⟩ := ih
    cases hc : p c with
    | true => exact h.cons_run hc
    | false =>
      cases h with
      | gap hgap => exact ⟨_, .gap (List.forall_mem_cons.mpr ⟨hc, hgap⟩)⟩
      | run hgap hne hrun hend hrest =>
        exact ⟨_, .run (List.forall_mem_cons.mpr ⟨hc, hgap⟩) hne hrun hend hrest⟩

/-- **A text has one list of maximal runs.** -/
theorem maximalRuns_iff : MaximalRuns p cs rs ↔ rs = runs p cs := by
  refine ⟨MaximalRuns.eq_runs, ?_⟩
  rintro rfl
  obtain ⟨rs, h⟩ := exists_maximalRuns p cs
  exact h.eq_runs ▸ h

example : runs isAlphanumeric "--ab, 1.".toList = [['a', 'b'], ['1']] := by decide +kernel

/-- A run is a part of the text. -/
theorem MaximalRuns.of_mem (h : MaximalRuns p cs rs) :
    ∀ run ∈ rs, run <:+: cs ∧ run ≠ [] ∧ ∀ c ∈ run, p c = true := by
  induction h with
  | gap => exact List.forall_mem_nil _
  | @run gap run rest rs _ hne hrun _ _ ih =>
    refine List.forall_mem_cons.mpr ⟨⟨?_, hne, hrun⟩, fun later hlater => ?_⟩
    · exact ⟨gap, rest, List.append_assoc gap run rest⟩
    · obtain ⟨hpart, hlater⟩ := ih later hlater
      refine ⟨hpart.trans ?_, hlater⟩
      exact (List.suffix_append_of_suffix (List.suffix_append run rest)).isInfix

end Runs

/-! ## The pass -/

section Pass

variable {separator c : Char} {cs gap run rest : List Char} {rs : List (List Char)} {behindGap : Bool}

/-- A gap writes nothing; it is remembered. -/
theorem slugFrom_gap_append (hgap : ∀ c ∈ gap, isAlphanumeric c = false) (started behindGap : Bool) :
    slugFrom separator started behindGap (gap ++ cs) =
      slugFrom separator started (behindGap || !gap.isEmpty) cs := by
  induction gap generalizing behindGap with
  | nil => rw [List.nil_append, List.isEmpty_nil, Bool.not_true, Bool.or_false]
  | cons c gap ih =>
    have hc := Bool.eq_false_iff.mp (hgap c List.mem_cons_self)
    rw [List.cons_append, slugFrom, if_neg hc, ih (fun d hd => hgap d (List.mem_cons_of_mem c hd)),
      Bool.true_or, List.isEmpty_cons, Bool.not_false, Bool.or_true]

/-- A run is written in lower case, with a separator before it if it stands behind a gap and is not the
    first. -/
theorem slugFrom_run_append (hne : run ≠ []) (hrun : ∀ c ∈ run, isAlphanumeric c = true)
    (started behindGap : Bool) : slugFrom separator started behindGap (run ++ cs) =
      (if behindGap && started then [separator] else []) ++
        (run.flatMap lowerChar ++ slugFrom separator true false cs) := by
  induction run generalizing started behindGap with
  | nil => exact absurd rfl hne
  | cons c run ih =>
    have hrest : ∀ d ∈ run, isAlphanumeric d = true := fun d hd => hrun d (List.mem_cons_of_mem c hd)
    rw [List.cons_append, slugFrom, if_pos (hrun c List.mem_cons_self), List.flatMap_cons,
      List.append_assoc, List.append_assoc]
    by_cases hlast : run = []
    · rw [hlast]
      rfl
    · -- inside a run nothing is skipped
      rw [ih hlast hrest true false]
      rfl

/-- What the rest of a slug is: a separator and a word for each run.  By induction on the runs. -/
theorem MaximalRuns.slugFrom_eq (h : MaximalRuns isAlphanumeric cs rs)
    (hopen : behindGap = true ∨ ∀ c ∈ cs.head?, isAlphanumeric c = false) :
    slugFrom separator true behindGap cs =
      rs.flatMap fun run => separator :: run.flatMap lowerChar := by
  induction h generalizing behindGap with
  | @gap gap hgap =>
    rw [← List.append_nil gap, slugFrom_gap_append hgap]
    rfl
  | @run gap run rest rs hgap hne hrun hend _ ih =>
    have hbehind : (behindGap || !gap.isEmpty) = true := by
      rcases hopen with rfl | hopen
      · rfl
      · cases gap with
        | nil =>
          -- the text starts with a letter or digit
          obtain ⟨c, run, rfl⟩ := List.exists_cons_of_ne_nil hne
          have hmark : isAlphanumeric c = false := hopen c rfl
          rw [hrun c List.mem_cons_self] at hmark
          cases hmark
        | cons d gap => exact Bool.or_true _
    rw [slugFrom_gap_append hgap, slugFrom_run_append hne hrun, hbehind, ih (.inr hend),
      List.flatMap_cons]
    rfl

/-- **A slug is the runs in lower case, joined by separators.** -/
theorem MaximalRuns.slugChars_eq (h : MaximalRuns isAlphanumeric cs rs) :
    slugChars separator cs =
      List.intercalate [separator] (rs.map fun run => run.flatMap lowerChar) := by
  rw [slugChars]
  cases h with
  | gap hgap =>
    rw [← List.append_nil cs, slugFrom_gap_append hgap]
    rfl
  | run hgap hne hrun hend hrest =>
    rw [slugFrom_gap_append hgap, slugFrom_run_append hne hrun, Bool.and_false,
      hrest.slugFrom_eq (.inr hend), List.map_cons, intercalate_cons_eq, List.flatMap_map]
    rfl

end Pass

/-! ## Words and separators -/

section Words

variable {separator c : Char} {s : String} {parts : List (List Char)}

/-- The words of a slug: the runs of letters and digits of the text, in lower case. -/
def slugWords (s : String) : List (List Char) :=
  (runs isAlphanumeric s.toList).map fun run => run.flatMap lowerChar

/-- **A slug is its words with the separator between them.** -/
theorem toList_slug (separator : Char) (s : String) :
    (slug separator s).toList = List.intercalate [separator] (slugWords s) := by
  rw [slug, String.toList_ofList, (maximalRuns_iff.mpr rfl).slugChars_eq, slugWords]

/-- A character that no letter or digit has in its lower case form. -/
structure SlugSeparator (separator : Char) : Prop where
  mark : isAlphanumeric separator = false
  ne_dot : separator ≠ '\u0307'

theorem slugSeparator_of_eq (h : separator = '-' ∨ separator = '_') : SlugSeparator separator := by
  rcases h with rfl | rfl
  · exact ⟨by decide +kernel, by decide⟩
  · exact ⟨by decide +kernel, by decide⟩

/-- The separator comes in between words only: no letter or digit has it in its small letters. -/
theorem SlugSeparator.not_mem_lowerChar (h : SlugSeparator separator) (hc : isAlphanumeric c = true) :
    separator ∉ lowerChar c := by
  intro hmem
  rcases settled_of_mem_lowerChar hc hmem with hsettled | ⟨-, hdot⟩
  · exact absurd hsettled.alphanumeric (Bool.eq_false_iff.mp h.mark)
  · exact h.ne_dot hdot

/-- No letter or digit becomes nothing in lower case. -/
theorem flatMap_lowerChar_ne_nil {run : List Char} (hne : run ≠ []) : run.flatMap lowerChar ≠ [] := by
  obtain ⟨c, hc⟩ := List.exists_mem_of_ne_nil run hne
  exact fun hnil => (clear_lower.mapCase c).1 (List.flatMap_eq_nil_iff.mp hnil c hc)

/-- The words of a slug are not empty, and none has a separator in it. -/
theorem of_mem_slugWords {word : List Char} (h : SlugSeparator separator) (hword : word ∈ slugWords s) :
    word ≠ [] ∧ separator ∉ word := by
  obtain ⟨run, hmem, rfl⟩ := List.mem_map.mp hword
  obtain ⟨-, hne, hrun⟩ := (maximalRuns_iff.mpr rfl).of_mem run hmem
  refine ⟨flatMap_lowerChar_ne_nil hne, ?_⟩
  rw [List.mem_flatMap]
  rintro ⟨c, hc, hmem⟩
  exact h.not_mem_lowerChar (hrun c hc) hmem

/-- Parts that are not empty, joined by a character that they do not have, are not bordered by it. -/
theorem ne_separator_of_intercalate (hparts : ∀ part ∈ parts, part ≠ [] ∧ separator ∉ part) :
    (List.intercalate [separator] parts).head? ≠ some separator ∧
    (List.intercalate [separator] parts).getLast? ≠ some separator := by
  by_cases hempty : parts = []
  · rw [hempty]
    exact ⟨nofun, nofun⟩
  · have hsplit := List.splitOn_intercalate separator (fun part h => (hparts part h).2) hempty
    -- cut at a separator, the text would have an empty part before or behind it
    have hcut : ∀ before after, List.intercalate [separator] parts = before ++ separator :: after →
        parts = before.splitOn separator ++ after.splitOn separator := by
      intro before after heq
      rw [← hsplit, heq]
      exact List.splitOnP_append_cons before after (beq_self_eq_true separator)
    constructor
    · intro hhead
      obtain ⟨after, heq⟩ := List.head?_eq_some_iff.mp hhead
      have hnil : [] ∈ parts := by
        rw [hcut [] after heq]
        exact List.mem_append_left _ (List.mem_singleton_self [])
      exact (hparts [] hnil).1 rfl
    · intro hlast
      obtain ⟨before, heq⟩ := List.getLast?_eq_some_iff.mp hlast
      have hnil : [] ∈ parts := by
        rw [hcut before [] heq]
        exact List.mem_append_right _ (List.mem_singleton_self [])
      exact (hparts [] hnil).1 rfl

/-- **What a slug is.**
    (1) The runs that are found are the maximal runs of letters and digits.
    (2) In lower case and joined by single separators they are the slug.
    (3) A word of the slug is not empty and has no separator in it,
    (4) so cutting the slug at its separators gives the words back,
    (5) and there is no separator at either end.
    (6) A slug is empty exactly if the text has no letters and digits. -/
theorem slug_eq_joined (h : separator = '-' ∨ separator = '_') (s : String) :
    MaximalRuns isAlphanumeric s.toList (runs isAlphanumeric s.toList) ∧
    slug separator s = String.ofList (List.intercalate [separator] (slugWords s)) ∧
    (∀ word ∈ slugWords s, word ≠ [] ∧ separator ∉ word) ∧
    (slugWords s ≠ [] → (slug separator s).toList.splitOn separator = slugWords s) ∧
    (slug separator s).toList.head? ≠ some separator ∧
    (slug separator s).toList.getLast? ≠ some separator ∧
    (slug separator s = "" ↔ ∀ c ∈ s.toList, isAlphanumeric c = false) := by
  have hwords : ∀ word ∈ slugWords s, word ≠ [] ∧ separator ∉ word :=
    fun word => of_mem_slugWords (slugSeparator_of_eq h)
  have hjoined : slug separator s = String.ofList (List.intercalate [separator] (slugWords s)) := by
    rw [← toList_slug, String.ofList_toList]
  obtain ⟨hstart, hend⟩ := ne_separator_of_intercalate hwords
  rw [toList_slug]
  refine ⟨maximalRuns_iff.mpr rfl, hjoined, hwords, ?_, hstart, hend, ?_⟩
  · exact List.splitOn_intercalate separator fun word hword => (hwords word hword).2
  · constructor
    · intro hempty
      have hblank : isBlank (slug separator s) = true := by rw [hempty]; rfl
      exact isBlank_slug_iff.mp hblank
    · intro hmarks
      rw [slug, slugChars, slugFrom_eq_nil hmarks]

/-- A slug with two gaps in the middle, one at each end, and a capital that becomes two characters. -/
theorem slug_eq_joined_izmir :
    slug '-' " --İzmir,  Straße 2!" = "i̇zmir-straße-2" ∧
    "i̇zmir-straße-2".toList.splitOn '-' = slugWords " --İzmir,  Straße 2!" ∧
    slugWords " --İzmir,  Straße 2!" = ["i̇zmir".toList, "straße".toList, ['2']] := by
  have hslug : slug '-' " --İzmir,  Straße 2!" = "i̇zmir-straße-2" := by decide +kernel
  have hwords : slugWords " --İzmir,  Straße 2!" = ["i̇zmir".toList, "straße".toList, ['2']] := by
    decide +kernel
  have hsplit := (slug_eq_joined (.inl rfl) " --İzmir,  Straße 2!").2.2.2.1
    (by rw [hwords]; exact List.cons_ne_nil _ _)
  rw [hslug] at hsplit
  exact ⟨hslug, hsplit, hwords⟩

end Words

end Stencil
