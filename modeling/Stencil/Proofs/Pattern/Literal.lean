/-
  A file name as a pattern.

  A name of a file may be written into a list of patterns.  It then goes the way of a pattern: white space
  around it is dropped, backslashes become slashes, and what is left is read as a glob.

  1. **Names that stand for themselves.**  Where none of this does anything (`IsLiteral`), the glob is the
     characters of the name, one by one, and it matches the name and nothing else (`accepts_chars`).
  2. **The end of a path.**  Patterns of files are tried on the last segment of a path and on the whole.
     A literal name has no slash in it, so both tests come to the same: the path ends in that name
     (`hides_iff`).
  3. **The name of an entry.**  The last segment of the path of an entry is the entry's own name, unless
     there is a backslash in that name (`baseName_of_relativePath`).
-/
import Stencil.Proofs.Path.Below
import Stencil.Proofs.Rename.Segments
import Stencil.Proofs.Walk.Pruning

namespace Stencil

/-- The characters that mean something in a pattern or in a path. -/
def patternMarks : List Char := ['*', '?', '[', '\x7b', '\x7d', '\\', '/']

/-- The text is a name that stands for itself where it is read as a pattern. -/
structure IsLiteral (s : String) : Prop where
  shown : s ≠ ""
  trimmed : trim s = s
  unmarked : ∀ c ∈ s.toList, c ∉ patternMarks

/-- That a pattern is literal can be computed. -/
theorem isLiteral_iff {s : String} : IsLiteral s ↔
    (s != "" && trim s == s && s.toList.all fun c => !patternMarks.contains c) = true := by
  rw [Bool.and_eq_true, Bool.and_eq_true, bne_iff_ne, beq_iff_eq, List.all_eq_true, and_assoc]
  have hunmarked : (∀ c ∈ s.toList, c ∉ patternMarks) ↔
      ∀ c ∈ s.toList, (!patternMarks.contains c) = true := by
    simp only [Bool.not_eq_true', List.contains_eq_mem, decide_eq_false_iff_not]
  exact ⟨fun h => ⟨h.shown, h.trimmed, hunmarked.mp h.unmarked⟩,
    fun h => ⟨h.1, h.2.1, hunmarked.mpr h.2.2⟩⟩

instance (s : String) : Decidable (IsLiteral s) := decidable_of_iff _ isLiteral_iff.symm

/-! ## Characters that stand for themselves -/

namespace Glob

/-- Characters without a meaning are read one by one. -/
theorem readFrom_unmarked {cs : List Char} (h : ∀ c ∈ cs, c ∉ patternMarks) {fuel : Nat}
    (hfuel : cs.length ≤ fuel) {ls : Levels} (houter : ls.outer = []) (before : Option Char) :
    readFrom fuel ls before cs = some (ls.inner.current.reverse ++ cs.map .char) := by
  have hbraces : ls.inBraces = false := by rw [Levels.inBraces, houter]; rfl
  induction cs generalizing fuel ls before with
  | nil =>
    rw [readFrom.eq_def]
    simp [hbraces]
  | cons c cs ih =>
    obtain ⟨fuel, rfl⟩ : ∃ n, fuel = n + 1 := Nat.exists_eq_add_one.mpr (Nat.lt_of_lt_of_le (by simp) hfuel)
    have hc := h c List.mem_cons_self
    have hrest := @ih (fun x hx => h x (List.mem_cons_of_mem c hx)) fuel
      (Nat.le_of_succ_le_succ hfuel) (ls.push (.char c)) houter (some c) hbraces
    have hpushed : (ls.push (.char c)).inner.current.reverse ++ cs.map .char =
        ls.inner.current.reverse ++ (c :: cs).map .char := by
      simp [Levels.push]
    rw [hpushed] at hrest
    simp only [patternMarks, List.mem_cons, List.not_mem_nil, or_false, not_or] at hc
    obtain ⟨hrun, hone, hclass, hopen, hclose, -, -⟩ := hc
    by_cases hcomma : c = ','
    · -- outside of braces a comma is a character like any other
      subst hcomma
      rw [readFrom, hbraces, if_neg Bool.false_ne_true]
      exact hrest
    · rw [readFrom]
      exacts [hrest, hone, hrun, hclass, hopen, hclose, hcomma]

/-- **Characters match themselves** and nothing else. -/
theorem allAccept_chars (cs : List Char) (path : Bytes) :
    allAccept (cs.map .char) List.isEmpty path = true ↔ path = Bytes.ofChars cs := by
  induction cs generalizing path with
  | nil => simp [allAccept]
  | cons c cs ih =>
    rw [List.map_cons, allAccept, Piece.accepts, Bytes.ofChars_cons]
    cases hstart : Bytes.dropStart? (String.utf8EncodeChar c) path with
    | none =>
      have hdiffers : path ≠ String.utf8EncodeChar c ++ Bytes.ofChars cs := by
        intro heq
        rw [Bytes.dropStart?, List.isPrefixOf?_eq_some_iff_append_eq.mpr heq.symm] at hstart
        cases hstart
      simpa using hdiffers
    | some rest =>
      obtain rfl := List.isPrefixOf?_eq_some_iff_append_eq.mp hstart
      rw [List.append_cancel_left_eq]
      exact ih rest

/-- A glob of characters alone matches the path of these characters and no other. -/
theorem accepts_chars (cs : List Char) (path : Bytes) :
    (Glob.mk (cs.map .char)).accepts path = true ↔ path = Bytes.ofChars cs := by
  rw [← allAccept_chars]
  cases cs <;> exact Iff.rfl

end Glob

/-! ## The end of a path -/

section Segments

variable {cs segment : List Char}

/-- A text without backslashes is written with forward slashes already. -/
theorem forwardSlashChars_eq_self (h : '\\' ∉ cs) : forwardSlashChars cs = cs := by
  have hsame : ∀ c ∈ cs, (if c = '\\' then '/' else c) = id c := by
    intro c hc
    exact if_neg fun heq : c = '\\' => h (heq ▸ hc)
  rw [forwardSlashChars, List.map_congr_left hsame, List.map_id]

theorem backslash_not_mem_forwardSlashChars (cs : List Char) : '\\' ∉ forwardSlashChars cs := by
  intro hmem
  obtain ⟨c, -, hc⟩ := List.mem_map.mp hmem
  split at hc
  · cases hc
  · contradiction

/-- What does not end with a slash stays when slashes at the end are dropped. -/
theorem dropTrailingSlashes_append (hne : cs ≠ []) (h : '/' ∉ cs) (before : List Char) :
    dropTrailingSlashes (before ++ cs) = before ++ cs := by
  obtain ⟨front, last, rfl⟩ := (List.eq_nil_or_concat cs).resolve_left hne
  rw [List.concat_eq_append] at h ⊢
  have hlast : last ≠ '/' := by
    rintro rfl
    exact h (List.mem_append_right front List.mem_cons_self)
  rw [← List.append_assoc, dropTrailingSlashes, List.reverse_concat,
    List.dropWhile_cons_of_neg (by simpa using hlast), List.reverse_cons, List.reverse_reverse]

/-- There are no backslashes in the segments by which paths are compared, nor in what they are the
    segments of. -/
theorem backslash_not_mem_pathSegments (path : String) :
    '\\' ∉ joinSegments (pathSegments path) ∧ ∀ segment ∈ pathSegments path, '\\' ∉ segment := by
  have hwhole : '\\' ∉ joinSegments (pathSegments path) := by
    rw [pathSegments, joinSegments_segments, dropTrailingSlashes, List.mem_reverse]
    intro hmem
    have hpath := (List.dropWhile_sublist _).subset hmem
    exact backslash_not_mem_forwardSlashChars _ (List.mem_reverse.mp hpath)
  refine ⟨hwhole, fun segment hsegment hmem => ?_⟩
  -- each segment, behind a slash, is part of the whole
  have hpart : '\\' ∈ '/' :: joinSegments (pathSegments path) := by
    rw [pathSegments, joinSegments_segments, ← flatMap_segments]
    exact List.mem_flatMap.mpr ⟨segment, hsegment, List.mem_cons_of_mem _ hmem⟩
  exact hwhole ((List.mem_cons.mp hpart).resolve_left (by decide))

end Segments

/-- The last segment of a path, its backslashes counted as slashes. -/
def baseName (path : String) : String := String.ofList ((pathSegments path).getLastD [])

/-- Does the pattern leave out the file at a path? -/
def hides (pattern path : String) : Bool := (PatternSet.read [pattern]).matchesEnd (pathSegments path)

example : baseName "a/b\\c.json/" = "c.json" := by decide +kernel
example : hides "[c].json" "a/c.json" = true ∧ hides "[c].json" "a/[c].json" = false := by
  decide +kernel

section Literal

variable {s : String} (h : IsLiteral s)

include h

/-- **A literal name is read as its characters.** -/
theorem IsLiteral.read? : Pattern.read? s = some (.glob ⟨s.toList.map .char⟩) := by
  have hmarks : '/' ∉ s.toList ∧ '\\' ∉ s.toList :=
    ⟨fun hc => h.unmarked _ hc (by decide), fun hc => h.unmarked _ hc (by decide)⟩
  have hne : s.toList ≠ [] := fun hnil => h.shown (String.toList_eq_nil_iff.mp hnil)
  have htrimmed : trimChars s.toList = s.toList := by
    rw [← String.toList_ofList (l := trimChars s.toList)]
    exact congrArg String.toList h.trimmed
  have hwhole : dropTrailingSlashes s.toList = s.toList := dropTrailingSlashes_append hne hmarks.1 []
  have hglob : Glob.read? s.toList = some ⟨s.toList.map .char⟩ := by
    rw [Glob.read?, Glob.readFrom_unmarked h.unmarked (Nat.le_refl _) rfl]
    rfl
  simp only [Pattern.read?, htrimmed, forwardSlashChars_eq_self hmarks.2, hwhole, hglob]
  rw [if_neg (by simpa using hne)]

/-- So as a pattern it matches itself. -/
theorem IsLiteral.matchesPath_iff {path : String} :
    (PatternSet.read [s]).matchesPath path = true ↔ forwardSlashes path = s := by
  have hset : PatternSet.read [s] = ⟨[.glob ⟨s.toList.map .char⟩]⟩ := by
    rw [PatternSet.read, List.filterMap_cons_some h.read?]
    rfl
  rw [PatternSet.matchesPath, hset]
  dsimp only
  rw [List.any_cons, List.any_nil, Bool.or_false, Pattern.matchesPath, Glob.accepts_chars]
  exact ⟨fun heq => Bytes.ofString_injective heq, congrArg Bytes.ofString⟩

/-- **A literal name leaves out the files of that name**, at any depth. -/
theorem IsLiteral.hides_iff {path : String} : hides s path = true ↔ baseName path = s := by
  have hslash : '/' ∉ s.toList := fun hc => h.unmarked _ hc (by decide)
  have hplain : ∀ cs : List Char, '\\' ∉ cs → forwardSlashes (String.ofList cs) = String.ofList cs := by
    intro cs hcs
    rw [forwardSlashes, String.toList_ofList, forwardSlashChars_eq_self hcs]
  obtain ⟨hwhole, hsegments⟩ := backslash_not_mem_pathSegments path
  have hlast : '\\' ∉ (pathSegments path).getLastD [] := by
    rw [List.getLastD_eq_getLast?, List.getLast?_eq_getLast_of_ne_nil (IgnoreRules.pathSegments_ne_nil path)]
    exact hsegments _ (List.getLast_mem _)
  rw [hides, PatternSet.matchesEnd, Bool.or_eq_true, h.matchesPath_iff, h.matchesPath_iff, hplain _ hlast,
    hplain _ hwhole]
  refine ⟨fun hmatch => hmatch.elim id fun hjoined => ?_, .inl⟩
  -- a whole path that is the name has no other segment
  have hone : pathSegments path = [s.toList] := by
    rw [← hjoined, String.toList_ofList] at hslash ⊢
    rw [← segments_of_not_mem hslash, pathSegments, joinSegments_segments]
  rw [baseName, hone]
  exact String.ofList_toList

end Literal

/-! ## The name of an entry -/

/-- A path ends with a name that stands alone or behind a slash. -/
theorem baseName_of_ends {path name : String} (hne : name ≠ "") (hslash : '/' ∉ name.toList)
    (hback : '\\' ∉ name.toList)
    (hends : path = name ∨ ∃ before, path.toList = before ++ '/' :: name.toList) :
    baseName path = name := by
  have hchars : name.toList ≠ [] := fun hnil => hne (String.toList_eq_nil_iff.mp hnil)
  have hlast : ∃ above, pathSegments path = above ++ [name.toList] := by
    rw [pathSegments]
    rcases hends with rfl | ⟨before, hpath⟩
    · have hwhole := dropTrailingSlashes_append hchars hslash []
      rw [List.nil_append] at hwhole
      rw [forwardSlashChars_eq_self hback, hwhole, segments_of_not_mem hslash]
      exact ⟨[], rfl⟩
    · have hforward : forwardSlashChars (before ++ '/' :: name.toList) =
          (forwardSlashChars before ++ ['/']) ++ name.toList := by
        rw [forwardSlashChars, List.map_append, List.map_cons, ← forwardSlashChars, ← forwardSlashChars,
          forwardSlashChars_eq_self hback, List.append_assoc]
        rfl
      rw [hpath, hforward, dropTrailingSlashes_append hchars hslash, List.append_assoc,
        List.singleton_append, segments_append, segments_of_not_mem hslash]
      exact ⟨_, rfl⟩
  obtain ⟨above, habove⟩ := hlast
  rw [baseName, habove, List.getLastD_concat, String.ofList_toList]

theorem ends_intercalate_concat (texts : List String) (name : String) :
    "/".intercalate (texts ++ [name]) = name ∨
      ∃ before, ("/".intercalate (texts ++ [name])).toList = before ++ '/' :: name.toList := by
  cases texts with
  | nil => exact .inl String.intercalate_singleton
  | cons text texts =>
    refine .inr ⟨text.toList ++ (texts.map String.toList).flatMap ('/' :: ·), ?_⟩
    have hjoined := intercalate_cons_eq '/' text.toList ((texts ++ [name]).map String.toList)
    rw [String.toList_intercalate, List.cons_append, List.map_cons]
    refine hjoined.trans ?_
    rw [List.map_append, List.flatMap_append, List.append_assoc]
    simp

theorem componentTexts?_concat (above : List Component) (name : String) :
    componentTexts? (above ++ [.normal (Bytes.ofString name)]) =
      (componentTexts? above).map (· ++ [name]) := by
  have hname : componentTexts? [.normal (Bytes.ofString name)] = some [name] :=
    Disk.componentTexts?_ofString [name]
  rw [componentTexts?] at hname ⊢
  rw [List.mapM_append, hname, componentTexts?]
  cases List.mapM (fun c : Component => Bytes.toString? c.text) above <;> rfl

/-- **The name of an entry** is the last segment of its path, unless there is a backslash in it. -/
theorem baseName_of_relativePath {root directory : Path} {name relative : String}
    (hname : Path.IsStep (Bytes.ofString name)) (hback : '\\' ∉ name.toList)
    (hbelow : directory.startsWith root = true)
    (h : relativePath root (directory.join ⟨Bytes.ofString name⟩) = .ok relative) :
    baseName relative = name := by
  have hslash : '/' ∉ name.toList := fun hmem =>
    hname.whole (List.mem_flatMap.mpr ⟨'/', hmem, List.mem_cons_self⟩)
  have hne : name ≠ "" := by
    rintro rfl
    exact hname.ne_nil rfl
  obtain ⟨above, habove⟩ := Path.startsWith_iff_isPrefix.mp hbelow
  have hsteps : Path.below? root (directory.join ⟨Bytes.ofString name⟩) =
      some (above ++ [.normal (Bytes.ofString name)]) := by
    rw [Path.below?_eq_some_iff_append, Path.components_join hname, ← habove, List.append_assoc]
  rw [relativePath, hsteps] at h
  dsimp only at h
  rw [componentTexts?_concat] at h
  cases htexts : componentTexts? above with
  | none =>
    rw [htexts] at h
    cases h
  | some texts =>
    rw [htexts] at h
    obtain rfl := Except.ok.inj h
    exact baseName_of_ends hne hslash hback (ends_intercalate_concat texts name)

end Stencil
