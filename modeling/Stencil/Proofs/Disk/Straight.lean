/-
  Paths that lead straight down.

  A lookup goes piece by piece, and there is one equation for each kind of piece (`resolve_idle` and so
  on).  Names that lead down without a link take none of the links that may be followed
  (`resolve_append`, `resolve_names`).

  A path that never steps back and meets no link leads where its names lead, once all above is there:
  to the directory that it spells (`find_of_spells`).  Where no more than directories are missing on the
  way they can be made (`exists_makeDirectories`), but at a name where a link lies nothing can be made
  (`makeDirectories_of_link`).

  That is so for an absolute path that a lookup accepts (`DescendsTo`).  A lookup refuses a path for its
  bytes alone when it is too long or has a zero byte; what was found once is not refused
  (`Admissible`).  And an absolute path has no `.` in it, which matters at its end: no directory can be
  made at `new/.`.
-/
import Mathlib.Data.List.Flatten
import Stencil.Proofs.Disk.Operations
import Stencil.Proofs.Path.Absolute

namespace Stencil

open Disk

namespace Path

variable {p q : Path} {loc : Location} {name : Name}

/-! ## Pieces -/

/-- Behind a slash, some bytes are their pieces, each behind a slash. -/
theorem flatMap_pieces (bs : Bytes) : (pieces bs).flatMap (Bytes.slash :: ·) = Bytes.slash :: bs := by
  rw [← text_pathOf (pieces_ne_nil bs), pathOf, pieces, List.intercalate_splitOn]

/-- The last piece is empty only behind a slash. -/
theorem getLast?_eq_slash {init : List Bytes} {bs : Bytes} (h : pieces bs = init ++ [[]])
    (hne : bs ≠ []) : bs.getLast? = some Bytes.slash := by
  have hwhole := flatMap_pieces bs
  rw [h, List.flatMap_append, List.flatMap_singleton] at hwhole
  have hlast : (Bytes.slash :: bs).getLast? = some Bytes.slash := by
    rw [← hwhole, List.getLast?_concat]
  rwa [List.getLast?_cons_of_ne_nil hne] at hlast

/-- A path is as long as that of the location that it spells, or longer. -/
theorem Spells.length_pathOf_le (hp : p.Spells loc) : (pathOf loc).text.length ≤ p.text.length := by
  obtain ⟨rest, htext⟩ := hp.text_eq
  by_cases hne : loc = []
  · rw [hne, htext]
    simp [pathOf]
  · -- the names are some of the pieces
    have hnames : loc.Sublist (pieces rest) := by
      have hrest : p.names = (Path.mk rest).names := by
        rw [Path.names, htext]
        exact names_mk_slash rest
      rw [← hp.names, hrest]
      exact List.filter_sublist
    rw [text_pathOf hne, htext, ← flatMap_pieces rest]
    exact (hnames.flatMap _).length_le

/-! ## Admissible paths -/

/-- A path that no lookup refuses for its bytes alone. -/
structure Admissible (p : Path) : Prop where
  noNul : p.text.contains 0 = false
  short : p.text.length < maxPath

/-- A zero byte of a path stands in one of its names. -/
theorem noNul_iff : p.text.contains 0 = false ↔ ∀ n ∈ p.names, (0 : UInt8) ∉ n := by
  have hpieces : ∀ piece ∈ pieces p.text, ∀ b ∈ piece, b ∈ Bytes.slash :: p.text := by
    intro piece hpiece b hb
    rw [← flatMap_pieces]
    exact List.mem_flatMap.mpr ⟨piece, hpiece, List.mem_cons_of_mem _ hb⟩
  rw [List.contains_eq_mem, decide_eq_false_iff_not]
  constructor
  · intro hnul n hn hzero
    rcases List.mem_cons.mp (hpieces n (List.mem_filter.mp hn).1 0 hzero) with hslash | hmem
    · cases hslash
    · exact hnul hmem
  · intro hnames hzero
    have hmem : (0 : UInt8) ∈ (pieces p.text).flatMap (Bytes.slash :: ·) := by
      rw [flatMap_pieces]
      exact List.mem_cons_of_mem _ hzero
    obtain ⟨piece, hpiece, hin⟩ := List.mem_flatMap.mp hmem
    rcases List.mem_cons.mp hin with hslash | hin
    · cases hslash
    · refine hnames piece (List.mem_filter.mpr ⟨hpiece, ?_⟩) hin
      -- an idle piece holds no zero
      cases hidle : isIdle piece with
      | false => rfl
      | true =>
        rw [isIdle, Bool.or_eq_true, beq_iff_eq, beq_iff_eq] at hidle
        rcases hidle with rfl | rfl
        · cases hin
        · exact absurd hin (by decide)

/-- A name without a zero byte behind a path without one. -/
theorem noNul_join {name : Name} (hp : p.text.contains 0 = false) (hname : IsStep name)
    (hzero : (0 : UInt8) ∉ name) : (p.join ⟨name⟩).text.contains 0 = false := by
  rw [noNul_iff, names_join (isAbsolute_of_whole hname.whole), names_of_whole hname.speaks hname.whole]
  intro n hn
  rcases List.mem_append.mp hn with hn | hn
  · exact noNul_iff.mp hp n hn
  · rwa [List.mem_singleton.mp hn]

/-- What is found has a path that may be looked up. -/
theorem admissible_of_find {d : Disk} {follow : Bool} {x : Location}
    (h : d.find follow p = .ok x) : p.Admissible := by
  refine ⟨?_, length_lt_of_find h⟩
  rw [find_eq_ok_iff, locate] at h
  split at h
  · cases h
  · rename_i hnul
    simpa using hnul

/-- A path that may be looked up may be without the slashes at its end. -/
theorem Admissible.withoutSlashes (h : p.Admissible) : (Disk.withoutSlashes p).Admissible := by
  obtain ⟨n, htext⟩ := text_withoutSlashes p
  obtain ⟨hnul, hshort⟩ := h
  rw [htext] at hnul hshort
  constructor
  · simp only [List.contains_eq_mem, List.mem_append, decide_eq_false_iff_not, not_or] at hnul ⊢
    exact hnul.1
  · rw [List.length_append] at hshort
    omega

/-- No name of an entry has a zero byte. -/
theorem zero_not_mem_of_isProper (hproper : isProper loc = true) : ∀ n ∈ loc, (0 : UInt8) ∉ n := by
  intro n hn hzero
  have hentry : isEntryName n = true := List.all_eq_true.mp hproper n hn
  simp only [isEntryName, Bool.and_eq_true, Bool.not_eq_true'] at hentry
  simpa [hzero] using hentry.1.2

/-- The path of a proper location holds no zero byte. -/
theorem noNul_pathOf (hproper : isProper loc = true) : (pathOf loc).text.contains 0 = false := by
  rw [noNul_iff, (spells_pathOf (isDescent_of_isProper hproper)).names]
  exact zero_not_mem_of_isProper hproper

/-- It may be looked up if it is short enough. -/
theorem admissible_pathOf (hproper : isProper loc = true)
    (hshort : (pathOf loc).text.length < maxPath) : (pathOf loc).Admissible :=
  ⟨noNul_pathOf hproper, hshort⟩

/-- What a lookup of an admissible path is. -/
theorem Admissible.locate_eq (h : p.Admissible) (hp : p.Spells loc) (d : Disk) (follow : Bool) :
    d.locate follow p = Disk.resolve d follow maxLinks [] (pieces p.text) := by
  obtain ⟨rest, htext⟩ := hp.text_eq
  have hwas : p.text.isEmpty = false := by rw [htext, List.isEmpty_cons]
  rw [locate, h.noNul, hwas, if_neg Bool.false_ne_true, if_neg Bool.false_ne_true,
    if_neg (Nat.not_le.mpr h.short), hp.startOf_eq]

end Path

namespace Disk

open Path

variable {d : Disk} {follow : Bool} {loc : Location} {ps rest : List Bytes} {p : Path} {e : Entry}

/-! ## The steps of a lookup -/

section Steps

variable {piece target : Bytes} (hdir : isDirectoryAt d.table loc = true)

include hdir

/-- A lookup stays where it is at an empty piece and at a `.`. -/
theorem resolve_idle (hidle : isIdle piece = true) (links : Nat) :
    resolve d follow links loc (piece :: rest) = resolve d follow links loc rest := by
  cases links <;> simp [resolve, advance, hdir, hidle]

/-- It goes one directory up at a step back. -/
theorem resolve_up (links : Nat) :
    resolve d follow links loc (back :: rest) = resolve d follow links loc.dropLast rest := by
  have hspeaks : isIdle back = false := by decide
  cases links <;> simp [resolve, advance, hdir, hspeaks]

/-- It ends at a last name under which nothing lies. -/
theorem resolve_free (hname : isEntryName piece = true) (hnone : d.get? (loc ++ [piece]) = none)
    (hlast : rest.all List.isEmpty = true) (links : Nat) :
    resolve d follow links loc (piece :: rest) = .ok (.vacant (loc ++ [piece]) (!rest.isEmpty)) := by
  cases links <;> rw [resolve, advance_of_isEntryName hdir hname, hnone] <;> exact if_pos hlast

/-- It goes on into whatever is not a link. -/
theorem resolve_down (hname : isEntryName piece = true) (he : d.get? (loc ++ [piece]) = some e)
    (hkind : e.kind ≠ .link) (links : Nat) :
    resolve d follow links loc (piece :: rest) = resolve d follow links (loc ++ [piece]) rest := by
  cases e with
  | link target => exact absurd rfl hkind
  | file mode content => cases links <;> rw [resolve, advance_of_isEntryName hdir hname, he]
  | directory mode => cases links <;> rw [resolve, advance_of_isEntryName hdir hname, he]

/-- A link is followed if one more may be. -/
theorem resolve_link (hname : isEntryName piece = true)
    (hlink : d.get? (loc ++ [piece]) = some (.link target)) (links : Nat) :
    resolve d true (links + 1) loc (piece :: rest) =
      resolve d true links (startOf target loc) (pieces target ++ rest) := by
  rw [resolve, advance_of_isEntryName hdir hname, hlink]
  simp only [Bool.not_true, Bool.and_false, Bool.false_eq_true, if_false]

theorem resolve_link_zero (hname : isEntryName piece = true)
    (hlink : d.get? (loc ++ [piece]) = some (.link target)) :
    resolve d true 0 loc (piece :: rest) = .error .linkLoop := by
  rw [resolve, advance_of_isEntryName hdir hname, hlink]
  simp only [Bool.not_true, Bool.and_false, Bool.false_eq_true, if_false]

end Steps

/-- Behind the last piece it is where it led to. -/
theorem resolve_nil (links : Nat) : resolve d follow links loc [] = .ok (.found loc) := by
  cases links <;> rfl

/-! ## Lookups straight down -/

/-- Names that lead down to a directory are gone through one by one. -/
theorem advance_append (expand : Location → List Bytes → Except Fault Place) (hback : back ∉ ps)
    (hdir : isDirectoryAt d.table (loc ++ spoken ps) = true) :
    advance d follow expand loc (ps ++ rest) = advance d follow expand (loc ++ spoken ps) rest := by
  induction ps generalizing loc with
  | nil => rw [List.nil_append, spoken, List.filter_nil, List.append_nil]
  | cons piece ps ih =>
    have hback' : back ∉ ps := fun h => hback (List.mem_cons_of_mem piece h)
    obtain ⟨mode, hstart⟩ := exists_directory_above hdir (List.prefix_append loc _)
    have hopen : isDirectoryAt d.table loc = true := isDirectoryAt_iff.mpr ⟨mode, hstart⟩
    rw [List.cons_append]
    cases hidle : isIdle piece with
    | true =>
      have hsame : spoken (piece :: ps) = spoken ps := by simp [spoken, hidle]
      rw [hsame] at hdir ⊢
      rw [advance, hopen, Bool.not_true, if_neg Bool.false_ne_true, hidle, if_pos rfl]
      exact ih hback' hdir
    | false =>
      have hcons : spoken (piece :: ps) = piece :: spoken ps := by simp [spoken, hidle]
      rw [hcons, List.append_cons loc piece (spoken ps)] at hdir ⊢
      -- the name is one of those on the way to the directory
      obtain ⟨mode, hnext⟩ := exists_directory_above hdir (List.prefix_append (loc ++ [piece]) _)
      have hentry : isEntryName piece = true :=
        List.all_eq_true.mp (isProper_of_get? hnext) piece (by simp)
      rw [advance_of_isEntryName hopen hentry, hnext]
      exact ih hback' hdir

theorem resolve_append (hback : back ∉ ps)
    (hdir : isDirectoryAt d.table (loc ++ spoken ps) = true) (links : Nat) :
    resolve d follow links loc (ps ++ rest) = resolve d follow links (loc ++ spoken ps) rest := by
  cases links <;> exact advance_append _ hback hdir

/-- Names lead down to what lies there, if it is no link. -/
theorem resolve_names {names : Location} (he : d.get? (loc ++ names) = some e) (hkind : e.kind ≠ .link)
    (links : Nat) : resolve d follow links loc names = .ok (.found (loc ++ names)) := by
  rcases List.eq_nil_or_concat names with rfl | ⟨above, name, rfl⟩
  · rw [List.append_nil, resolve_nil]
  rw [List.concat_eq_append, ← List.append_assoc] at he ⊢
  -- the last name stands in a directory, to which the others lead
  have habove : isDirectoryAt d.table (loc ++ above) = true := by
    have hdropped := isDirectoryAt_dropLast he
    rwa [List.dropLast_concat] at hdropped
  have hdescent : IsDescent above := fun n hn =>
    isDescent_of_get? he n (List.mem_append_left [name] (List.mem_append_right loc hn))
  have hspoken : spoken above = above := hdescent.spoken_eq
  have hname : isEntryName name = true :=
    List.all_eq_true.mp (isProper_of_get? he) name (by simp)
  rw [resolve_append hdescent.back_not_mem (by rw [hspoken]; exact habove), hspoken,
    resolve_down habove hname he hkind, resolve_nil]

/-- A path that spells a directory leads there. -/
theorem find_of_spells (hp : p.Spells loc) (hadmissible : p.Admissible)
    (hdir : isDirectoryAt d.table loc = true) : d.find follow p = .ok loc := by
  have hspoken : [] ++ spoken (pieces p.text) = loc := hp.names
  rw [find_eq_ok_iff, hadmissible.locate_eq hp, ← List.append_nil (pieces p.text),
    resolve_append hp.back_not_mem_pieces (hspoken.symm ▸ hdir), hspoken, resolve_nil]

/-- Its own path leads to whatever lies somewhere and is no link. -/
theorem resolve_pathOf (he : d.get? loc = some e) (hkind : e.kind ≠ .link) (links : Nat) :
    resolve d follow links [] (pieces (pathOf loc).text) = .ok (.found loc) := by
  have hroot : isDirectoryAt d.table [] = true := isDirectoryAt_nil d
  by_cases hne : loc = []
  · subst hne
    have hpieces : pieces (pathOf []).text = [[], []] := by decide
    rw [hpieces, resolve_idle hroot rfl, resolve_idle hroot rfl, resolve_nil]
  · have hpieces : pieces (pathOf loc).text = [] :: loc := by
      rw [pathOf, pieces_slash, pieces_intercalate (fun n hn => (isDescent_of_get? he n hn).whole) hne]
    rw [hpieces, resolve_idle hroot rfl]
    exact resolve_names he hkind links

/-- It is found by its own path, if that is short enough. -/
theorem find_pathOf (he : d.get? loc = some e) (hkind : e.kind ≠ .link)
    (hshort : (pathOf loc).text.length < maxPath) : d.find follow (pathOf loc) = .ok loc := by
  have hadmissible := admissible_pathOf (isProper_of_get? he) hshort
  rw [find_eq_ok_iff, hadmissible.locate_eq (spells_of_get? he)]
  exact resolve_pathOf he hkind maxLinks

/-- The path of a file or directory reaches it, however long it is. -/
theorem reach_pathOf (he : d.get? loc = some e) (hkind : e.kind ≠ .link) :
    d.reach (pathOf loc) = .ok loc :=
  reach_eq_ok_iff.mpr ⟨noNul_pathOf (isProper_of_get? he), rfl, resolve_pathOf he hkind maxLinks⟩

end Disk

/-! ## Paths without a dot -/

namespace Path

variable {p q : Path}

/-- No piece of the path is `.`. -/
def IsDotless (p : Path) : Prop := [0x2E] ∉ pieces p.text

instance (p : Path) : Decidable p.IsDotless := inferInstanceAs (Decidable ¬ _ ∈ _)

/-- No `.` comes in where two paths are joined. -/
theorem IsDotless.join (hp : p.IsDotless) (hq : q.IsDotless) : (p.join q).IsDotless := by
  rw [Path.join]
  split
  · exact hq
  split
  · rename_i hopen
    rcases Bool.or_eq_true_iff.mp hopen with hempty | hslash
    · rw [List.isEmpty_iff.mp hempty]
      exact hq
    · obtain ⟨front, hfront⟩ := List.getLast?_eq_some_iff.mp (beq_iff_eq.mp hslash)
      rw [IsDotless, hfront] at hp
      rw [IsDotless, hfront, List.append_assoc, List.singleton_append]
      rw [pieces_append] at hp ⊢
      exact fun hmem => (List.mem_append.mp hmem).elim
        (fun hleft => hp (List.mem_append_left _ hleft)) hq
  · rw [IsDotless, pieces_append]
    exact fun hmem => (List.mem_append.mp hmem).elim hp hq

/-- None comes in where components are put behind a path, by induction on them. -/
theorem IsDotless.foldl_push {cs : List Component}
    (hcs : ∀ c ∈ cs, (Path.mk c.text).IsDotless) (hp : p.IsDotless) :
    (cs.foldl push p).IsDotless := by
  induction cs generalizing p with
  | nil => exact hp
  | cons c cs ih =>
    rw [List.foldl_cons]
    exact ih (fun c' hc' => hcs c' (List.mem_cons_of_mem c hc'))
      (hp.join (hcs c List.mem_cons_self))

/-- The path of a location holds none. -/
theorem isDotless_pathOf {loc : Location} (h : IsDescent loc) : (pathOf loc).IsDotless := by
  rw [IsDotless, pathOf, pieces_slash]
  by_cases hne : loc = []
  · subst hne
    decide
  · rw [pieces_intercalate (fun n hn => (h n hn).whole) hne]
    intro hmem
    rcases List.mem_cons.mp hmem with heq | hmem
    · cases heq
    · exact absurd (h _ hmem).speaks (by decide)

/-- What the path seen from the root keeps of a path has no `.`. -/
theorem isDotless_absolute? {here : Location} (hhere : IsDescent here)
    (h : absolute? (pathOf here) p = some q) : q.IsDotless := by
  have hempty : (Path.mk []).IsDotless := by decide
  have hsteps : ∀ c ∈ p.components.filter (· != .current), (Path.mk c.text).IsDotless := by
    intro c hc
    obtain ⟨hmem, hspeaks⟩ := List.mem_filter.mp hc
    cases c with
    | root => decide
    | current => exact absurd hspeaks (by decide)
    | parent => decide
    | normal name =>
      have hstep : IsStep name := isStep_of_normal_mem hmem
      rw [IsDotless, Component.text, pieces_of_not_mem hstep.whole]
      intro heq
      rw [← List.mem_singleton.mp heq] at hstep
      exact absurd hstep.speaks (by decide)
  have hwhole : ∀ (start : Path) (steps : List Component), start.IsDotless →
      (∀ c ∈ steps, (Path.mk c.text).IsDotless) →
      (if p.text.getLast? == some Bytes.slash then (steps.foldl push start).join ⟨[]⟩
        else steps.foldl push start).IsDotless := by
    intro start steps hstart hall
    have hpushed := hstart.foldl_push hall
    split
    · exact hpushed.join hempty
    · exact hpushed
  rw [absolute?] at h
  split at h
  · cases h
  dsimp only at h
  obtain rfl := Option.some.inj h
  -- one of three starts is pushed onto
  by_cases htwo : (p.text.take 2 == [Bytes.slash, Bytes.slash] && p.text[2]? != some Bytes.slash) = true
  · rw [if_pos htwo]
    have hslashes : (Path.mk [Bytes.slash, Bytes.slash]).IsDotless := by decide
    exact hwhole _ _ hslashes fun c hc => hsteps c (List.mem_of_mem_tail hc)
  rw [if_neg htwo]
  by_cases habsolute : p.isAbsolute = true
  · rw [if_pos habsolute]
    exact hwhole _ _ hempty hsteps
  · rw [if_neg habsolute]
    exact hwhole _ _ (isDotless_pathOf hhere) hsteps

/-- Without its slashes at the end a path ends with none, if it says anything. -/
theorem getLast?_withoutSlashes (hp : p.names ≠ []) :
    (Disk.withoutSlashes p).text.getLast? ≠ some Bytes.slash := by
  rw [Disk.withoutSlashes]
  split
  · -- nothing but slashes says nothing
    rename_i hkept
    have hslashes : p.text = List.replicate p.text.length Bytes.slash := by
      have hdrop := List.reverse_eq_nil_iff.mp (List.isEmpty_iff.mp hkept)
      rw [List.dropWhile_eq_nil_iff] at hdrop
      exact List.eq_replicate_of_mem fun b hb => by simpa using hdrop b (List.mem_reverse.mpr hb)
    refine absurd ?_ hp
    rw [show p = ⟨[] ++ List.replicate p.text.length Bytes.slash⟩ from congrArg Path.mk hslashes,
      names_mk_append_slashes]
    rfl
  · rw [List.getLast?_reverse]
    intro hhead
    have hnot := List.head?_dropWhile_not (· == Bytes.slash) p.text.reverse
    rw [hhead] at hnot
    cases hnot

/-- A path without `.` says its last name last, slashes behind it apart. -/
theorem exists_pieces_of_dotless {above : Location} {name : Name} (hdotless : p.IsDotless)
    (hp : p.names = above ++ [name]) :
    ∃ init, pieces (Disk.withoutSlashes p).text = init ++ [name] ∧ spoken init = above := by
  obtain ⟨init, last, hpieces⟩ : ∃ init last, pieces (Disk.withoutSlashes p).text = init ++ [last] :=
    ⟨_, _, (List.dropLast_concat_getLast (pieces_ne_nil _)).symm⟩
  have hspeaks : isIdle last = false := by
    rw [isIdle, Bool.or_eq_false_iff, beq_eq_false_iff_ne, beq_eq_false_iff_ne]
    constructor
    · rintro rfl
      have hne : p.names ≠ [] := by simp [hp]
      have hwas : (Disk.withoutSlashes p).text ≠ [] := by
        intro hempty
        rw [← names_withoutSlashes, names, hempty] at hne
        exact hne rfl
      exact getLast?_withoutSlashes hne (getLast?_eq_slash hpieces hwas)
    · rintro rfl
      obtain ⟨n, htext⟩ := text_withoutSlashes p
      have hmem : [0x2E] ∈ pieces (Disk.withoutSlashes p).text := by simp [hpieces]
      refine hdotless ?_
      rw [htext]
      cases n with
      | zero => simpa using hmem
      | succ n =>
        rw [List.replicate_succ, pieces_append]
        exact List.mem_append_left _ hmem
  have hnames : spoken init ++ [last] = above ++ [name] := by
    rw [← hp, ← names_withoutSlashes, names, hpieces, spoken_append]
    simp [spoken, hspeaks]
  obtain ⟨hinit, hlast⟩ := List.append_inj' hnames rfl
  obtain rfl := List.singleton_inj.mp hlast
  exact ⟨init, hpieces, hinit⟩

/-! ## Paths that descend -/

/-- The path goes straight down to a location, and a lookup accepts it. -/
structure DescendsTo (p : Path) (loc : Location) : Prop extends p.Spells loc, p.Admissible where
  dotless : p.IsDotless

/-- What is left of a path without its last name are some of its pieces. -/
theorem Spells.exists_of_parent? {loc : Location} {rest : Bytes} (hp : p.Spells loc)
    (htext : p.text = Bytes.slash :: rest) (hq : p.parent? = some q) :
    ∃ bs : List Bytes, q = pathOf bs ∧ bs.Sublist (pieces rest) := by
  have hanchor : p.anchor = [Bytes.slash] := if_pos hp.absolute
  rw [Path.parent?, hanchor, htext, List.length_singleton, List.drop_one, List.tail_cons] at hq
  cases hbehind : (pieces rest).reverse.dropWhile isIdle with
  | nil =>
    rw [hbehind] at hq
    simp [Bytes.slash] at hq
  | cons last before =>
    rw [hbehind] at hq
    obtain rfl := Option.some.inj hq
    refine ⟨(before.dropWhile isIdle).reverse, rfl, ?_⟩
    have hbefore : before.Sublist (pieces rest).reverse :=
      (List.sublist_cons_self last before).trans (hbehind ▸ List.dropWhile_sublist isIdle)
    have hkept := ((List.dropWhile_sublist isIdle).trans hbefore).reverse
    rwa [List.reverse_reverse] at hkept

theorem DescendsTo.parent? {loc : Location} (h : p.DescendsTo loc) (hq : p.parent? = some q) :
    q.DescendsTo loc.dropLast := by
  obtain ⟨rest, htext⟩ := h.text_eq
  obtain ⟨bs, rfl, hbs⟩ := h.exists_of_parent? htext hq
  have hslash : ∀ b ∈ bs, Bytes.slash ∉ b := fun b hb =>
    slash_not_mem_of_mem_pieces (hbs.subset hb)
  have hdot : [0x2E] ∉ bs := fun hb => h.dotless (by
    rw [htext, pieces_slash]
    exact List.mem_cons_of_mem _ (hbs.subset hb))
  have hsub : (pathOf bs).text.Sublist p.text := by
    by_cases hne : bs = []
    · rw [hne, htext]
      exact (List.nil_sublist rest).cons_cons Bytes.slash
    · rw [text_pathOf hne, htext, ← flatMap_pieces rest]
      exact hbs.flatMap _
  refine ⟨(h.toSpells.parent? hq).1, ⟨?_, hsub.length_le.trans_lt h.short⟩, ?_⟩
  · have hnul := h.noNul
    rw [List.contains_eq_mem, decide_eq_false_iff_not] at hnul ⊢
    exact fun hmem => hnul (hsub.subset hmem)
  · rw [IsDotless, pathOf, pieces_slash]
    by_cases hne : bs = []
    · subst hne
      decide
    · rw [pieces_intercalate hslash hne]
      intro hmem
      rcases List.mem_cons.mp hmem with heq | hmem
      · cases heq
      · exact hdot hmem

end Path

namespace Disk

open Path

variable {d d' : Disk} {loc above : Location} {p : Path} {name : Name}

/-- A path has no zero byte, if it has none once it is seen from the root. -/
theorem noNul_of_absolute {q : Path} (h : d.absolute p = .ok q) (hq : q.text.contains 0 = false) :
    p.text.contains 0 = false := by
  refine noNul_iff.mpr fun n hn => noNul_iff.mp hq n ?_
  rw [(isAbsolute_and_names_of_absolute h).2]
  exact List.mem_append_right _ hn

/-- A directory is one by a path that spells its location. -/
theorem isDirectory_of_spells (hp : p.Spells loc) (hadmissible : p.Admissible)
    (hdir : isDirectoryAt d.table loc = true) : d.isDirectory p = true := by
  obtain ⟨mode, hmode⟩ := isDirectoryAt_iff.mp hdir
  rw [isDirectory, entry_eq_ok_iff.mpr ⟨loc, find_of_spells hp hadmissible hdir, hmode⟩]
  rfl

/-- A path without a step back, seen from the root, descends if a lookup accepts it. -/
theorem descendsTo_absolute {q : Path} (hback : back ∉ p.names) (h : d.absolute p = .ok q)
    (hadmissible : q.Admissible) : q.DescendsTo (d.spelled p) :=
  ⟨spells_absolute hback h, hadmissible,
    isDotless_absolute? (isDescent_of_isProper d.hereProper) (absolute_eq_ok h)⟩

/-! ## Making directories -/

/-- The lookup of a path comes down to its last name, if the directory above is there. -/
theorem exists_locate_eq (hp : p.DescendsTo (above ++ [name])) (d : Disk) :
    ∃ expand init, back ∉ init ∧ spoken init = above ∧
      d.locate false (withoutSlashes p) = advance d false expand [] (init ++ [name]) := by
  obtain ⟨init, hpieces, hinit⟩ := exists_pieces_of_dotless hp.dotless hp.names
  refine ⟨resolve d false (maxLinks - 1), init, ?_, hinit, ?_⟩
  · intro hmem
    refine hp.withoutSlashes.back_not_mem_pieces ?_
    rw [hpieces]
    exact List.mem_append_left _ hmem
  · rw [hp.toAdmissible.withoutSlashes.locate_eq hp.withoutSlashes, hpieces]
    rfl

/-- A lookup that has come to a last name. -/
theorem advance_last (expand : Location → List Bytes → Except Fault Place)
    (habove : isDirectoryAt d.table above = true) (hname : isEntryName name = true) :
    advance d false expand above [name] = match d.get? (above ++ [name]) with
      | none => .ok (.vacant (above ++ [name]) false)
      | some _ => .ok (.found (above ++ [name])) := by
  rw [advance_of_isEntryName habove hname]
  cases d.get? (above ++ [name]) with
  | none => rfl
  | some e => cases e <;> rfl

/-- In a directory that is there, a directory can be made at a name if nothing lies there. -/
theorem makeDirectory_of_descendsTo (hp : p.DescendsTo (above ++ [name]))
    (habove : isDirectoryAt d.table above = true) (hname : isEntryName name = true) :
    d.makeDirectory p = match d.get? (above ++ [name]) with
      | none => .ok (d.put (above ++ [name]) (.directory Entry.directoryMode))
      | some _ => .error .occupied := by
  obtain ⟨expand, init, hback, hinit, hlocate⟩ := exists_locate_eq hp d
  have hdir : isDirectoryAt d.table ([] ++ spoken init) = true := by
    rw [hinit]
    exact habove
  rw [advance_append expand hback hdir, hinit, List.nil_append,
    advance_last expand habove hname] at hlocate
  rw [makeDirectory, hlocate]
  cases d.get? (above ++ [name]) <;> rfl

/-- All on the way to the location is a directory or missing. -/
def IsOpen (d : Disk) (loc : Location) : Prop :=
  ∀ x, x <+: loc → d.get? x = none ∨ isDirectoryAt d.table x = true

/-- A lookup that meets a missing name before the last one. -/
theorem advance_of_missing (expand : Location → List Bytes → Except Fault Place)
    {start : Location} {init : List Bytes} (hback : back ∉ init)
    (hstart : isDirectoryAt d.table start = true) (hopen : d.IsOpen (start ++ spoken init))
    (hproper : isProper (spoken init) = true) (hmissing : d.get? (start ++ spoken init) = none)
    (hname : IsStep name) : advance d false expand start (init ++ [name]) = .error .notFound := by
  induction init generalizing start with
  | nil =>
    obtain ⟨mode, hmode⟩ := isDirectoryAt_iff.mp hstart
    have hnone : d.get? start = none := by simpa [spoken] using hmissing
    rw [hmode] at hnone
    cases hnone
  | cons piece init ih =>
    have hback' : back ∉ init := fun h => hback (List.mem_cons_of_mem piece h)
    rw [List.cons_append]
    cases hidle : isIdle piece with
    | true =>
      have hsame : spoken (piece :: init) = spoken init := by simp [spoken, hidle]
      rw [hsame] at hopen hproper hmissing
      rw [advance, hstart, Bool.not_true, if_neg Bool.false_ne_true, hidle, if_pos rfl]
      exact ih hback' hstart hopen hproper hmissing
    | false =>
      have hcons : spoken (piece :: init) = piece :: spoken init := by simp [spoken, hidle]
      rw [hcons] at hopen hproper hmissing
      rw [List.append_cons start piece (spoken init)] at hopen hmissing
      obtain ⟨hentry, hproper'⟩ := Bool.and_eq_true_iff.mp hproper
      rw [advance_of_isEntryName hstart hentry]
      rcases hopen (start ++ [piece]) (List.prefix_append _ _) with hnone | hdir
      · -- more than slashes follow
        have hmore : (init ++ [name]).all List.isEmpty = false := by
          simp [hname.ne_nil]
        rw [hnone, hmore]
        rfl
      · obtain ⟨mode, hmode⟩ := isDirectoryAt_iff.mp hdir
        rw [hmode]
        exact ih hback' hdir hopen hproper' hmissing

/-- A path below something that is missing is not found. -/
theorem makeDirectory_of_missing (hp : p.DescendsTo (above ++ [name]))
    (hproper : isProper (above ++ [name]) = true) (hopen : d.IsOpen above)
    (hmissing : d.get? above = none) : d.makeDirectory p = .error .notFound := by
  obtain ⟨expand, init, hback, hinit, hlocate⟩ := exists_locate_eq hp d
  have hsplit : isProper above = true ∧ isEntryName name = true := by
    simpa [isProper] using hproper
  have hwalk : advance d false expand [] (init ++ [name]) = .error .notFound := by
    refine advance_of_missing expand hback (isDirectoryAt_nil d) ?_ ?_ ?_
      (isStep_of_isEntryName hsplit.2)
    · rw [hinit]
      exact hopen
    · rw [hinit]
      exact hsplit.1
    · rw [hinit]
      exact hmissing
  rw [makeDirectory, hlocate, hwalk]

theorem isDirectoryAt_put (hrooted : isDirectoryAt d.table above = true)
    (hname : isEntryName name = true) (hnone : d.get? (above ++ [name]) = none) :
    isDirectoryAt (d.put (above ++ [name]) (.directory Entry.directoryMode)).table
      (above ++ [name]) = true :=
  isDirectoryAt_iff.mpr ⟨_, (changed_put (fits_of_none hrooted hname hnone _)).get?_self⟩

/-- Where directories can be made, no link is on the way. -/
theorem IsOpen.isPlain (h : d.IsOpen loc) : d.IsPlain loc := by
  intro x hx target hlink
  rcases h x hx with hnone | hdir
  · rw [hlink] at hnone
    cases hnone
  · rw [isDirectoryAt_of_get? hlink] at hdir
    cases hdir

/-- Directories that are made where something was missing have nothing in them yet. -/
theorem free_of_made_above {fuel : Nat} (hp : p.Spells above) (hopen : d.IsOpen above)
    (hmissing : d.get? above = none)
    (hmade : d.makeDirectoriesFrom (pathAndAbove fuel p) = (d', .ok ())) :
    d'.get? (above ++ [name]) = none := by
  have hgrown : Grown (· <+: above) d d' := by
    have hd' : d' = (d.makeDirectoriesFrom (pathAndAbove fuel p)).1 :=
      (congrArg Prod.fst hmade).symm
    rw [hd']
    exact grown_of_makeDirectoriesFrom hopen.isPlain fun q hq => hp.of_mem_pathAndAbove hq
  rcases hgrown (above ++ [name]) with hsame | ⟨hway, -, -⟩
  · rw [hsame]
    exact get?_eq_none_below hmissing (List.prefix_append above _)
  · have hlong := hway.length_le
    rw [List.length_append, List.length_singleton] at hlong
    omega

/-- **What is missing on the way down can be made**, if nothing else is in the way.  By induction on the
    paths that are made, from the location up to the root. -/
theorem exists_makeDirectoriesFrom {fuel : Nat} (hp : p.DescendsTo loc)
    (hproper : isProper loc = true) (hopen : d.IsOpen loc) (hfuel : loc.length ≤ fuel) :
    ∃ d', d.makeDirectoriesFrom (pathAndAbove fuel p) = (d', .ok ()) ∧
      isDirectoryAt d'.table loc = true := by
  induction fuel generalizing p loc with
  | zero =>
    obtain rfl : loc = [] := List.eq_nil_of_length_eq_zero (Nat.le_zero.mp hfuel)
    exact ⟨d, rfl, isDirectoryAt_nil d⟩
  | succ fuel ih =>
    obtain ⟨rest, htext⟩ := hp.text_eq
    rw [pathAndAbove, htext, List.isEmpty_cons, if_neg Bool.false_ne_true]
    cases hparent : p.parent? with
    | none =>
      obtain rfl : loc = [] := hp.eq_nil_of_parent? hparent
      exact ⟨d, rfl, isDirectoryAt_nil d⟩
    | some parent =>
      have hne : loc ≠ [] := (hp.toSpells.parent? hparent).2
      obtain ⟨above, name, rfl⟩ : ∃ above name, loc = above ++ [name] :=
        ⟨_, _, (List.dropLast_concat_getLast hne).symm⟩
      have hparent' : parent.DescendsTo above := by
        have hdropped := hp.parent? hparent
        rwa [List.dropLast_concat] at hdropped
      have hsplit : isProper above = true ∧ isEntryName name = true := by
        simpa [isProper] using hproper
      have hopen' : d.IsOpen above := fun x hx => hopen x (hx.trans (List.prefix_append above _))
      dsimp only
      rw [makeDirectoriesFrom]
      rcases hopen' above (List.prefix_refl above) with hmissing | habove
      · -- the directories above are made first, and then nothing is at the name
        rw [makeDirectory_of_missing hp hproper hopen' hmissing]
        have hlength : above.length ≤ fuel := by
          rw [List.length_append, List.length_singleton] at hfuel
          omega
        obtain ⟨d₁, hmade, habove⟩ := ih hparent' hsplit.1 hopen' hlength
        have hfree : d₁.get? (above ++ [name]) = none :=
          free_of_made_above hparent'.toSpells hopen' hmissing hmade
        rw [hmade]
        dsimp only
        rw [makeDirectory_of_descendsTo hp habove hsplit.2, hfree]
        exact ⟨_, rfl, isDirectoryAt_put habove hsplit.2 hfree⟩
      · rw [makeDirectory_of_descendsTo hp habove hsplit.2]
        rcases hopen (above ++ [name]) (List.prefix_refl _) with hfree | hdir
        · rw [hfree]
          exact ⟨_, rfl, isDirectoryAt_put habove hsplit.2 hfree⟩
        · obtain ⟨mode, hmode⟩ := isDirectoryAt_iff.mp hdir
          rw [hmode]
          exact ⟨d, by simp [isDirectory_of_spells hp.toSpells hp.toAdmissible hdir], hdir⟩

theorem exists_makeDirectories (hp : p.DescendsTo loc) (hproper : isProper loc = true)
    (hopen : d.IsOpen loc) :
    ∃ d', d.makeDirectories p = (d', .ok ()) ∧ isDirectoryAt d'.table loc = true := by
  have hlength : loc.length ≤ p.text.length := by
    have hshort := le_length_pathOf (fun _ hn => hp.isStep hn : IsDescent loc)
    have hpath := hp.length_pathOf_le
    omega
  exact exists_makeDirectoriesFrom hp hproper hopen hlength

/-- At the name of a link that leads to no directory none is made. -/
theorem makeDirectories_of_link {target : Bytes} (hp : p.DescendsTo (above ++ [name]))
    (habove : isDirectoryAt d.table above = true) (hname : isEntryName name = true)
    (hlink : d.get? (above ++ [name]) = some (.link target)) (hnowhere : d.isDirectory p = false) :
    d.makeDirectories p = (d, .error .occupied) := by
  obtain ⟨rest, htext⟩ := hp.text_eq
  cases hparent : p.parent? with
  | none => exact absurd (hp.eq_nil_of_parent? hparent) (by simp)
  | some parent =>
    rw [makeDirectories, htext, List.length_cons, pathAndAbove, htext, List.isEmpty_cons,
      if_neg Bool.false_ne_true, hparent]
    dsimp only
    rw [makeDirectoriesFrom, makeDirectory_of_descendsTo hp habove hname, hlink]
    simp [hnowhere]

end Disk

end Stencil
