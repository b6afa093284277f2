/-
  Paths seen from the root.

  `absolute?` puts the steps of a path behind the working directory, or behind the root
  (`names_absolute?`).  A path that never steps back then spells the location that its names lead to from
  there (`spells_absolute?`).
-/
import Stencil.Proofs.Path.Names

namespace Stencil.Path

variable {p q : Path} {loc : Location}

/-! ## Joining -/

/-- The pieces of a relative path stand last in the join, behind some that say what the path before
    it says. -/
theorem exists_pieces_join {p q : Path} (hq : q.isAbsolute = false) :
    ∃ ps, pieces (p.join q).text = ps ++ pieces q.text ∧ spoken ps = p.names := by
  rw [Path.join, hq, if_neg Bool.false_ne_true]
  split
  · rename_i hopen
    rcases Bool.or_eq_true_iff.mp hopen with hempty | hslash
    · have hnil : p.text = [] := List.isEmpty_iff.mp hempty
      refine ⟨[], ?_, ?_⟩
      · rw [hnil]
        rfl
      · rw [names, hnil]
        rfl
    · obtain ⟨front, hfront⟩ := List.getLast?_eq_some_iff.mp (beq_iff_eq.mp hslash)
      refine ⟨pieces front, ?_, ?_⟩
      · rw [hfront, List.append_assoc, List.singleton_append, pieces_append]
      · rw [names, hfront, pieces_append, spoken_append]
        exact (List.append_nil _).symm
  · exact ⟨pieces p.text, pieces_append p.text q.text, rfl⟩

/-- The names of a joined path are those of both. -/
theorem names_join {p q : Path} (hq : q.isAbsolute = false) :
    (p.join q).names = p.names ++ q.names := by
  obtain ⟨ps, hpieces, hspoken⟩ := exists_pieces_join (p := p) hq
  rw [names, hpieces, spoken_append, hspoken]
  rfl

/-- Whatever is joined to an absolute path, the whole is absolute. -/
theorem isAbsolute_join {p : Path} (q : Path) (hp : p.isAbsolute = true) :
    (p.join q).isAbsolute = true := by
  have hhead : ∀ bs, (Path.mk (p.text ++ bs)).isAbsolute = true := by
    intro bs
    rw [isAbsolute, beq_iff_eq] at hp ⊢
    rw [List.head?_append, hp]
    rfl
  rw [Path.join]
  split
  · assumption
  · split
    · exact hhead q.text
    · exact hhead (Bytes.slash :: q.text)

theorem isAbsolute_join_relative {q : Path} (hq : q.isAbsolute = false) (p : Path) :
    (p.join q).isAbsolute = p.isAbsolute := by
  rw [Path.join, hq, if_neg Bool.false_ne_true]
  cases hbytes : p.text with
  | nil => simpa [Path.isAbsolute, hbytes] using hq
  | cons b bs =>
    split <;> simp [Path.isAbsolute, hbytes]

/-- What a path starts with stays at the start of its joins. -/
theorem head?_pieces_join {p q : Path} (hp : p.text ≠ []) (hq : q.isAbsolute = false) :
    (pieces (p.join q).text).head? = (pieces p.text).head? := by
  rw [Path.join, hq, if_neg Bool.false_ne_true]
  split
  · rename_i hopen
    have hslash := (Bool.or_eq_true_iff.mp hopen).resolve_left (by simpa using hp)
    obtain ⟨front, hfront⟩ := List.getLast?_eq_some_iff.mp (beq_iff_eq.mp hslash)
    rw [hfront, List.append_assoc, List.singleton_append, pieces_append, pieces_append,
      List.head?_append_of_ne_nil _ (pieces_ne_nil front),
      List.head?_append_of_ne_nil _ (pieces_ne_nil front)]
  · rw [pieces_append, List.head?_append_of_ne_nil _ (pieces_ne_nil p.text)]

/-- A relative path behind a path that says something is its names more. -/
theorem components_join_relative {p q : Path} (hp : p.text ≠ []) (hq : q.isAbsolute = false) :
    (p.join q).components = p.components ++ q.names.map said := by
  rw [components, components, isAbsolute_join_relative hq, head?_pieces_join hp hq,
    filterMap_component?, filterMap_component?, names_join hq, List.map_append, List.append_assoc]

/-- A name behind a path is one component more. -/
theorem components_join {p : Path} {name : Name} (hname : IsStep name) :
    (p.join ⟨name⟩).components = p.components ++ [.normal name] := by
  have hsaid : said name = .normal name := if_neg hname.onward
  have hrelative : (Path.mk name).isAbsolute = false := isAbsolute_of_whole hname.whole
  have hnames : (Path.mk name).names = [name] := names_of_whole hname.speaks hname.whole
  obtain ⟨text⟩ := p
  cases text with
  | nil =>
    -- behind nothing the name stands by itself, and it is no dot
    have hdot : ¬ (pieces name).head? = some [0x2E] := by
      rw [pieces_of_not_mem hname.whole]
      intro hhead
      have hspeaks := hname.speaks
      rw [Option.some.inj hhead] at hspeaks
      exact absurd hspeaks (by decide)
    have hjoin : (Path.mk []).join ⟨name⟩ = ⟨name⟩ := by
      rw [Path.join, hrelative, if_neg Bool.false_ne_true]
      rfl
    rw [hjoin, components, hrelative, if_neg Bool.false_ne_true, if_neg hdot, filterMap_component?,
      hnames, List.map_singleton, hsaid]
    rfl
  | cons b bs =>
    rw [components_join_relative (List.cons_ne_nil b bs) hrelative, hnames, List.map_singleton, hsaid]

/-- Names behind a path, one by one, are as many components more. -/
theorem components_foldl_join {names : List Name} (h : ∀ n ∈ names, IsStep n) (p : Path) :
    (names.foldl (fun q n => q.join ⟨n⟩) p).components = p.components ++ names.map .normal := by
  induction names generalizing p with
  | nil => exact (List.append_nil _).symm
  | cons name names ih =>
    rw [List.foldl_cons, ih fun n hn => h n (List.mem_cons_of_mem name hn),
      components_join (h name List.mem_cons_self), List.append_assoc]
    rfl

/-- A name behind a path makes it longer. -/
theorem length_lt_length_join {p : Path} {name : Name} (hname : IsStep name) :
    p.text.length < (p.join ⟨name⟩).text.length := by
  have hpos := List.length_pos_iff.mpr hname.ne_nil
  rw [Path.join, isAbsolute_of_whole hname.whole, if_neg Bool.false_ne_true]
  split
  · show p.text.length < (p.text ++ name).length
    rw [List.length_append]
    omega
  · show p.text.length < (p.text ++ Bytes.slash :: name).length
    rw [List.length_append, List.length_cons]
    omega

/-! ## Pushing names -/

/-- A name is spelled by the component that says it. -/
theorem text_said (name : Name) : (said name).text = name := by
  by_cases hback : name = back
  · rw [hback]
    rfl
  · rw [said, if_neg hback]
    rfl

/-- Names that are pushed one after the other are added.  A step back counts as a name. -/
theorem foldl_push {names : List Name} (hnames : ∀ n ∈ names, isIdle n = false ∧ Bytes.slash ∉ n)
    (p : Path) : ((names.map said).foldl push p).names = p.names ++ names ∧
      (p.isAbsolute = true → ((names.map said).foldl push p).isAbsolute = true) := by
  induction names generalizing p with
  | nil => exact ⟨(List.append_nil _).symm, id⟩
  | cons name rest ih =>
    obtain ⟨hspeaks, hwhole⟩ := hnames name List.mem_cons_self
    have hpush : (p.push (said name)).names = p.names ++ [name] := by
      rw [push, text_said, names_join (isAbsolute_of_whole hwhole), names_of_whole hspeaks hwhole]
    -- the others are pushed onto the longer path
    obtain ⟨hall, habsolute⟩ := ih (fun n hn => hnames n (List.mem_cons_of_mem name hn))
      (p.push (said name))
    refine ⟨?_, fun hp => habsolute (isAbsolute_join _ hp)⟩
    rw [List.map_cons, List.foldl_cons, hall, hpush, List.append_assoc]
    rfl

/-- A slash at the end adds nothing to that. -/
theorem foldl_push_slashed {names : List Name}
    (hnames : ∀ n ∈ names, isIdle n = false ∧ Bytes.slash ∉ n) {start q : Path} {slashed : Bool}
    (hstart : start.isAbsolute = true)
    (hq : q = if slashed then ((names.map said).foldl push start).join ⟨[]⟩
      else (names.map said).foldl push start) :
    q.isAbsolute = true ∧ q.names = start.names ++ names := by
  obtain ⟨hwhole, habsolute⟩ := foldl_push hnames start
  cases slashed with
  | false => exact ⟨hq ▸ habsolute hstart, hq ▸ hwhole⟩
  | true =>
    rw [if_pos rfl] at hq
    rw [hq, names_join rfl, hwhole]
    exact ⟨isAbsolute_join _ (habsolute hstart), List.append_nil _⟩

/-- Names that are pushed onto a path which does not end with a slash become its last pieces. -/
theorem foldl_push_open {names : List Name} (hnames : ∀ n ∈ names, IsStep n) {p : Path}
    (hne : p.text ≠ []) (hopen : p.text.getLast? ≠ some Bytes.slash) :
    pieces ((names.map .normal).foldl push p).text = pieces p.text ++ names ∧
      ((names.map .normal).foldl push p).isAbsolute = p.isAbsolute ∧
      ((names.map .normal).foldl push p).text ≠ [] := by
  induction names generalizing p with
  | nil => exact ⟨(List.append_nil _).symm, rfl, hne⟩
  | cons name rest ih =>
    have hname : IsStep name := hnames name List.mem_cons_self
    have hrelative : (Path.mk name).isAbsolute = false := isAbsolute_of_whole hname.whole
    have hpush : p.push (.normal name) = ⟨p.text ++ Bytes.slash :: name⟩ := by
      rw [push, Component.text, Path.join, hrelative, if_neg Bool.false_ne_true, if_neg]
      simpa [hne] using hopen
    -- the longer path does not end with a slash either
    have hlast : (p.push (.normal name)).text.getLast? ≠ some Bytes.slash := by
      rw [hpush]
      show (p.text ++ Bytes.slash :: name).getLast? ≠ _
      rw [List.getLast?_append_cons, List.getLast?_cons_of_ne_nil hname.ne_nil]
      exact fun hslash => hname.whole (List.mem_of_getLast? hslash)
    obtain ⟨hpieces, habsolute, hnonempty⟩ :=
      ih (fun n hn => hnames n (List.mem_cons_of_mem name hn)) (by rw [hpush]; simp) hlast
    rw [List.map_cons, List.foldl_cons]
    refine ⟨?_, ?_, hnonempty⟩
    · rw [hpieces, hpush]
      show pieces (p.text ++ Bytes.slash :: name) ++ rest = _
      rw [pieces_append, pieces_of_not_mem hname.whole, List.append_assoc]
      rfl
    · rw [habsolute]
      exact isAbsolute_join_relative hrelative p

/-- **A path seen from the root** has its own names behind those of its start. -/
theorem names_absolute? {here : Location} (hhere : Disk.isProper here = true)
    (h : absolute? (Disk.pathOf here) p = some q) :
    q.isAbsolute = true ∧ q.names = Disk.startOf p.text here ++ p.names := by
  have hnames : ∀ n ∈ p.names, isIdle n = false ∧ Bytes.slash ∉ n := by
    intro n hn
    obtain ⟨hmem, hidle⟩ := List.mem_filter.mp hn
    exact ⟨by simpa using hidle, slash_not_mem_of_mem_pieces hmem⟩
  -- `.` is dropped, so that the root, if any, and the names are the steps
  have hsteps : p.components.filter (· != .current) =
      (if p.isAbsolute then [.root] else []) ++ p.names.map said := by
    rw [components, filterMap_component?, List.filter_append]
    congr 1
    · split
      · rfl
      · split <;> rfl
    · rw [List.filter_eq_self]
      intro c hc
      obtain ⟨n, -, rfl⟩ := List.mem_map.mp hc
      rw [said]
      split <;> rfl
  rw [absolute?] at h
  split at h
  · cases h
  dsimp only at h
  rw [hsteps] at h
  have hstart : Disk.startOf p.text here = if p.isAbsolute then [] else here := rfl
  rw [hstart]
  by_cases htwo : (p.text.take 2 == [Bytes.slash, Bytes.slash] && p.text[2]? != some Bytes.slash) = true
  · -- exactly two slashes at the start are kept
    have habsolute : p.isAbsolute = true := by
      have htake := beq_iff_eq.mp (Bool.and_eq_true_iff.mp htwo).1
      cases htext : p.text with
      | nil =>
        rw [htext] at htake
        cases htake
      | cons b rest =>
        rw [htext, List.take_succ_cons] at htake
        rw [isAbsolute, htext, (List.cons.inj htake).1]
        rfl
    rw [htwo, if_pos rfl, if_pos habsolute] at h
    rw [if_pos habsolute]
    have hslashes : (Path.mk [Bytes.slash, Bytes.slash]).isAbsolute = true := rfl
    exact foldl_push_slashed hnames hslashes (Option.some.inj h).symm
  · rw [if_neg htwo] at h
    by_cases habsolute : p.isAbsolute = true
    · rw [if_pos habsolute, if_pos habsolute] at h
      rw [if_pos habsolute]
      have hslash : (Path.mk [Bytes.slash]).isAbsolute = true := rfl
      exact foldl_push_slashed hnames hslash (Option.some.inj h).symm
    · -- a relative path goes on from the working directory
      have hpath : (Disk.pathOf here).Spells here :=
        Disk.spells_pathOf (Disk.isDescent_of_isProper hhere)
      rw [if_neg habsolute, if_neg habsolute] at h
      rw [if_neg habsolute, ← hpath.names]
      exact foldl_push_slashed hnames hpath.absolute (Option.some.inj h).symm

/-- A path without a step back, seen from the root, goes down through its names from its start. -/
theorem spells_absolute? {here : Location} (hhere : Disk.isProper here = true)
    (hback : back ∉ p.names) (h : absolute? (Disk.pathOf here) p = some q) :
    q.Spells (Disk.startOf p.text here ++ p.names) := by
  obtain ⟨habsolute, hnames⟩ := names_absolute? hhere h
  refine ⟨habsolute, hnames, fun hmem => ?_⟩
  rcases List.mem_append.mp hmem with hmem | hmem
  · -- no name of the working directory steps back
    rw [Disk.startOf] at hmem
    split at hmem
    · cases hmem
    · exact (Disk.isDescent_of_isProper hhere).back_not_mem hmem
  · exact hback hmem

end Stencil.Path

namespace Stencil.Disk

theorem isDescent_startOf (d : Disk) (spelled : Bytes) : IsDescent (startOf spelled d.here) := by
  rw [startOf]
  split
  · exact fun n hn => absurd hn List.not_mem_nil
  · exact isDescent_of_isProper d.hereProper

/-- Where a path starts depends on whether it starts with a slash. -/
theorem startOf_congr {p q : Path} (h : p.isAbsolute = q.isAbsolute) (here : Location) :
    startOf p.text here = startOf q.text here := by
  show (if p.isAbsolute then _ else _) = if q.isAbsolute then _ else _
  rw [h]

/-- The names of a path behind those of its start: the location that it leads to where there are no links,
    if it never steps back. -/
def spelled (d : Disk) (p : Path) : Location := startOf p.text d.here ++ p.names

/-- Making a path absolute asks of a disk for the working directory alone. -/
theorem absolute_congr {d d' : Disk} (hhere : d'.here = d.here) (p : Path) :
    d'.absolute p = d.absolute p := by
  rw [absolute, absolute, hhere]

/-- An empty path is not made absolute. -/
theorem text_ne_nil_of_absolute {d : Disk} {p q : Path} (h : d.absolute p = .ok q) : p.text ≠ [] := by
  intro hempty
  rw [absolute, Path.absolute?, hempty] at h
  cases h

/-- A path is made absolute from the path of the working directory. -/
theorem absolute_eq_ok {d : Disk} {p q : Path} (h : d.absolute p = .ok q) :
    Path.absolute? (pathOf d.here) p = some q := by
  rw [absolute] at h
  split at h
  · rename_i whole hwhole
    exact hwhole.trans (congrArg some (Except.ok.inj h))
  · cases h

theorem isAbsolute_and_names_of_absolute {d : Disk} {p q : Path} (h : d.absolute p = .ok q) :
    q.isAbsolute = true ∧ q.names = d.spelled p :=
  Path.names_absolute? d.hereProper (absolute_eq_ok h)

/-- **Made absolute, a path without a step back spells what it was meant to spell.** -/
theorem spells_absolute {d : Disk} {p q : Path} (hback : Path.back ∉ p.names)
    (h : d.absolute p = .ok q) : q.Spells (d.spelled p) :=
  Path.spells_absolute? d.hereProper hback (absolute_eq_ok h)

end Stencil.Disk
