/-
  What paths say, name by name.

  A path is cut at its slashes; the pieces that are neither empty nor `.` are its names.  Most paths
  that are handed to the disk start at the root and never step back: `Spells p loc` says that `p` is
  such a path and that its names are those of `loc`.  What is compared between two paths, their
  components, depends on the names alone (`Spells.startsWith_iff`), and so does what the operations on
  paths make of them: `parent?` drops the last name, `join` with a name adds one.

  `Disk.pathOf loc` is the shortest path that spells `loc`.
-/
import Mathlib.Data.List.Basic
import Mathlib.Data.List.TakeWhile
import Stencil.Disk.Operations
import Stencil.Text.Segments

namespace Stencil.Path

/-! ## Pieces -/

/-- The piece that steps back. -/
abbrev back : Bytes := [0x2E, 0x2E]

/-- A slash parts the pieces before it from those behind it. -/
theorem pieces_append (a b : Bytes) : pieces (a ++ Bytes.slash :: b) = pieces a ++ pieces b :=
  List.splitOnP_append_cons a b (by decide)

/-- Without a slash there is one piece. -/
theorem pieces_of_not_mem {a : Bytes} (h : Bytes.slash ∉ a) : pieces a = [a] :=
  List.splitOn_eq_singleton h

/-- A slash at the start has an empty piece before it. -/
theorem pieces_slash (b : Bytes) : pieces (Bytes.slash :: b) = [] :: pieces b :=
  pieces_append [] b

theorem pieces_ne_nil (a : Bytes) : pieces a ≠ [] := List.splitOn_ne_nil _ _

/-- Pieces that are put together with slashes are cut apart again. -/
theorem pieces_intercalate {xs : List Bytes} (h : ∀ x ∈ xs, Bytes.slash ∉ x) (hne : xs ≠ []) :
    pieces (List.intercalate [Bytes.slash] xs) = xs :=
  List.splitOn_intercalate _ h hne

/-- No piece holds a slash. -/
theorem slash_not_mem_of_mem_pieces {a piece : Bytes} (h : piece ∈ pieces a) :
    Bytes.slash ∉ piece := by
  -- a byte that is no slash joins the first piece of what follows
  induction a generalizing piece with
  | nil =>
    rw [pieces_of_not_mem List.not_mem_nil] at h
    rw [List.mem_singleton.mp h]
    exact List.not_mem_nil
  | cons b a ih =>
    by_cases hb : b = Bytes.slash
    · rw [hb, pieces_slash] at h
      rcases List.mem_cons.mp h with rfl | h
      · exact List.not_mem_nil
      · exact ih h
    · obtain ⟨first, rest, hpieces⟩ := List.exists_cons_of_ne_nil (pieces_ne_nil a)
      have hcons : pieces (b :: a) = (b :: first) :: rest := by
        have hstep := List.splitOnP_cons_eq_if_modifyHead (p := (· == Bytes.slash)) b a
        rw [if_neg (by simpa using hb)] at hstep
        show List.splitOnP (· == Bytes.slash) (b :: a) = _
        rw [hstep]
        show List.modifyHead (List.cons b) (pieces a) = _
        rw [hpieces, List.modifyHead_cons]
      rw [hcons] at h
      have hfirst := ih (hpieces ▸ List.mem_cons_self)
      rcases List.mem_cons.mp h with rfl | h
      · simp [Ne.symm hb, hfirst]
      · exact ih (hpieces ▸ List.mem_cons_of_mem first h)

/-! ## Names -/

/-- A name that leads one directory down: it says something, does not step back and holds no slash. -/
structure IsStep (name : Bytes) : Prop where
  speaks : isIdle name = false
  onward : name ≠ back
  whole : Bytes.slash ∉ name

/-- A step says something, so that it is not empty. -/
theorem IsStep.ne_nil {name : Bytes} (h : IsStep name) : name ≠ [] := by
  rintro rfl
  exact absurd h.speaks (by decide)

/-- Names that a file system allows lead one directory down; they are short besides, and hold no zero
    byte. -/
theorem isStep_of_isEntryName {name : Bytes} (h : isEntryName name = true) : IsStep name := by
  simp only [isEntryName, Bool.and_eq_true, Bool.not_eq_true', bne_iff_ne, decide_eq_true_eq] at h
  exact ⟨h.1.1.1.1, h.1.1.1.2, by simpa using h.1.1.2⟩

/-- The pieces that say something. -/
def spoken (xs : List Bytes) : List Bytes := xs.filter fun piece => !isIdle piece

theorem spoken_append (xs ys : List Bytes) : spoken (xs ++ ys) = spoken xs ++ spoken ys :=
  List.filter_append ..

theorem spoken_reverse (xs : List Bytes) : spoken xs.reverse = (spoken xs).reverse :=
  List.filter_reverse

/-- Idle pieces at the start say nothing. -/
theorem spoken_dropWhile (xs : List Bytes) : spoken (xs.dropWhile isIdle) = spoken xs := by
  induction xs with
  | nil => rfl
  | cons x xs ih =>
    by_cases hx : isIdle x = true
    · simpa [List.dropWhile_cons, hx, spoken] using ih
    · simp [hx]

/-- The names that a path goes through.  A step back counts as a name. -/
def names (p : Path) : List Name := spoken (pieces p.text)

/-- Names are pieces that say something already. -/
theorem spoken_names (p : Path) : spoken p.names = p.names := by
  rw [names, spoken, spoken, List.filter_filter]
  simp

/-- The names of a path are those before a slash and those behind it. -/
theorem names_mk_append (a b : Bytes) :
    names ⟨a ++ Bytes.slash :: b⟩ = names ⟨a⟩ ++ names ⟨b⟩ := by
  show spoken (pieces (a ++ Bytes.slash :: b)) = _
  rw [pieces_append, spoken_append]
  rfl

/-- A slash at the start adds no name. -/
theorem names_mk_slash (b : Bytes) : names ⟨Bytes.slash :: b⟩ = names ⟨b⟩ := names_mk_append [] b

/-- Slashes at the end add no name. -/
theorem names_mk_append_slashes (a : Bytes) (n : Nat) :
    names ⟨a ++ List.replicate n Bytes.slash⟩ = names ⟨a⟩ := by
  induction n generalizing a with
  | zero => rw [List.replicate_zero, List.append_nil]
  | succ n ih =>
    have hempty : names ⟨[]⟩ = [] := rfl
    rw [List.replicate_succ', ← List.append_assoc, names_mk_append, ih, hempty, List.append_nil]

/-- The names of a path that is put together from pieces are the pieces that say something. -/
theorem names_intercalate {xs : List Bytes} (h : ∀ x ∈ xs, Bytes.slash ∉ x) :
    names ⟨List.intercalate [Bytes.slash] xs⟩ = spoken xs := by
  by_cases hne : xs = []
  · subst hne
    rfl
  · show spoken (pieces (List.intercalate [Bytes.slash] xs)) = _
    rw [pieces_intercalate h hne]

/-- Every name but a step back leads one directory down. -/
theorem isStep_of_mem_names {p : Path} {name : Name} (h : name ∈ p.names) (hback : name ≠ back) :
    IsStep name := by
  obtain ⟨hmem, hidle⟩ := List.mem_filter.mp h
  exact ⟨by simpa using hidle, hback, slash_not_mem_of_mem_pieces hmem⟩

/-- A name without a slash is a path of its own, and not an absolute one. -/
theorem isAbsolute_of_whole {name : Name} (h : Bytes.slash ∉ name) :
    (Path.mk name).isAbsolute = false := by
  rw [isAbsolute, beq_eq_false_iff_ne]
  exact fun hhead => h (List.mem_of_head? hhead)

/-- A piece that says something is its own only name. -/
theorem names_of_whole {name : Name} (hspeaks : isIdle name = false) (hwhole : Bytes.slash ∉ name) :
    (Path.mk name).names = [name] := by
  rw [names, pieces_of_not_mem hwhole, spoken, List.filter_singleton, hspeaks]
  rfl

/-- Where two lists of pieces say the same and one begins with a name, the other has it behind idle
    pieces. -/
theorem exists_idle_of_spoken_eq {piece : Bytes} {rest qs : List Bytes} (hspeaks : isIdle piece = false)
    (heq : spoken (piece :: rest) = spoken qs) : ∃ idle rest', qs = idle ++ piece :: rest' ∧
      (∀ q ∈ idle, isIdle q = true) ∧ spoken rest = spoken rest' := by
  have hcons : spoken (piece :: rest) = piece :: spoken rest := by simp [spoken, hspeaks]
  rw [hcons] at heq
  obtain ⟨idle, rest', rfl, hidle, -, hrest⟩ := List.filter_eq_cons_iff.mp heq.symm
  exact ⟨idle, rest', rfl, fun q hq => by simpa using hidle q hq, hrest.symm⟩

/-- What a name says. -/
def said (name : Name) : Component := if name = back then .parent else .normal name

/-- Behind its start, a path says its names. -/
theorem filterMap_component? (p : Path) : (pieces p.text).filterMap component? = p.names.map said := by
  unfold names
  induction pieces p.text with
  | nil => rfl
  | cons piece rest ih =>
    have hsaid : isIdle piece = false → component? piece = some (said piece) := by
      intro hidle
      rw [component?, hidle, if_neg Bool.false_ne_true, said]
      split <;> rfl
    cases hidle : isIdle piece with
    | true => simpa [component?, spoken, hidle] using ih
    | false => simpa [hsaid hidle, spoken, hidle] using ih

/-- A path that starts with a slash says that, and then its names. -/
theorem components_of_absolute {p : Path} (h : p.isAbsolute = true) :
    p.components = .root :: p.names.map said := by
  rw [components, if_pos h, filterMap_component?]
  rfl

/-- Only names stand between the slashes of a path's components. -/
theorem isStep_of_normal_mem {p : Path} {name : Name} (h : Component.normal name ∈ p.components) :
    IsStep name := by
  have hmem : Component.normal name ∈ p.names.map said := by
    rw [← filterMap_component?]
    rcases List.mem_append.mp h with h | h
    · -- what stands at the start is no name
      split at h <;> simp at h
    · exact h
  obtain ⟨n, hn, hsaid⟩ := List.mem_map.mp hmem
  by_cases hback : n = back
  · simp [said, hback] at hsaid
  · simp only [said, hback, if_false, Component.normal.injEq] at hsaid
    exact hsaid ▸ isStep_of_mem_names hn hback

/-- The name of a file is never `..`. -/
theorem isStep_of_fileName? {p : Path} {name : Name} (h : p.fileName? = some name) : IsStep name := by
  rw [fileName?] at h
  split at h
  · rename_i last hlast
    obtain rfl := Option.some.inj h
    exact isStep_of_normal_mem (List.mem_of_getLast? hlast)
  · cases h

/-! ## Parents -/

/-- Behind a `.` that is the first piece of a path, the path ends or a slash follows. -/
theorem text_of_dot {p : Path} (h : (pieces p.text).head? = some [0x2E]) :
    p.text = [0x2E] ∨ ∃ rest, p.text = [0x2E] ++ Bytes.slash :: rest := by
  obtain ⟨others, hpieces⟩ := List.head?_eq_some_iff.mp h
  have htext : p.text = List.intercalate [Bytes.slash] ([0x2E] :: others) := by
    rw [← hpieces, pieces, List.intercalate_splitOn]
  cases others with
  | nil => exact .inl htext
  | cons piece others =>
    rw [List.intercalate_cons_cons, List.append_assoc] at htext
    exact .inr ⟨_, htext⟩

/-- The ways in which a path can start. -/
theorem anchor_cases (p : Path) :
    (p.anchor = [Bytes.slash] ∧ p.isAbsolute = true ∧ ∃ rest, p.text = Bytes.slash :: rest) ∨
      (p.anchor = [0x2E] ∧ p.isAbsolute = false ∧
        (p.text = [0x2E] ∨ ∃ rest, p.text = [0x2E] ++ Bytes.slash :: rest)) ∨
      (p.anchor = [] ∧ p.isAbsolute = false) := by
  rw [anchor]
  cases habsolute : p.isAbsolute with
  | true =>
    rw [isAbsolute, beq_iff_eq, List.head?_eq_some_iff] at habsolute
    exact .inl ⟨rfl, rfl, habsolute⟩
  | false =>
    rw [if_neg Bool.false_ne_true]
    split
    · rename_i hdot
      exact .inr (.inl ⟨rfl, rfl, text_of_dot hdot⟩)
    · exact .inr (.inr ⟨rfl, rfl⟩)

/-- What a path starts with is no name. -/
theorem spoken_pieces_drop_anchor (p : Path) :
    spoken (pieces (p.text.drop p.anchor.length)) = p.names := by
  rcases p.anchor_cases with ⟨hanchor, -, rest, htext⟩ | ⟨hanchor, -, htext | ⟨rest, htext⟩⟩ |
    ⟨hanchor, -⟩ <;> rw [names, hanchor]
  · rw [htext, pieces_slash]
    rfl
  · rw [htext]
    decide
  · rw [htext, pieces_append]
    rfl
  · rfl

/-- What is kept of the pieces of a path is read behind what the path starts with. -/
theorem names_anchor_append {p : Path} {kept : List Bytes}
    (hkept : kept <+: pieces (p.text.drop p.anchor.length)) :
    (Path.mk (p.anchor ++ List.intercalate [Bytes.slash] kept)).isAbsolute = p.isAbsolute ∧
      names ⟨p.anchor ++ List.intercalate [Bytes.slash] kept⟩ = spoken kept := by
  have hslash : ∀ x ∈ kept, Bytes.slash ∉ x := fun x hx =>
    slash_not_mem_of_mem_pieces (hkept.subset hx)
  have hnames := names_intercalate hslash
  obtain ⟨rest, h⟩ : ∃ rest, pieces (p.text.drop p.anchor.length) = kept ++ rest :=
    hkept.imp fun _ => Eq.symm
  rcases p.anchor_cases with ⟨hanchor, habsolute, -⟩ | ⟨hanchor, hrelative, htext⟩ | ⟨hanchor, hrelative⟩
  · rw [hanchor, habsolute]
    exact ⟨rfl, (names_mk_slash _).trans hnames⟩
  · rw [hanchor, hrelative]
    rw [hanchor] at h
    refine ⟨rfl, ?_⟩
    cases kept with
    | nil => decide
    | cons x xs =>
      -- the first piece behind the dot is empty
      have hx : x = [] := by
        rcases htext with htext | ⟨others, htext⟩ <;> rw [htext] at h
        · exact (List.cons.inj h).1.symm
        · have hpieces : pieces (Bytes.slash :: others) = x :: xs ++ rest := h
          rw [pieces_slash] at hpieces
          exact (List.cons.inj hpieces).1.symm
      subst hx
      cases xs with
      | nil => decide
      | cons y ys =>
        have hbehind := names_intercalate fun z hz => hslash z (List.mem_cons_of_mem _ hz)
        rw [List.intercalate_cons_cons, List.nil_append]
        refine (names_mk_append [0x2E] (List.intercalate [Bytes.slash] (y :: ys))).trans ?_
        rw [hbehind]
        rfl
  · rw [hanchor, hrelative, List.nil_append]
    rw [hanchor] at h
    refine ⟨?_, hnames⟩
    cases kept with
    | nil => rfl
    | cons x xs =>
      have hpieces : pieces p.text = x :: xs ++ rest := h
      have htext : p.text = List.intercalate [Bytes.slash] (x :: xs ++ rest) := by
        rw [← hpieces, pieces, List.intercalate_splitOn]
      cases x with
      | nil =>
        -- an empty piece at the start is the only one, or a slash would follow
        cases xs with
        | nil => rfl
        | cons y ys =>
          rw [List.cons_append, List.cons_append, List.intercalate_cons_cons] at htext
          rw [isAbsolute, htext] at hrelative
          cases hrelative
      | cons b bs =>
        have hb : b ≠ Bytes.slash := fun heq =>
          hslash (b :: bs) List.mem_cons_self (heq ▸ List.mem_cons_self)
        cases xs with
        | nil => simp [isAbsolute, hb]
        | cons y ys => simp [isAbsolute, List.intercalate_cons_cons, hb]

/-- Where nothing is said behind what a path starts with, there are no names. -/
theorem names_eq_nil_of_idle {p : Path}
    (h : (pieces (p.text.drop p.anchor.length)).reverse.dropWhile isIdle = []) : p.names = [] := by
  have hnames : p.names.reverse = [] := by
    rw [← spoken_pieces_drop_anchor, ← spoken_reverse, ← spoken_dropWhile, h]
    rfl
  exact List.reverse_eq_nil_iff.mp hnames

/-- **What the parent of a path is**: the pieces before the last one that says something, up to one that
    says something itself, behind what the path starts with.  The parent of `.` is empty. -/
theorem parent?_cases {p q : Path} (h : p.parent? = some q) :
    (p.isAbsolute = false ∧ p.names = [] ∧ q = ⟨[]⟩) ∨
      ∃ kept last, kept <+: pieces (p.text.drop p.anchor.length) ∧ p.names = spoken kept ++ [last] ∧
        (∀ x ∈ kept.getLast?, isIdle x = false) ∧
        q = ⟨p.anchor ++ List.intercalate [Bytes.slash] kept⟩ := by
  rw [Path.parent?] at h
  cases hbehind : (pieces (p.text.drop p.anchor.length)).reverse.dropWhile isIdle with
  | nil =>
    rw [hbehind] at h
    dsimp only at h
    split at h
    · rename_i hdot
      refine .inl ⟨?_, names_eq_nil_of_idle hbehind, (Option.some.inj h).symm⟩
      rw [anchor] at hdot
      split at hdot
      · cases hdot
      · rename_i hrelative
        exact Bool.not_eq_true _ ▸ hrelative
    · cases h
  | cons last before =>
    rw [hbehind] at h
    have hlast : isIdle last = false := by
      have hhead := List.head?_dropWhile_not isIdle (pieces (p.text.drop p.anchor.length)).reverse
      rw [hbehind] at hhead
      simpa using hhead
    refine .inr ⟨(before.dropWhile isIdle).reverse, last, ?_, ?_, fun x hx => ?_,
      (Option.some.inj h).symm⟩
    · rw [← List.reverse_suffix, List.reverse_reverse]
      exact (List.dropWhile_suffix isIdle).trans
        ((List.suffix_cons last before).trans (hbehind ▸ List.dropWhile_suffix isIdle))
    · rw [← spoken_pieces_drop_anchor p, ← List.reverse_reverse (pieces _), spoken_reverse,
        ← spoken_dropWhile, hbehind, spoken_reverse, spoken_dropWhile]
      simp [spoken, hlast]
    · have hhead := List.head?_dropWhile_not isIdle before
      rw [List.getLast?_reverse, Option.mem_def] at hx
      rw [hx] at hhead
      simpa using hhead

/-- A parent starts like its path and lacks the last name, except for the parent of `.`, which is
    empty. -/
theorem names_parent? {p q : Path} (h : p.parent? = some q) : q.isAbsolute = p.isAbsolute ∧
    (q.text = [] ∧ p.names = [] ∨ ∃ last, p.names = q.names ++ [last]) := by
  obtain ⟨hrelative, hnames, rfl⟩ | ⟨kept, last, hkept, hnames, -, rfl⟩ := parent?_cases h
  · exact ⟨hrelative.symm, .inl ⟨rfl, hnames⟩⟩
  · obtain ⟨hstart, hspoken⟩ := names_anchor_append hkept
    exact ⟨hstart, .inr ⟨last, hspoken ▸ hnames⟩⟩

/-- A path without a parent has no names. -/
theorem names_eq_nil_of_parent? {p : Path} (h : p.parent? = none) : p.names = [] := by
  rw [Path.parent?] at h
  cases hbehind : (pieces (p.text.drop p.anchor.length)).reverse.dropWhile isIdle with
  | nil => exact names_eq_nil_of_idle hbehind
  | cons last before =>
    rw [hbehind] at h
    cases h

/-- A path with names has a parent, which lacks the last one. -/
theorem exists_parent? {p : Path} (h : p.names ≠ []) : ∃ q last, p.parent? = some q ∧
    q.isAbsolute = p.isAbsolute ∧ p.names = q.names ++ [last] := by
  cases hparent : p.parent? with
  | none => exact absurd (names_eq_nil_of_parent? hparent) h
  | some q =>
    obtain ⟨hstart, ⟨-, hnone⟩ | ⟨last, hlast⟩⟩ := names_parent? hparent
    · exact absurd hnone h
    · exact ⟨q, last, rfl, hstart, hlast⟩

/-- A step back is a name: no piece of another kind is one. -/
theorem back_not_mem_pieces {p : Path} (h : back ∉ p.names) : back ∉ pieces p.text := fun hmem =>
  h (List.mem_filter.mpr ⟨hmem, by decide⟩)

/-! ## Paths that go down from the root -/

/-- The path starts at the root and goes down through the names of a location, without a step back. -/
structure Spells (p : Path) (loc : Location) : Prop where
  absolute : p.isAbsolute = true
  names : p.names = loc
  straight : back ∉ loc

namespace Spells

variable {p q : Path} {loc other : Location} {name : Name}

/-- The names of a path that goes down lead down. -/
theorem isStep (h : p.Spells loc) (hname : name ∈ loc) : IsStep name :=
  isStep_of_mem_names (h.names ▸ hname) fun hback => h.straight (hback ▸ hname)

/-- There is no step back in the path as it is spelled, either. -/
theorem back_not_mem_names (h : p.Spells loc) : back ∉ p.names := by
  rw [h.names]
  exact h.straight

/-- A path that starts at the root has its slash there. -/
theorem text_eq (h : p.Spells loc) : ∃ rest, p.text = Bytes.slash :: rest := by
  have habsolute := h.absolute
  rw [isAbsolute, beq_iff_eq, List.head?_eq_some_iff] at habsolute
  exact habsolute

/-- What such a path is compared by: the root and its names. -/
theorem components (h : p.Spells loc) : p.components = .root :: loc.map .normal := by
  have hsaid : p.names.map said = loc.map .normal := by
    rw [h.names]
    refine List.map_congr_left fun n hn => ?_
    exact if_neg (h.isStep hn).onward
  rw [components_of_absolute h.absolute, hsaid]

end Spells

/-- What is taken off a path's end are slashes. -/
theorem text_withoutSlashes (p : Path) :
    ∃ n, p.text = (Disk.withoutSlashes p).text ++ List.replicate n Bytes.slash := by
  have hslashes : (p.text.reverse.takeWhile (· == Bytes.slash)).reverse =
      List.replicate (p.text.reverse.takeWhile (· == Bytes.slash)).length Bytes.slash := by
    rw [List.eq_replicate_iff]
    refine ⟨List.length_reverse, fun b hb => ?_⟩
    simpa using List.mem_takeWhile_imp (List.mem_reverse.mp hb)
  have htext := List.takeWhile_append_dropWhile (p := (· == Bytes.slash)) (l := p.text.reverse)
  rw [Disk.withoutSlashes]
  split
  · exact ⟨0, by simp⟩
  · refine ⟨(p.text.reverse.takeWhile (· == Bytes.slash)).length, ?_⟩
    rw [← hslashes, ← List.reverse_append, htext, List.reverse_reverse]

/-- Without the slashes at its end a path starts where it started; one of slashes alone keeps them. -/
theorem isAbsolute_withoutSlashes (p : Path) :
    (Disk.withoutSlashes p).isAbsolute = p.isAbsolute := by
  obtain ⟨n, htext⟩ := text_withoutSlashes p
  cases hkept : (Disk.withoutSlashes p).text with
  | nil =>
    -- then nothing was taken off
    have hsame : Disk.withoutSlashes p = p := by
      rw [Disk.withoutSlashes] at hkept ⊢
      split
      · rfl
      · rename_i hshown
        rw [if_neg hshown] at hkept
        exact absurd (List.isEmpty_iff.mpr hkept) hshown
    rw [hsame]
  | cons b rest =>
    rw [isAbsolute, isAbsolute, htext, hkept]
    rfl

/-- The slashes at the end of a path are behind its names. -/
theorem names_withoutSlashes (p : Path) : (Disk.withoutSlashes p).names = p.names := by
  obtain ⟨n, htext⟩ := text_withoutSlashes p
  rw [← names_mk_append_slashes (Disk.withoutSlashes p).text n, ← htext]

/-- Where there is no slash at the end, none is taken off. -/
theorem withoutSlashes_eq_self {p : Path} (h : p.text.getLast? ≠ some Bytes.slash) :
    Disk.withoutSlashes p = p := by
  have hkept : p.text.reverse.dropWhile (· == Bytes.slash) = p.text.reverse := by
    rw [← List.head?_reverse] at h
    cases htext : p.text.reverse with
    | nil => rfl
    | cons b rest =>
      rw [htext, List.head?_cons] at h
      have hb : ¬ (b == Bytes.slash) = true := fun heq => h (congrArg some (beq_iff_eq.mp heq))
      rw [List.dropWhile_cons, if_neg hb]
  rw [Disk.withoutSlashes, hkept, List.reverse_reverse]
  split <;> rfl

/-- A text of pieces ends like its last piece. -/
theorem getLast?_intercalate {last : Bytes} (hlast : last ≠ []) (before : Bytes) (xs : List Bytes) :
    (before ++ List.intercalate [Bytes.slash] (xs ++ [last])).getLast? = last.getLast? := by
  induction xs generalizing before with
  | nil =>
    rw [List.nil_append, List.intercalate_singleton, List.getLast?_append_of_ne_nil before hlast]
  | cons x xs ih =>
    obtain ⟨y, ys, hrest⟩ := List.exists_cons_of_ne_nil (List.concat_ne_nil last xs)
    rw [List.cons_append, hrest, List.intercalate_cons_cons, ← hrest, ← List.append_assoc,
      ← List.append_assoc]
    exact ih _

/-- No slash is left at the end of a parent. -/
theorem withoutSlashes_parent? {p q : Path} (h : p.parent? = some q) : Disk.withoutSlashes q = q := by
  obtain ⟨-, -, rfl⟩ | ⟨kept, -, hkept, -, hspeaks, rfl⟩ := parent?_cases h
  · rfl
  rcases List.eq_nil_or_concat' kept with rfl | ⟨before, last, rfl⟩
  · rcases p.anchor_cases with ⟨hanchor, -⟩ | ⟨hanchor, -⟩ | ⟨hanchor, -⟩ <;> rw [hanchor] <;> rfl
  · -- the parent ends with a piece that says something
    have hne : last ≠ [] := by
      rintro rfl
      exact absurd (hspeaks [] (by simp)) (by decide)
    have hslash : Bytes.slash ∉ last :=
      slash_not_mem_of_mem_pieces (hkept.subset (List.mem_append_right _ List.mem_cons_self))
    refine withoutSlashes_eq_self ?_
    rw [getLast?_intercalate hne]
    exact fun hend => hslash (List.mem_of_getLast? hend)

theorem map_normal_injective : Function.Injective (List.map Component.normal) :=
  List.map_injective_iff.mpr fun _ _ h => Component.normal.inj h

/-- What a path says behind another one comes after what that says. -/
theorem below?_eq_some_iff_append {p base : Path} {cs : List Component} :
    below? base p = some cs ↔ base.components ++ cs = p.components :=
  List.isPrefixOf?_eq_some_iff_append_eq

/-- A path starts with another one if it says what that says, and goes on. -/
theorem startsWith_iff_isPrefix {p base : Path} :
    p.startsWith base = true ↔ base.components <+: p.components := by
  rw [startsWith, Option.isSome_iff_exists]
  exact exists_congr fun rest => below?_eq_some_iff_append

namespace Spells

variable {p q : Path} {loc other : Location} {name : Name}

/-- What a path says behind another one are the names behind its names. -/
theorem below?_eq_some_iff (h : p.Spells loc) (hq : q.Spells other) {cs : List Component} :
    below? q p = some cs ↔ ∃ rest, loc = other ++ rest ∧ cs = rest.map .normal := by
  rw [below?_eq_some_iff_append, h.components, hq.components, List.cons_append, List.cons_inj_right]
  constructor
  · intro heq
    obtain ⟨a, b, rfl, ha, rfl⟩ := List.map_eq_append_iff.mp heq.symm
    exact ⟨b, by rw [map_normal_injective ha], rfl⟩
  · rintro ⟨rest, rfl, rfl⟩
    exact List.map_append.symm

/-- What lies before a path that goes down goes down itself. -/
theorem of_below? (h : p.Spells loc) (hq : q.isAbsolute = true) {cs : List Component}
    (hcs : below? q p = some cs) : q.Spells q.names where
  absolute := hq
  names := rfl
  straight := by
    intro hback
    rw [below?_eq_some_iff_append, h.components] at hcs
    have hparent : Component.parent ∈ q.components := by
      rw [Path.components, filterMap_component?]
      exact List.mem_append_right _ (List.mem_map.mpr ⟨back, hback, rfl⟩)
    have hmem : Component.parent ∈ Component.root :: loc.map .normal :=
      hcs ▸ List.mem_append_left cs hparent
    simp at hmem

/-- **A path that goes down starts with another one if its location lies below the other's.** -/
theorem startsWith_iff (h : p.Spells loc) (hq : q.Spells other) :
    p.startsWith q = true ↔ other <+: loc := by
  rw [startsWith, Option.isSome_iff_exists]
  constructor
  · rintro ⟨cs, hcs⟩
    obtain ⟨rest, rfl, -⟩ := (h.below?_eq_some_iff hq).mp hcs
    exact List.prefix_append other rest
  · rintro ⟨rest, rfl⟩
    exact ⟨_, (h.below?_eq_some_iff hq).mpr ⟨rest, rfl, rfl⟩⟩

/-- Two paths that go down are compared by their locations. -/
theorem components_eq_iff (h : p.Spells loc) (hq : q.Spells other) :
    p.components = q.components ↔ loc = other := by
  rw [h.components, hq.components, List.cons_inj_right]
  exact map_normal_injective.eq_iff

/-- The parent spells what is left when the last name is dropped. -/
theorem parent? (h : p.Spells loc) (hq : p.parent? = some q) :
    q.Spells loc.dropLast ∧ loc ≠ [] := by
  obtain ⟨hstart, hnames⟩ := names_parent? hq
  have habsolute : q.isAbsolute = true := hstart.trans h.absolute
  rcases hnames with ⟨hempty, -⟩ | ⟨last, hlast⟩
  · rw [isAbsolute, hempty] at habsolute
    cases habsolute
  · rw [h.names] at hlast
    have hdropped : q.names = loc.dropLast := by rw [hlast, List.dropLast_concat]
    refine ⟨⟨habsolute, hdropped, fun hmem => h.straight ((List.dropLast_sublist loc).subset hmem)⟩, ?_⟩
    rw [hlast]
    exact List.concat_ne_nil last q.names

/-- Only the root has no parent. -/
theorem eq_nil_of_parent? (h : p.Spells loc) (hnone : p.parent? = none) : loc = [] := by
  rw [← h.names]
  exact names_eq_nil_of_parent? hnone

/-- Slashes at the end do not matter. -/
theorem withoutSlashes (h : p.Spells loc) : (Disk.withoutSlashes p).Spells loc where
  absolute := by
    rw [isAbsolute_withoutSlashes]
    exact h.absolute
  names := by
    rw [names_withoutSlashes]
    exact h.names
  straight := h.straight

end Spells

end Stencil.Path

/-! ## The path of a location -/

namespace Stencil.Disk

open Path

variable {loc : Location} {name : Name}

/-- All names of the location lead one directory down. -/
def IsDescent (loc : Location) : Prop := ∀ name ∈ loc, IsStep name

/-- Names that a file system allows lead down. -/
theorem isDescent_of_isProper (h : isProper loc = true) : IsDescent loc :=
  fun _ hname => isStep_of_isEntryName (List.all_eq_true.mp h _ hname)

/-- A further name leads further down. -/
theorem IsDescent.concat (h : IsDescent loc) (hname : IsStep name) : IsDescent (loc ++ [name]) := by
  intro n hn
  rcases List.mem_append.mp hn with hn | hn
  · exact h n hn
  · rw [List.mem_singleton.mp hn]
    exact hname

theorem IsDescent.append {other : Location} (h : IsDescent loc) (hother : IsDescent other) :
    IsDescent (loc ++ other) :=
  fun n hn => (List.mem_append.mp hn).elim (h n) (hother n)

/-- All names of a descent say something. -/
theorem IsDescent.spoken_eq (h : IsDescent loc) : spoken loc = loc :=
  List.filter_eq_self.mpr fun n hn => by simp [(h n hn).speaks]

theorem IsDescent.back_not_mem (h : IsDescent loc) : back ∉ loc := fun hback => (h back hback).onward rfl

/-- **The path of a location spells it.** -/
theorem spells_pathOf (h : IsDescent loc) : (pathOf loc).Spells loc where
  absolute := rfl
  names := by
    rw [pathOf, names_mk_slash, names_intercalate fun n hn => (h n hn).whole, h.spoken_eq]
  straight := h.back_not_mem

/-- Every name of a location stands behind a slash of its own. -/
theorem text_pathOf (hne : loc ≠ []) : (pathOf loc).text = loc.flatMap (Bytes.slash :: ·) := by
  obtain ⟨name, rest, rfl⟩ := List.exists_cons_of_ne_nil hne
  rw [pathOf, intercalate_cons_eq]
  rfl

/-- The path of a name in a directory is that of the directory, with the name behind it. -/
theorem join_pathOf (h : IsDescent loc) (hname : IsStep name) :
    (pathOf loc).join ⟨name⟩ = pathOf (loc ++ [name]) := by
  rw [Path.join, isAbsolute_of_whole hname.whole, if_neg Bool.false_ne_true]
  -- the path of the root ends with its slash, any other path needs one more
  rcases List.eq_nil_or_concat loc with rfl | ⟨above, last, rfl⟩
  · simp [pathOf]
  · rw [List.concat_eq_append] at h ⊢
    have hlast : IsStep last := h last (List.mem_append_right above List.mem_cons_self)
    have htext : (pathOf (above ++ [last])).text =
        above.flatMap (Bytes.slash :: ·) ++ Bytes.slash :: last := by
      rw [text_pathOf (by simp)]
      simp
    have hend : (pathOf (above ++ [last])).text.getLast? ≠ some Bytes.slash := by
      have hsame : (pathOf (above ++ [last])).text.getLast? = last.getLast? :=
        getLast?_intercalate hlast.ne_nil [Bytes.slash] above
      rw [hsame]
      exact fun hslash => hlast.whole (List.mem_of_getLast? hslash)
    have hopen : ¬ ((pathOf (above ++ [last])).text.isEmpty ||
        (pathOf (above ++ [last])).text.getLast? == some Bytes.slash) = true := by
      simp [htext] at hend ⊢
      exact hend
    rw [if_neg hopen]
    show Path.mk ((pathOf (above ++ [last])).text ++ Bytes.slash :: name) = _
    have hwhole : (pathOf (above ++ [last] ++ [name])).text =
        (pathOf (above ++ [last])).text ++ Bytes.slash :: name := by
      rw [text_pathOf (by simp), text_pathOf (by simp), List.flatMap_append]
      simp
    rw [← hwhole]

/-- A path is at least twice as long as its location. -/
theorem le_length_pathOf (h : IsDescent loc) : 2 * loc.length ≤ (pathOf loc).text.length := by
  by_cases hne : loc = []
  · subst hne
    exact Nat.zero_le _
  · rw [text_pathOf hne]
    clear hne
    induction loc with
    | nil => exact Nat.zero_le _
    | cons name rest ih =>
      have hname : 0 < name.length := List.length_pos_iff.mpr (h name List.mem_cons_self).ne_nil
      have hrest := ih fun n hn => h n (List.mem_cons_of_mem name hn)
      simp only [List.flatMap_cons, List.length_append, List.length_cons]
      omega

end Stencil.Disk
