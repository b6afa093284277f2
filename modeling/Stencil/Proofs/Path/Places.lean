/-
  Texts of places in a project.

  A relative path is a text, a place is a location, and the two determine each other: `joinUnder` leads
  to the place whose names are those of the text (`joinUnder_eq`), and what `relativePath` reads off a
  place whose names are texts is these names with slashes between them (`relativePath_eq`).  The names
  of a text are texts themselves (`isText_of_mem_pieces`), because no character but the slash itself has
  the byte of a slash in it.
-/
import Stencil.ProjectPath
import Stencil.Proofs.Path.Names
import Stencil.Proofs.Text.Utf8

namespace Stencil

namespace Bytes

/-- Only the slash is written with the byte of a slash. -/
theorem slash_not_mem_encode {c : Char} (h : c ≠ '/') : slash ∉ String.utf8EncodeChar c := by
  have hchar : c.val.toNat ≠ 0x2F := by
    intro hval
    refine h (Char.ext (UInt32.toNat_inj.mp ?_))
    rw [hval]
    rfl
  have hbyte : ∀ n, n < 256 → n ≠ 0x2F → UInt8.ofNat n ≠ slash := by
    intro n hn hne heq
    have hnat := congrArg UInt8.toNat heq
    exact hne ((UInt8.toNat_ofNat_of_lt' hn).symm.trans hnat)
  have hvalid : c.val.toNat < 0xD800 ∨ (0xDFFF < c.val.toNat ∧ c.val.toNat < 0x110000) := c.valid
  rw [String.utf8EncodeChar]
  generalize c.val.toNat = v at hvalid hchar
  split
  · simp only [List.mem_singleton]
    exact (hbyte v (by omega) hchar).symm
  split
  · simp only [List.mem_cons, List.not_mem_nil, or_false, not_or]
    exact ⟨(hbyte _ (by omega) (by omega)).symm, (hbyte _ (by omega) (by omega)).symm⟩
  split
  · simp only [List.mem_cons, List.not_mem_nil, or_false, not_or]
    exact ⟨(hbyte _ (by omega) (by omega)).symm, (hbyte _ (by omega) (by omega)).symm,
      (hbyte _ (by omega) (by omega)).symm⟩
  · simp only [List.mem_cons, List.not_mem_nil, or_false, not_or]
    exact ⟨(hbyte _ (by omega) (by omega)).symm, (hbyte _ (by omega) (by omega)).symm,
      (hbyte _ (by omega) (by omega)).symm, (hbyte _ (by omega) (by omega)).symm⟩

end Bytes

namespace Path

/-- The bytes are those of a text. -/
def IsText (name : Bytes) : Prop := ∃ s : String, name = Bytes.ofString s

theorem pieces_append_of_not_mem {a : Bytes} (h : Bytes.slash ∉ a) (b : Bytes) :
    pieces (a ++ b) = (pieces b).modifyHead (a ++ ·) := by
  induction a with
  | nil =>
    rw [List.nil_append]
    exact (congrFun List.modifyHead_id (pieces b)).symm
  | cons x a ih =>
    rw [List.mem_cons, not_or] at h
    have hstep := List.splitOnP_cons_eq_if_modifyHead (p := (· == Bytes.slash)) x (a ++ b)
    rw [if_neg (by simpa using Ne.symm h.1)] at hstep
    show List.splitOnP (· == Bytes.slash) (x :: (a ++ b)) = _
    rw [hstep]
    show (pieces (a ++ b)).modifyHead (List.cons x) = _
    rw [ih h.2, List.modifyHead_modifyHead]
    rfl

/-- **The pieces of a text** are its segments. -/
theorem pieces_ofChars (cs : List Char) :
    pieces (Bytes.ofChars cs) = (segments cs).map Bytes.ofChars := by
  induction cs with
  | nil => exact pieces_of_not_mem List.not_mem_nil
  | cons c cs ih =>
    have hsegments := List.splitOnP_cons_eq_if_modifyHead (p := (· == '/')) c cs
    change segments (c :: cs) = _ at hsegments
    by_cases hc : c = '/'
    · subst hc
      rw [hsegments, if_pos (by decide), List.map_cons]
      exact (pieces_slash (Bytes.ofChars cs)).trans (congrArg _ ih)
    · rw [hsegments, if_neg (by simpa using hc), Bytes.ofChars_cons,
        pieces_append_of_not_mem (Bytes.slash_not_mem_encode hc), ih]
      change _ = ((segments cs).modifyHead (c :: ·)).map Bytes.ofChars
      cases segments cs <;> rfl

/-- So they are texts. -/
theorem isText_of_mem_pieces {s : String} {piece : Bytes} (h : piece ∈ pieces (Bytes.ofString s)) :
    IsText piece := by
  rw [Bytes.ofString, pieces_ofChars] at h
  obtain ⟨segment, -, rfl⟩ := List.mem_map.mp h
  exact ⟨String.ofList segment, by rw [Bytes.ofString, String.toList_ofList]⟩

end Path

namespace Disk

open Path

variable {loc : Location}

/-- Slashes before a text add no names. -/
theorem names_dropLeadingSlashes (cs : List Char) :
    names ⟨Bytes.ofChars (dropLeadingSlashes cs)⟩ = names ⟨Bytes.ofChars cs⟩ := by
  induction cs with
  | nil => rfl
  | cons c cs ih =>
    by_cases hc : c = '/'
    · subst hc
      rw [dropLeadingSlashes, List.dropWhile_cons_of_pos (by decide), ← dropLeadingSlashes, ih]
      exact (names_mk_slash (Bytes.ofChars cs)).symm
    · rw [dropLeadingSlashes, List.dropWhile_cons_of_neg (by simpa using hc)]

/-- Where no name steps back, the names are put behind the root one by one. -/
theorem placeUnder_said (relative : String) (root target : Path) (names : List Name) :
    placeUnder relative root target (names.map said) =
      if back ∈ names then .error (.invalidPath (.leaves relative root))
      else .ok (names.foldl (fun p n => p.join ⟨n⟩) target) := by
  induction names generalizing target with
  | nil => rfl
  | cons name names ih =>
    rw [List.map_cons, said]
    by_cases hback : name = back
    · rw [if_pos hback, if_pos (hback ▸ List.mem_cons_self)]
      rfl
    · have hmem : back ∈ name :: names ↔ back ∈ names := by simp [Ne.symm hback]
      rw [if_neg hback, placeUnder, ih, if_congr hmem rfl rfl]
      rfl

/-- What begins with no slash is relative: no other character holds that byte. -/
theorem isAbsolute_dropLeadingSlashes (cs : List Char) :
    (Path.mk (Bytes.ofChars (dropLeadingSlashes cs))).isAbsolute = false := by
  cases hrest : dropLeadingSlashes cs with
  | nil => rfl
  | cons c rest =>
    have hc : c ≠ '/' := by
      have hhead := List.head?_dropWhile_not (· == '/') cs
      rw [show cs.dropWhile (· == '/') = c :: rest from hrest] at hhead
      simpa using hhead
    obtain ⟨b, bs, hbytes⟩ := List.exists_cons_of_ne_nil (String.utf8EncodeChar_ne_nil (c := c))
    have hb : b ≠ Bytes.slash := by
      rintro rfl
      exact Bytes.slash_not_mem_encode hc (hbytes ▸ List.mem_cons_self)
    simp [isAbsolute, hbytes, hb]

/-- **The place of a text below a root**: the names of the text behind the root.  A text that steps back
    has none. -/
theorem joinUnder_eq_names (root : Path) (relative : String) : joinUnder root relative =
    if back ∈ (Path.ofString relative).names then
      .error (.invalidPath (.leaves (String.ofList (dropLeadingSlashes relative.toList)) root))
    else .ok ((Path.ofString relative).names.foldl (fun p n => p.join ⟨n⟩) root) := by
  let rest : List Char := dropLeadingSlashes relative.toList
  have hpath : Path.ofString (String.ofList rest) = ⟨Bytes.ofChars rest⟩ := by
    rw [Path.ofString, Bytes.ofString, String.toList_ofList]
  have hnames : names ⟨Bytes.ofChars rest⟩ = (Path.ofString relative).names :=
    names_dropLeadingSlashes relative.toList
  have hplace := placeUnder_said (String.ofList rest) root root (Path.ofString relative).names
  rw [joinUnder, show Path.ofString (String.ofList (dropLeadingSlashes relative.toList)) = _ from hpath,
    components, isAbsolute_dropLeadingSlashes, if_neg Bool.false_ne_true, filterMap_component?, hnames,
    ← hplace]
  split
  · -- a dot at the start says nothing
    rfl
  · rfl

/-- Names behind the path of a location lead to the location behind it. -/
theorem foldl_join_pathOf {names : List Name} (h : IsDescent loc) (hnames : IsDescent names) :
    names.foldl (fun p n => p.join ⟨n⟩) (pathOf loc) = pathOf (loc ++ names) := by
  induction names generalizing loc with
  | nil => rw [List.append_nil]; rfl
  | cons name names ih =>
    have hname : IsStep name := hnames name List.mem_cons_self
    rw [List.foldl_cons, join_pathOf h hname,
      ih (h.concat hname) fun n hn => hnames n (List.mem_cons_of_mem name hn), List.append_assoc]
    rfl

/-- **The place of a text** has the names of the text. -/
theorem joinUnder_eq {relative : String} {p : Path} (h : IsDescent loc)
    (hp : joinUnder (pathOf loc) relative = .ok p) :
    IsDescent (Path.ofString relative).names ∧ p = pathOf (loc ++ (Path.ofString relative).names) := by
  rw [joinUnder_eq_names] at hp
  split at hp
  · cases hp
  · rename_i hstraight
    have hdescent : IsDescent (Path.ofString relative).names := fun n hn =>
      isStep_of_mem_names hn fun hback => hstraight (hback ▸ hn)
    exact ⟨hdescent, (Except.ok.inj hp).symm.trans (foldl_join_pathOf h hdescent)⟩

/-- So a place below a root is spelled by a location below that of the root. -/
theorem joinUnder_eq_ok {relative : String} {p : Path} (h : IsDescent loc)
    (hp : joinUnder (pathOf loc) relative = .ok p) :
    ∃ place, loc <+: place ∧ IsDescent place ∧ p = pathOf place := by
  obtain ⟨hsteps, hplace⟩ := joinUnder_eq h hp
  exact ⟨_, List.prefix_append loc _, h.append hsteps, hplace⟩

theorem ofString_intercalate (texts : List String) :
    Bytes.ofString ("/".intercalate texts) =
      List.intercalate [Bytes.slash] (texts.map Bytes.ofString) := by
  rw [Bytes.ofString, String.toList_intercalate]
  induction texts with
  | nil => rfl
  | cons s texts ih =>
    cases texts with
    | nil => simp [Bytes.ofString]
    | cons t texts =>
      rw [List.map_cons, List.map_cons, List.intercalate_cons_cons, Bytes.ofChars_append,
        Bytes.ofChars_append, ← List.map_cons, ih, List.map_cons, List.map_cons, List.map_cons,
        List.intercalate_cons_cons]
      rfl

theorem componentTexts?_ofString (texts : List String) :
    componentTexts? ((texts.map Bytes.ofString).map .normal) = some texts := by
  rw [componentTexts?]
  induction texts with
  | nil => rfl
  | cons s texts ih =>
    have hs : Bytes.toString? (Component.normal (Bytes.ofString s)).text = some s :=
      Bytes.toString?_ofString s
    rw [List.map_cons, List.map_cons, List.mapM_cons, ih, hs]
    rfl

/-- Names that are texts are the names of some texts. -/
theorem exists_texts {steps : Location} (h : ∀ name ∈ steps, IsText name) :
    ∃ texts : List String, texts.map Bytes.ofString = steps := by
  induction steps with
  | nil => exact ⟨[], rfl⟩
  | cons name steps ih =>
    obtain ⟨s, rfl⟩ := h name List.mem_cons_self
    obtain ⟨texts, rfl⟩ := ih fun n hn => h n (List.mem_cons_of_mem _ hn)
    exact ⟨s :: texts, rfl⟩

/-- **The text of a path** that says texts behind a root is these texts with slashes between them. -/
theorem relativePath_of_components {root p : Path} {texts : List String}
    (h : p.components = root.components ++ (texts.map Bytes.ofString).map .normal) :
    relativePath root p = .ok ("/".intercalate texts) := by
  have hbelow : below? root p = some ((texts.map Bytes.ofString).map .normal) :=
    below?_eq_some_iff_append.mpr h.symm
  rw [relativePath, hbelow]
  dsimp only
  rw [componentTexts?_ofString]

/-- So the text of a place whose names are texts is these names with slashes between them. -/
theorem relativePath_eq {steps : Location} (h : IsDescent loc) (hsteps : IsDescent steps)
    (htext : ∀ name ∈ steps, IsText name) : ∃ relative,
      relativePath (pathOf loc) (pathOf (loc ++ steps)) = .ok relative ∧
      Bytes.ofString relative = List.intercalate [Bytes.slash] steps := by
  obtain ⟨texts, rfl⟩ := exists_texts htext
  refine ⟨"/".intercalate texts, relativePath_of_components ?_, ofString_intercalate texts⟩
  rw [(spells_pathOf (h.append hsteps)).components, (spells_pathOf h).components, List.map_append]
  rfl

/-- Read as a path, the text of a place has the names of the place. -/
theorem names_of_ofString_eq {steps : Location} {relative : String} (hsteps : IsDescent steps)
    (hrelative : Bytes.ofString relative = List.intercalate [Bytes.slash] steps) :
    (Path.ofString relative).names = steps := by
  rw [Path.ofString, hrelative, names_intercalate fun x hx => (hsteps x hx).whole]
  exact hsteps.spoken_eq

end Disk

end Stencil
