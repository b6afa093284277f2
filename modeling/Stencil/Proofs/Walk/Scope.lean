/-
  The tree that a walk goes through.

  A walk starts at a path as it is given, be it spelled with idle pieces, steps back or links, and spells
  on from there: the path of an entry is the path of the root with the names below it put behind, one by
  one.  `Scope` holds what a walk is given and where its root leads.  Of a tree without links whose names
  are texts (`Scope.Spans`) it is shown here that

  - an entry is found by its path, and a directory is listed by it, unless the path is too long for the
    system (`Spans.find_path`, `Spans.list_path`);
  - the relative path that is read off the path of an entry are its names with slashes between them
    (`Spans.relativePath_path`);
  - what lies below an entry that is passed over is passed over too (`isSkipped_of_below`).

  `Scope.IsVisited` and `Scope.IsLeftOut` say which entries a walk is to visit and which it is to count.
-/
import Stencil.Proofs.Disk.Routes
import Stencil.Proofs.Path.Places
import Stencil.Proofs.Walk

namespace Stencil.Walk

open Disk Path

/-! ## Paths spelled on from a root -/

section

variable {d : Disk} {p : Path} {steps : Location}

/-- Every name makes the path longer. -/
theorem length_foldl_entryPath (hsteps : IsDescent steps) :
    p.text.length + steps.length ≤ (steps.foldl entryPath p).text.length := by
  induction steps generalizing p with
  | nil => exact Nat.le_refl _
  | cons name steps ih =>
    have hlonger := length_lt_length_join (p := p) (hsteps name List.mem_cons_self)
    have hrest := ih (p := entryPath p name) fun n hn => hsteps n (List.mem_cons_of_mem name hn)
    rw [List.foldl_cons, List.length_cons]
    rw [← entryPath] at hlonger
    omega

/-- No zero byte comes in where names are put behind a path. -/
theorem noNul_foldl_entryPath (hp : p.text.contains 0 = false) (hsteps : isProper steps = true) :
    (steps.foldl entryPath p).text.contains 0 = false := by
  induction steps generalizing p with
  | nil => exact hp
  | cons name steps ih =>
    rw [isProper, List.all_cons, Bool.and_eq_true] at hsteps
    obtain ⟨hname, hsteps⟩ := hsteps
    have hproper : isProper [name] = true := by
      rw [isProper, List.all_cons, hname, List.all_nil, Bool.and_true]
    have hzero : (0 : UInt8) ∉ name := zero_not_mem_of_isProper hproper name List.mem_cons_self
    exact ih (noNul_join hp (isStep_of_isEntryName hname) hzero) hsteps

/-- What lies below a directory is found by the path that is spelled on from there. -/
theorem find_foldl_entryPath {top : Location} (h : d.find true p = .ok top)
    (hlinkless : ∀ x, top <+: x → ∀ target, d.get? x ≠ some (.link target)) {e : Entry}
    (he : d.get? (top ++ steps) = some e) (hshort : (steps.foldl entryPath p).text.length < maxPath) :
    d.find true (steps.foldl entryPath p) = .ok (top ++ steps) := by
  induction steps generalizing p top with
  | nil =>
    rw [List.append_nil]
    exact h
  | cons name steps ih =>
    rw [List.append_cons] at he ⊢
    have hdescent : IsDescent (top ++ [name] ++ steps) := isDescent_of_get? he
    have hlonger := length_foldl_entryPath (p := entryPath p name) fun n hn =>
      hdescent n (List.mem_append_right _ hn)
    have hbelow : top <+: top ++ [name] := List.prefix_append top [name]
    obtain ⟨e', he'⟩ := exists_get?_above he (List.prefix_append (top ++ [name]) steps)
    have htop : isDirectoryAt d.table top = true := isDirectoryAt_above he' hbelow (by simp)
    have hchild := find_join h htop he' (kind_ne_link (hlinkless _ hbelow) he')
      (Nat.lt_of_le_of_lt (Nat.le_of_add_right_le hlonger) hshort)
    exact ih hchild (fun x hx => hlinkless x (hbelow.trans hx)) he hshort

end

/-! ## The entries of a tree -/

/-- Where a walk through a source tree starts, as it is spelled and where that leads, and what is not
    visited. -/
structure Scope where
  root : Path
  top : Location
  skip : List Path
  rules : IgnoreRules

namespace Scope

variable (s : Scope) (d : Disk) (x : Location)

/-- The names that lead down to an entry from the top. -/
def steps : Location := x.drop s.top.length

/-- The path of an entry, spelled on from the root. -/
def path : Path := (s.steps x).foldl entryPath s.root

/-- The relative path of an entry: the names that lead down to it, with slashes between them. -/
def relative : String := "/".intercalate ((s.steps x).map Bytes.lossy)

/-- An entry as it is met in a tree without links. -/
def sighting : Sighting := ⟨s.path x, if isDirectoryAt d.table x then .directory else .file⟩

/-- Does the entry lie under a path that is passed over? -/
def isSkipped : Bool := s.skip.any (s.path x).startsWith

/-- Do the rules leave the entry out? -/
def isIgnored : Bool := s.rules.ignores (s.relative x) (isDirectoryAt d.table x)

/-- Is the entry itself visited? -/
def admits : Bool := !s.isSkipped x && !s.isIgnored d x

/-- The root leads to the top, below which there is a tree without links, and the names in it are
    texts. -/
structure Spans : Prop where
  found : d.find true s.root = .ok s.top
  linkless : ∀ x, s.top <+: x → ∀ target, d.get? x ≠ some (.link target)
  textual : ∀ x e, s.top <+: x → d.get? x = some e → ∀ name ∈ s.steps x, IsText name

/-- The entry lies below the top, and neither it nor a directory on the way there is passed over or left
    out. -/
structure IsVisited : Prop where
  below : s.top <+: x
  ne : x ≠ s.top
  there : ∃ e, d.get? x = some e
  passed : ∀ q, q <+: x → s.top <+: q → q ≠ s.top → s.isSkipped q = false ∧ s.isIgnored d q = false

/-- The entry lies below the top and is left out by the rules, but no directory on the way there is, and
    it is not passed over. -/
structure IsLeftOut : Prop where
  below : s.top <+: x
  ne : x ≠ s.top
  there : ∃ e, d.get? x = some e
  kept : s.isSkipped x = false
  ignored : s.isIgnored d x = true
  above : ∀ q, q <+: x → q ≠ x → s.top <+: q → q ≠ s.top → s.isIgnored d q = false

variable {s d x}

theorem steps_append (steps : Location) : s.steps (s.top ++ steps) = steps :=
  List.drop_left

/-- The path of the top is the one that the walk was given. -/
theorem path_top : s.path s.top = s.root := by
  rw [path, steps, List.drop_length]
  rfl

theorem steps_concat (h : s.top <+: x) (name : Name) : s.steps (x ++ [name]) = s.steps x ++ [name] :=
  List.drop_append_of_le_length h.length_le

/-- An entry is met by its name behind the path of its directory. -/
theorem path_concat (h : s.top <+: x) (name : Name) :
    s.path (x ++ [name]) = entryPath (s.path x) name := by
  rw [path, path, steps_concat h, List.foldl_append]
  rfl

/-- What lies below the top lies under proper names from there. -/
theorem isProper_steps {e : Entry} (hbelow : s.top <+: x) (he : d.get? x = some e) :
    isProper (s.steps x) = true := by
  obtain ⟨steps, rfl⟩ := hbelow
  have hproper := isProper_of_get? he
  rw [isProper, List.all_append, Bool.and_eq_true] at hproper
  rw [steps_append]
  exact hproper.2

/-- The path of an entry is the root with the names of the entry behind it. -/
theorem components_path {e : Entry} (hbelow : s.top <+: x) (he : d.get? x = some e) :
    (s.path x).components = s.root.components ++ (s.steps x).map .normal :=
  components_foldl_join (isDescent_of_isProper (isProper_steps hbelow he)) s.root

/-- What lies under a path that is passed over is passed over with all that it holds. -/
theorem isSkipped_of_below {e : Entry} {q : Location} (hq : q <+: x) (hbelow : s.top <+: q)
    (he : d.get? x = some e) (hskipped : s.isSkipped q = true) : s.isSkipped x = true := by
  obtain ⟨f, hf, hstarts⟩ := List.any_eq_true.mp hskipped
  refine List.any_eq_true.mpr ⟨f, hf, ?_⟩
  by_cases hqx : q = x
  · exact hqx ▸ hstarts
  obtain ⟨mode, hmode⟩ := isDirectoryAt_iff.mp (isDirectoryAt_above he hq hqx)
  rw [startsWith_iff_isPrefix] at hstarts ⊢
  refine hstarts.trans ?_
  rw [components_path hbelow hmode, components_path (hbelow.trans hq) he,
    List.prefix_append_right_inj]
  exact (List.IsPrefix.drop hq _).map _

theorem admits_iff : s.admits d x = true ↔ s.isSkipped x = false ∧ s.isIgnored d x = false := by
  rw [admits, Bool.and_eq_true, Bool.not_eq_true', Bool.not_eq_true']

/-- What is visited is what a tour admits and finds. -/
theorem isVisited_iff : s.IsVisited d x ↔ Admitted (s.admits d) s.top x ∧ ∃ e, d.get? x = some e := by
  constructor
  · rintro ⟨hbelow, hne, hthere, hpassed⟩
    exact ⟨⟨hbelow, hne, fun q hq htop hqne => admits_iff.mpr (hpassed q hq htop hqne)⟩, hthere⟩
  · rintro ⟨⟨hbelow, hne, hway⟩, hthere⟩
    exact ⟨hbelow, hne, hthere, fun q hq htop hqne => admits_iff.mp (hway q hq htop hqne)⟩

namespace Spans

variable {e : Entry} (h : s.Spans d)

include h

/-- **The relative path** of an entry is read off its path. -/
theorem relativePath_path (hbelow : s.top <+: x) (he : d.get? x = some e) :
    relativePath s.root (s.path x) = .ok (s.relative x) ∧
      Bytes.ofString (s.relative x) = List.intercalate [Bytes.slash] (s.steps x) := by
  obtain ⟨texts, htexts⟩ := exists_texts (h.textual x e hbelow he)
  have hlossy : (s.steps x).map Bytes.lossy = texts := by
    rw [← htexts, List.map_map]
    exact List.map_id'' Bytes.lossy_ofString texts
  rw [relative, hlossy, ofString_intercalate, htexts]
  exact ⟨relativePath_of_components (htexts ▸ components_path hbelow he), rfl⟩

/-- An entry of the tree is found, unless its path is too long. -/
theorem find_path (hbelow : s.top <+: x) (he : d.get? x = some e) :
    d.find true (s.path x) =
      if maxPath ≤ (s.path x).text.length then .error .nameTooLong else .ok x := by
  have hproper := isProper_steps hbelow he
  obtain ⟨hnul, -, -⟩ := reach_eq_ok_iff.mp (reach_of_find h.found)
  split
  · rename_i hlong
    exact find_of_long (noNul_foldl_entryPath hnul hproper) hlong
  · rename_i hshort
    obtain ⟨steps, rfl⟩ := hbelow
    rw [path, steps_append] at hshort ⊢
    exact find_foldl_entryPath h.found h.linkless he (Nat.not_le.mp hshort)

/-- A directory of the tree is listed, unless its path is too long. -/
theorem list_path (hbelow : s.top <+: x) (hdir : isDirectoryAt d.table x = true) :
    d.list (s.path x) =
      if maxPath ≤ (s.path x).text.length then .error .nameTooLong else .ok (d.children x) := by
  obtain ⟨mode, he⟩ := isDirectoryAt_iff.mp hdir
  rw [list, h.find_path hbelow he]
  split
  · rfl
  · exact if_pos hdir

/-- In a tree without links an entry is met as what it is. -/
theorem sighting_eq (hbelow : s.top <+: x) (he : d.get? x = some e) :
    s.sighting d x = ⟨s.path x, e.kind⟩ := by
  have hkind := kind_ne_link (h.linkless x hbelow) he
  rw [sighting, isDirectoryAt_of_get? he]
  cases e with
  | link target => exact absurd rfl hkind
  | file mode content => rfl
  | directory mode => rfl

end Spans

end Scope

end Stencil.Walk
