/-
  What a file names from the directory that it lies in.

  A file can name another one by a path that starts where the file lies.  Who reads it puts that path
  behind the path of the file's directory, spelled as the path of the file is: there may be links and
  steps back on the way, and the directory may even be spelled by nothing at all.

  1. **The directory of the file.**  Where a file is found, its directory was found on the way
     (`exists_liesIn`): the parent of the path leads there, whichever idle pieces stand in it, and needs
     no more links than the file did.
  2. **From the root.**  The parent of the path as it is seen from the root leads to the same
     (`LiesIn.exists_parent_absolute`).
  3. **Beside the file.**  What lies below the directory is reached by its names, when these are put
     behind the parent of the path (`LiesIn.reach_join`).

  The limit on the number of links is what makes this more than a matter of the rules.  The lookup of the
  file has kept to it, and below the directory there are no links on the way.
-/
import Stencil.Proofs.Disk.Routes

namespace Stencil

namespace Path

variable {p : Path} {steps : Location}

/-- The relative path consists of the steps, or it is the one that stays where it is. -/
structure SpellsBelow (p : Path) (steps : Location) : Prop where
  relative : p.isAbsolute = false
  nonempty : p.text ≠ []
  pieces : pieces p.text = steps ∨ steps = [] ∧ Path.pieces p.text = [[0x2E]]

theorem SpellsBelow.names (h : p.SpellsBelow steps) (hsteps : Disk.IsDescent steps) :
    p.names = steps := by
  rcases h.pieces with hpieces | ⟨rfl, hpieces⟩
  · rw [Path.names, hpieces, hsteps.spoken_eq]
  · rw [Path.names, hpieces]
    rfl

/-- What stays where it is. -/
theorem spellsBelow_dot : (ofString ".").SpellsBelow [] :=
  ⟨by decide, by decide, .inr ⟨rfl, by decide⟩⟩

/-- Steps that are pushed onto the first of them. -/
theorem spellsBelow_foldl_push {name : Name} (hsteps : Disk.IsDescent (name :: steps)) :
    ((steps.map .normal).foldl push ⟨name⟩).SpellsBelow (name :: steps) := by
  have hname : IsStep name := hsteps name List.mem_cons_self
  obtain ⟨hpieces, hrelative, hne⟩ := foldl_push_open (p := ⟨name⟩)
    (fun n hn => hsteps n (List.mem_cons_of_mem name hn)) hname.ne_nil
    fun hslash => hname.whole (List.mem_of_getLast? hslash)
  refine ⟨hrelative.trans (isAbsolute_of_whole hname.whole), hne, .inl ?_⟩
  rw [hpieces, pieces_of_not_mem hname.whole]
  rfl

end Path

namespace Disk

open Path

variable {d : Disk} {folder x : Location} {file base p q : Path} {steps : Location} {e : Entry}

/-- The file lies in a directory, to which the names of the parent of its path lead, however they are
    spelled, and with no more links than are followed. -/
structure LiesIn (d : Disk) (file base : Path) (folder : Location) : Prop where
  parent : file.parent? = some base
  absolute : base.isAbsolute = file.isAbsolute
  names : ∃ last, file.names = base.names ++ [last]
  noNul : ∀ n ∈ base.names, (0 : UInt8) ∉ n
  start : isDirectoryAt d.table (startOf base.text d.here) = true
  directory : isDirectoryAt d.table folder = true
  found : ∀ ps, spoken ps = base.names →
    resolve d true maxLinks (startOf base.text d.here) ps = .ok (.found folder)

/-- A path without names leads to the directory that it starts in. -/
theorem isDirectoryAt_of_reach (h : d.reach p = .ok x) (hnames : p.names = []) :
    isDirectoryAt d.table x = true := by
  obtain ⟨-, -, hfound⟩ := reach_eq_ok_iff.mp h
  have hidle : ∀ piece ∈ pieces p.text, isIdle piece = true := fun piece hpiece => by
    simpa using List.filter_eq_nil_iff.mp hnames piece hpiece
  obtain ⟨piece, rest, hcons⟩ := List.exists_cons_of_ne_nil (pieces_ne_nil p.text)
  have hstart : isDirectoryAt d.table (startOf p.text d.here) = true := by
    rw [hcons] at hfound
    exact isDirectoryAt_of_leads (leads_of_resolve hfound)
  rw [← List.append_nil (pieces p.text), resolve_after_idle hstart hidle, resolve_nil] at hfound
  obtain rfl := Place.found.inj (Except.ok.inj hfound)
  exact hstart

/-- **A file lies in a directory**, to which its path leads without the last name. -/
theorem exists_liesIn (h : d.reach file = .ok x) (hx : isDirectoryAt d.table x = false) :
    ∃ base folder, d.LiesIn file base folder := by
  have hne : file.names ≠ [] := by
    intro hnone
    rw [isDirectoryAt_of_reach h hnone] at hx
    cases hx
  obtain ⟨base, last, hparent, habsolute, hnames⟩ := exists_parent? hne
  obtain ⟨hnul, -, hfound⟩ := reach_eq_ok_iff.mp h
  rw [← startOf_congr habsolute] at hfound
  -- the pieces of the path up to the last name, and that name with idle pieces around it
  obtain ⟨ps, qs, hpieces, hps, hqs⟩ := List.filter_eq_append_iff.mp hnames
  obtain ⟨piece, rest, rfl⟩ : ∃ piece rest, qs = piece :: rest :=
    List.exists_cons_of_ne_nil (by rintro rfl; cases hqs)
  rw [hpieces] at hfound
  have hleads := leads_of_resolve hfound
  obtain ⟨folder, hbefore, hbehind⟩ := hleads.exists_between
  have hdirectory := isDirectoryAt_of_leads hbehind
  -- the lookup of the file did not run out of links
  have hthere : resolve d true maxLinks (startOf base.text d.here) ps = .ok (.found folder) := by
    obtain ⟨left, hnext⟩ := hbefore.resolve_append hfound
    rw [← List.append_nil ps, hnext, resolve_nil]
  exact ⟨base, folder,
    { parent := hparent
      absolute := habsolute
      names := ⟨last, hnames⟩
      noNul := fun n hn => noNul_iff.mp hnul n (hnames ▸ List.mem_append_left _ hn)
      start := by
        obtain ⟨first, others, hcons⟩ : ∃ first others, ps ++ piece :: rest = first :: others :=
          List.exists_cons_of_ne_nil (by simp)
        rw [hcons] at hleads
        exact isDirectoryAt_of_leads hleads
      directory := hdirectory
      found := fun ps' hps' => resolve_of_spoken hthere hdirectory (hps.trans hps'.symm) }⟩

namespace LiesIn

/-- The directory is reached by the parent of the path as it is seen from the root. -/
theorem exists_parent_absolute (h : d.LiesIn file base folder) (hq : d.absolute file = .ok q) :
    ∃ directory, q.parent? = some directory ∧ directory.isAbsolute = true ∧
      d.reach directory = .ok folder := by
  obtain ⟨hroot, hwhole⟩ := isAbsolute_and_names_of_absolute hq
  obtain ⟨last, hlast⟩ := h.names
  have hspelled : q.names = d.spelled base ++ [last] := by
    rw [hwhole, spelled, spelled, startOf_congr h.absolute, hlast, List.append_assoc]
  obtain ⟨directory, last', hparent, hstart, hnames⟩ := exists_parent? (p := q) (by simp [hspelled])
  obtain ⟨hnames, -⟩ := List.append_inj' (hnames.symm.trans hspelled) rfl
  have habsolute : directory.isAbsolute = true := hstart.trans hroot
  refine ⟨directory, hparent, habsolute, reach_eq_ok_iff.mpr ⟨noNul_iff.mpr ?_, ?_, ?_⟩⟩
  · intro n hn
    rw [hnames] at hn
    rcases List.mem_append.mp hn with hn | hn
    · obtain ⟨mode, hmode⟩ := isDirectoryAt_iff.mp h.start
      exact zero_not_mem_of_isProper (isProper_of_get? hmode) n hn
    · exact h.noNul n hn
  · cases htext : directory.text with
    | nil => simp [isAbsolute, htext] at habsolute
    | cons b bs => rfl
  -- down to where the path of the file starts, and then along its names
  have hdescent : IsDescent (startOf base.text d.here) := isDescent_startOf d base.text
  have hspoken := hdescent.spoken_eq
  have hwalk : resolve d true maxLinks [] (startOf base.text d.here ++ base.names) =
      .ok (.found folder) := by
    rw [resolve_append hdescent.back_not_mem (by rw [hspoken]; exact h.start), hspoken]
    exact h.found base.names (spoken_names base)
  have hfrom : startOf directory.text d.here = [] := if_pos habsolute
  rw [hfrom]
  refine resolve_of_spoken hwalk h.directory ?_
  rw [spoken_append, hspoken, spoken_names]
  exact hnames.symm

/-- **What lies below the directory** is reached by its names behind the parent of the path. -/
theorem reach_join (h : d.LiesIn file base folder) (hp : p.SpellsBelow steps)
    (he : d.get? (folder ++ steps) = some e) (hkind : e.kind ≠ .link) :
    d.reach (base.join p) = .ok (folder ++ steps) := by
  have hproper : isProper (folder ++ steps) = true := isProper_of_get? he
  have hsteps : IsDescent steps := fun n hn =>
    isDescent_of_isProper hproper n (List.mem_append_right folder hn)
  have hnames : (base.join p).names = base.names ++ steps := by
    rw [names_join hp.relative, hp.names hsteps]
  refine reach_eq_ok_iff.mpr ⟨noNul_iff.mpr ?_, ?_, ?_⟩
  · intro n hn
    rw [hnames] at hn
    rcases List.mem_append.mp hn with hn | hn
    · exact h.noNul n hn
    · exact zero_not_mem_of_isProper hproper n (List.mem_append_right folder hn)
  · have hne := hp.nonempty
    rw [Path.join, hp.relative, if_neg Bool.false_ne_true]
    split <;> simp [hne]
  obtain ⟨ps, hpieces, hspoken⟩ := exists_pieces_join (p := base) hp.relative
  have hthere := h.found ps hspoken
  rw [startOf_congr (isAbsolute_join_relative hp.relative base), hpieces]
  rw [← List.append_nil ps] at hthere
  obtain ⟨left, hbehind⟩ := (leads_of_resolve (h.found ps hspoken)).resolve_append hthere
  rw [hbehind]
  rcases hp.pieces with hpieces | ⟨rfl, hpieces⟩
  · rw [hpieces]
    exact resolve_names he hkind left
  · rw [hpieces, resolve_idle h.directory (by decide), resolve_nil, List.append_nil]

end LiesIn

end Disk

end Stencil
