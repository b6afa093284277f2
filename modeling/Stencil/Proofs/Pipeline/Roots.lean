/-
  The roots of a template and of a project.

  Both are made where their path aims, and both are new if nothing lies there (`AimsAtFree`).  Making
  them can leave more directories, on the way to them and, when the path steps back, below them:
  `filled_of_aimsAtFree` has these as the first products of the tree.  A root is `Fresh` for a tree when
  none of this touches the tree, and nothing but the root itself is made in its place.

  A template carries its description.  Whichever path leads to the template, what is loaded from there
  is what was saved (`eq_of_load`).
-/
import Stencil.Proofs.Generate.Image
import Stencil.Proofs.Metadata
import Stencil.Proofs.Path.Absolute
import Stencil.Proofs.Phases
import Stencil.Proofs.Text.Utf8

namespace Stencil

open Disk

namespace Disk

variable {d d' : Disk} {p : Path} {top tree x y : Location} {e : Entry} {P : Location → Prop}

/-! ## New roots -/

/-- Once its directories are made, the path leads to a place where nothing lies now. -/
structure AimsAtFree (d : Disk) (p : Path) (x : Location) : Prop where
  aims : d.AimsAt p x
  free : d.get? x = none

/-- The new root is made outside of the tree and leaves no directories in the tree, nor any below
    itself. -/
structure Fresh (d : Disk) (tree : Location) (p : Path) (root : Location) : Prop
    extends AimsAtFree d p root where
  apart : ¬ tree <+: root
  tidy : ∀ x, d.IsOnWay p x → d.get? x = none → ¬ tree <+: x ∧ (root <+: x → x = root)

/-- A free place is aimed at by its own path, if there are no links on the way. -/
theorem AimsAtFree.of_spells (hp : p.Spells x) (hplain : d.IsPlain x) (hfree : d.get? x = none) :
    d.AimsAtFree p x :=
  ⟨aimsAt_of_spells hp hplain, hfree⟩

/-- A path that aims at something free leads nowhere yet. -/
theorem AimsAtFree.find_ne_ok (h : d.AimsAtFree p x) (y : Location) : d.find true p ≠ .ok y := by
  intro hfind
  obtain ⟨e, he⟩ := exists_get?_of_find hfind
  rw [(aimsAt_of_find hfind).unique h.aims, h.free] at he
  cases he

/-- Where the path leads nowhere, a build has nothing to clear. -/
theorem AimsAtFree.cleared_eq (h : d.AimsAtFree p x) : Build.cleared d p = d := by
  rw [Build.cleared]
  cases hfind : d.find true p with
  | error fault => rfl
  | ok y => exact absurd hfind (h.find_ne_ok y)

/-- Without links and steps back, a root is fresh for a tree if it is free and lies outside. -/
theorem Fresh.of_spells (hp : p.Spells x) (hplain : d.IsPlain x) (hfree : d.get? x = none)
    (hapart : ¬ tree <+: x) : d.Fresh tree p x where
  toAimsAtFree := .of_spells hp hplain hfree
  apart := hapart
  tidy := by
    intro y hway _
    have habove : y <+: x := hway.isPrefix hp hplain
    exact ⟨fun htree => hapart (htree.trans habove),
      fun hbelow => habove.eq_of_length_le hbelow.length_le⟩

/-- What lies where nothing lay is a new directory. -/
theorem Grown.eq_directory_below (h : Grown P d d') (hfree : d.get? top = none) (hx : top <+: x)
    (he : d'.get? x = some e) : e = .directory Entry.directoryMode :=
  h.eq_directory (get?_eq_none_below hfree hx) he

/-- The root that a path leads to is the place that it aimed at. -/
theorem AimsAtFree.eq_of_made (h : d.AimsAtFree p top) (hmade : d.makeDirectories p = (d', .ok ()))
    (hfound : d'.find true p = .ok x) : x = top :=
  (aimsAt_of_makeDirectories hmade hfound).unique h.aims

/-- The directories in a place, as products. -/
def directoriesBelow (d : Disk) (top : Location) : List Product :=
  (d.locations.filter (isBelow top)).map .directory

theorem isFile_of_mem_directoriesBelow {q : Product} (h : q ∈ d.directoriesBelow top) :
    q.isFile = false := by
  obtain ⟨x, -, rfl⟩ := List.mem_map.mp h
  rfl

/-- A place that holds new directories alone is the tree of these. -/
theorem filled_directoriesBelow (hrooted : isDirectoryAt d.table top = true)
    (hnew : ∀ x e, top <+: x → d.get? x = some e → e = .directory Entry.directoryMode) :
    Filled top (d.directoriesBelow top) d d where
  rooted := hrooted
  outside := fun _ _ => rfl
  inside := by
    intro x hx
    have hnofile : Product.fileAt? (d.directoriesBelow top) x = none := by
      rw [Product.fileAt?, List.filter_eq_nil_iff.mpr]
      · rfl
      · intro q hq
        simp [isFile_of_mem_directoriesBelow hq]
    rw [image, hnofile]
    dsimp only
    -- a directory is named where something lies at the place or below
    cases hx' : d.get? x with
    | some e =>
      rw [hnew x e hx hx', if_pos]
      by_cases htop : x = top
      · simp [htop]
      · have hne : x ≠ [] := by
          rintro rfl
          exact htop (List.prefix_nil.mp hx).symm
        have hmem : Product.directory x ∈ d.directoriesBelow top :=
          List.mem_map_of_mem (List.mem_filter.mpr
            ⟨mem_locations.mpr ⟨hne, e, hx'⟩, Walk.isBelow_iff.mpr hx⟩)
        have hany : (d.directoriesBelow top).any (fun q => isBelow x q.location) = true :=
          List.any_eq_true.mpr ⟨_, hmem, Walk.isBelow_iff.mpr (List.prefix_refl x)⟩
        rw [hany, Bool.or_true]
    | none =>
      rw [if_neg]
      intro hsome
      rw [Bool.or_eq_true, beq_iff_eq, List.any_eq_true] at hsome
      rcases hsome with rfl | ⟨q, hq, hbelow⟩
      · obtain ⟨mode, hmode⟩ := isDirectoryAt_iff.mp hrooted
        rw [hmode] at hx'
        cases hx'
      · obtain ⟨y, hy, rfl⟩ := List.mem_map.mp hq
        obtain ⟨-, e, he⟩ := mem_locations.mp (List.mem_filter.mp hy).1
        exact not_below_of_free hx' he (Walk.isBelow_iff.mp hbelow)

variable (hmade : d.makeDirectories p = (d', .ok ())) (hfound : d'.find true p = .ok top)

include hmade hfound

/-- The new root is a directory. -/
theorem isDirectoryAt_of_free (hfree : d.get? top = none) : isDirectoryAt d'.table top = true := by
  obtain ⟨e, he⟩ := exists_get?_of_find hfound
  obtain rfl := (grown_of_makeDirectories_aim hmade).2.eq_directory_below hfree
    (List.prefix_refl top) he
  exact isDirectoryAt_iff.mpr ⟨_, he⟩

/-- **A new root** holds nothing but the directories that were made on the way. -/
theorem filled_of_aimsAtFree (hfree : d.get? top = none) :
    Filled top (d'.directoriesBelow top) d' d' :=
  filled_directoriesBelow (isDirectoryAt_of_free hmade hfound hfree) fun _ _ hx he =>
    (grown_of_makeDirectories_aim hmade).2.eq_directory_below hfree hx he

/-- A new root is empty if no directories were made below it. -/
theorem filled_of_tidy (hfree : d.get? top = none)
    (htidy : ∀ x, d.IsOnWay p x → d.get? x = none → top <+: x → x = top) : Filled top [] d' d' where
  rooted := isDirectoryAt_of_free hmade hfound hfree
  outside := fun _ _ => rfl
  inside := by
    intro x hx
    have hgrown := (grown_of_makeDirectories_aim hmade).2
    rw [image_nil]
    by_cases htop : x = top
    · obtain ⟨e, he⟩ := exists_get?_of_find hfound
      rw [if_pos htop, htop, he, hgrown.eq_directory_below hfree (List.prefix_refl top) he]
    · rw [if_neg htop]
      rcases hgrown x with hsame | ⟨hway, hnone, -⟩
      · rw [hsame, get?_eq_none_below hfree hx]
      · exact absurd (htidy x hway hnone hx) htop

/-- A fresh root is empty. -/
theorem Fresh.filled (h : d.Fresh tree p top) : Filled top [] d' d' :=
  filled_of_tidy hmade hfound h.free fun x hway hnone => (h.tidy x hway hnone).2

omit hfound in
/-- The tree is as it was when a fresh root is made. -/
theorem Fresh.get?_eq (h : d.Fresh tree p top) (hx : tree <+: x) : d'.get? x = d.get? x := by
  rcases (grown_of_makeDirectories_aim hmade).2 x with hsame | ⟨hway, hnone, -⟩
  · exact hsame
  · exact absurd hx (h.tidy x hway hnone).1

omit hmade hfound

/-- A tree that is there does not lie below a fresh root, nor does anything in it. -/
theorem Fresh.not_below (h : d.Fresh tree p top) (he : d.get? tree = some e) (hx : tree <+: x) :
    ¬ top <+: x := by
  intro hbelow
  rcases List.prefix_or_prefix_of_prefix hbelow hx with habove | habove
  · exact not_below_of_free h.free he habove
  · exact h.apart habove

/-! ## The description of a template -/

/-- Behind a path that leads to a directory, a name leads to the entry in it. -/
theorem eq_concat_of_find_join {name : Name} (hname : Path.IsStep name)
    (hp : d.find true p = .ok top) (hlink : ∀ target, d.get? (top ++ [name]) ≠ some (.link target))
    (hx : d.find true (p.join ⟨name⟩) = .ok x) : x = top ++ [name] := by
  -- the name is one step down from where the path aims
  have hdown : Aims d top [name] (top ++ [name]) :=
    .down hname.speaks hname.onward hlink (.here _)
  have hstart : startOf (p.join ⟨name⟩).text d.here = startOf p.text d.here :=
    startOf_congr (Path.isAbsolute_join_relative (Path.isAbsolute_of_whole hname.whole) p) d.here
  have hspoken : Path.spoken (Path.pieces p.text ++ [name]) =
      Path.spoken (Path.pieces (p.join ⟨name⟩).text) := by
    have hnames := Path.names_join (p := p) (Path.isAbsolute_of_whole hname.whole)
    have hsingle : Path.spoken [name] = [name] := by simp [Path.spoken, hname.speaks]
    rw [Path.names_of_whole hname.speaks hname.whole] at hnames
    rw [Path.spoken_append, hsingle]
    exact hnames.symm
  have hjoined : d.AimsAt (p.join ⟨name⟩) (top ++ [name]) := by
    rw [AimsAt, hstart]
    exact ((aimsAt_of_find hp).append hdown).of_spoken hspoken
  exact (aimsAt_of_find hx).unique hjoined

/-- Behind a path that leads to a directory, the text of a file in it is read. -/
theorem eq_of_readText_join {name : Name} {mode : Mode} {text content : String}
    (hname : Path.IsStep name) (hp : d.find true p = .ok top)
    (hfile : d.get? (top ++ [name]) = some (.file mode (Bytes.ofString text)))
    (h : d.readText (p.join ⟨name⟩) = .ok content) : content = text := by
  have hlink : ∀ target, d.get? (top ++ [name]) ≠ some (.link target) := by
    intro target hlink
    rw [hfile] at hlink
    cases hlink
  obtain ⟨bytes, hbytes, hcontent⟩ := exists_of_bind_eq_ok h
  obtain ⟨mode', hentry⟩ := exists_entry_of_read hbytes
  obtain ⟨x, hx, he⟩ := entry_eq_ok_iff.mp hentry
  obtain rfl := eq_concat_of_find_join hname hp hlink hx
  cases hfile.symm.trans he
  rw [Bytes.toString?_ofString] at hcontent
  exact (Except.ok.inj hcontent).symm

end Disk

/-- A description that is found and makes sense is loaded. -/
theorem run_load {template : Path} {x : Location} {mode : Mode} {content : String} {m : Metadata}
    {w : World} (hfound : w.disk.find true (Metadata.file template) = .ok x)
    (hfile : w.disk.get? x = some (.file mode (Bytes.ofString content)))
    (hread : Metadata.read? content = some m) : (Metadata.load template).run w = .ok m w := by
  have htext : w.disk.readText (Metadata.file template) = .ok content :=
    readText_of_find hfound hfile (Bytes.toString?_ofString content)
  have hlook : (Task.look (·.readText (Metadata.file template))).run w = .ok (.ok content) w := by
    rw [← htext]
    rfl
  rw [Metadata.load, EStateM.run_bind, hlook]
  dsimp only
  rw [hread]
  rfl

/-- **The description of a template is what was saved**, whichever path leads to the template. -/
theorem eq_of_load {c : Config} {now : Timestamp} {template : Path} {top : Location} {mode : Mode}
    {m : Metadata} {w w' : World} (hfound : w.disk.find true template = .ok top)
    (hsaved : w.disk.get? (top ++ [Bytes.ofString Defaults.metadataFile]) =
      some (.file mode (Bytes.ofString (Metadata.ofConfig c now).print)))
    (hload : (Metadata.load template).run w = .ok m w') :
    ∃ t, m = { delimiters := c.delimiters.normalized, declared := c.declared,
               staticFiles := c.staticGlobs, generatedAt := t } := by
  obtain ⟨-, content, htext, hread⟩ := load_eq_ok hload
  have hsame : content = (Metadata.ofConfig c now).print :=
    eq_of_readText_join isStep_metadataFile hfound hsaved htext
  rw [hsame] at hread
  exact Metadata.eq_of_read?_print_ofConfig hread

end Stencil
