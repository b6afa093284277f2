/-
  A project stays below its output root.

  Once the output root is there and new, no operation leaves it: the paths of the operations go down
  from the root, and no link can lead them elsewhere, because all that lies below the root was made by
  the operations themselves and they make no links.  `Confined top d₀ d` says this of a disk: at `top`
  there is a directory without links in it, and elsewhere everything is as on `d₀`.  It is one of the
  properties that work below a root keeps (`StableBelow`), and that there are no links at all is another.

  What the making of a project does before there is a root is to make directories.  So whatever comes of
  it, nothing that was there before is changed, and what is new lies below the root or on the way to it
  (`Origin.staysBelow_of_new`).
-/
import Stencil.Proofs.Disk.Aim
import Stencil.Proofs.Generate.Fill
import Stencil.Proofs.Path.Places

namespace Stencil

open Generate

/-! ## Confinement -/

namespace Disk

variable {d₀ d d' : Disk} {top loc x : Location} {e : Entry} {mode : Mode} {p : Path}
  {P : Location → Prop}

/-- There is a directory without links, and elsewhere the disk is as it was. -/
structure Confined (top : Location) (d₀ d : Disk) : Prop where
  rooted : isDirectoryAt d.table top = true
  outside : ∀ x, ¬ top <+: x → d.get? x = d₀.get? x
  unlinked : ∀ x target, top <+: x → d.get? x ≠ some (.link target)

/-- A directory that was just made holds nothing but directories. -/
theorem confined_of_grown (hnew : d.get? top = none) (hthere : d'.get? top ≠ none)
    (hgrown : Grown P d d') : Confined top d' d' where
  rooted := by
    rcases hgrown top with hsame | ⟨-, -, hdir⟩
    · rw [hsame] at hthere
      exact absurd hnew hthere
    · exact isDirectoryAt_iff.mpr ⟨_, hdir⟩
  outside := fun _ _ => rfl
  unlinked := fun x target hx hlink => not_below_of_free hnew (hgrown.of_link hlink) hx

namespace Confined

/-- The top lies under names that lead down. -/
theorem isDescent (h : Confined top d₀ d) : IsDescent top :=
  isDescent_of_isDirectoryAt h.rooted

/-- No link lies on the way to the top or below it. -/
theorem isPlain (h : Confined top d₀ d) (hloc : top <+: loc ∨ loc <+: top) : d.IsPlain loc := by
  intro q hq target htarget
  have hside : top <+: q ∨ q <+: top := by
    rcases hloc with hloc | hloc
    · exact List.prefix_or_prefix_of_prefix hloc hq
    · exact .inr (hq.trans hloc)
  rcases hside with hbelow | habove
  · exact h.unlinked q target hbelow htarget
  · obtain ⟨mode, hmode⟩ := exists_directory_above h.rooted habove
    rw [hmode] at htarget
    cases htarget

/-- Directories made on the way to something below stay inside: those above are there already. -/
theorem grown (h : Confined top d₀ d) (hgrown : Grown P d d')
    (hP : ∀ x, P x → top <+: x ∨ x <+: top) : Confined top d₀ d' where
  rooted := hgrown.keeps_directory h.rooted
  outside := by
    intro x hx
    rcases hgrown x with hsame | ⟨hPx, hnone, -⟩
    · rw [hsame]
      exact h.outside x hx
    · obtain ⟨mode, hmode⟩ := exists_directory_above h.rooted ((hP x hPx).resolve_left hx)
      rw [hnone] at hmode
      cases hmode
  unlinked := fun x target hx hlink => h.unlinked x target hx (hgrown.of_link hlink)

/-- A file or directory put below stays inside. -/
theorem changed (h : Confined top d₀ d) (hchanged : Changed d d' loc e) (hloc : top <+: loc)
    (hkind : e.kind ≠ .link) : Confined top d₀ d' where
  rooted := by
    -- in the place of the directory itself there can only be a directory
    by_cases heq : top = loc
    · have hdir := hchanged.fits.keeps (heq ▸ h.rooted)
      rw [isDirectoryAt, show entryAt d'.table top = some e from heq ▸ hchanged.get?_self]
      exact hdir
    · obtain ⟨mode, hmode⟩ := isDirectoryAt_iff.mp h.rooted
      exact isDirectoryAt_iff.mpr ⟨mode, (hchanged.get?_of_ne heq).trans hmode⟩
  outside := by
    intro x hx
    have hne : x ≠ loc := fun heq => hx (heq ▸ hloc)
    rw [hchanged.get?_of_ne hne]
    exact h.outside x hx
  unlinked := by
    intro x target hx
    rw [hchanged.get?]
    split
    · rintro heq
      obtain rfl := Option.some.inj heq
      exact hkind rfl
    · exact h.unlinked x target hx

end Confined

end Disk

open Disk Path

variable {d₀ : Disk} {top : Location} {P : Disk → Prop}

/-! ## What work below a root keeps -/

/-- Where this holds there is no link on the way to `top` or below it, and it is not lost when
    directories are made there, nor when something other than a link is put below. -/
structure StableBelow (top : Location) (P : Disk → Prop) : Prop where
  isPlain : ∀ {d loc}, P d → top <+: loc ∨ loc <+: top → d.IsPlain loc
  grown : ∀ {d d' way}, P d → Grown way d d' → (∀ x, way x → top <+: x ∨ x <+: top) → P d'
  changed : ∀ {d d' loc e}, P d → Changed d d' loc e → top <+: loc → e.kind ≠ .link → P d'

/-- **Being confined is stable below the top**: whatever is done there keeps it. -/
theorem stableBelow_confined : StableBelow top (Confined top d₀) :=
  ⟨Confined.isPlain, Confined.grown, Confined.changed⟩

theorem stableBelow_linkless : StableBelow top IsLinkless where
  isPlain := fun {_ loc} hd _ => hd.isPlain loc
  grown := fun hd hgrown _ => hgrown.isLinkless hd
  changed := fun {_ _ loc e} hd hchanged _ hkind x target hlink => by
    by_cases hx : x = loc
    · rw [hx, hchanged.get?_self] at hlink
      obtain rfl := Option.some.inj hlink
      exact hkind rfl
    · exact hd x target ((hchanged.get?_of_ne hx).symm.trans hlink)

/-- Setting permission bits changes a file or a directory, or nothing. -/
theorem changed_of_setMode {d d' : Disk} {p : Path} {loc : Location} {mode : Mode}
    (hp : p.Spells loc) (hplain : d.IsPlain loc) (h : d.setMode p mode = .ok d') :
    d' = d ∨ ∃ e, Changed d d' loc e ∧ e.kind ≠ .link := by
  have hput : ∀ e : Entry, e.kind ≠ .link → d.put loc e = d' →
      d' = d ∨ ∃ e, Changed d d' loc e ∧ e.kind ≠ .link := by
    rintro e hkind rfl
    by_cases hfits : Fits d.table loc e
    · exact .inr ⟨e, changed_put hfits, hkind⟩
    · exact .inl (dif_neg hfits)
  obtain ⟨x, hfind, hset⟩ := exists_of_bind_eq_ok h
  obtain rfl := hp.eq_of_find hplain hfind
  split at hset
  · exact hput _ Kind.noConfusion (Except.ok.inj hset)
  · exact hput _ Kind.noConfusion (Except.ok.inj hset)
  · cases hset

namespace StableBelow

variable (h : StableBelow top P)

include h

/-- Making a directory below, or one above, keeps it. -/
theorem keeps_makeDirectories {p : Path} {loc : Location} (hp : p.Spells loc)
    (hloc : top <+: loc ∨ loc <+: top) :
    Task.Keeps P (Task.makeDirectories p) fun _ => True := by
  refine Task.Keeps.makeDirectories fun d hd => ?_
  refine h.grown hd (hp.grown_of_makeDirectories (h.isPlain hd hloc) rfl).1 fun x hx => ?_
  rcases hloc with hloc | hloc
  · exact List.prefix_or_prefix_of_prefix hloc hx
  · exact .inr (hx.trans hloc)

/-- Making the directory for a target below the top keeps what is stable there. -/
theorem keeps_makeParent {p : Path} {loc : Location} (hp : p.Spells loc) (hloc : top <+: loc) :
    Task.Keeps P (FileOperation.makeParent p) fun _ => True := by
  unfold FileOperation.makeParent
  cases hparent : p.parent? with
  | none => exact Task.Keeps.pure trivial
  | some parent =>
    refine h.keeps_makeDirectories (hp.parent? hparent).1 ?_
    exact List.prefix_or_prefix_of_prefix hloc (List.dropLast_prefix loc)

/-- A file that is copied to a place below keeps it. -/
theorem copied {d d' : Disk} {source p : Path} {loc : Location} (hp : p.Spells loc)
    (hloc : top <+: loc) (hd : P d) (hcopy : d.copy source p = .ok d') : P d' := by
  obtain ⟨origin, mode, content, -, -, hchanged⟩ :=
    changed_of_copy hp (h.isPlain hd (.inl hloc)) hcopy
  exact h.changed hd hchanged hloc Kind.noConfusion

/-- **Every operation below the root keeps it.** -/
theorem keptBelow (htop : IsDescent top) : KeptBelow P (pathOf top) := by
  intro operation relative hjoin
  obtain ⟨place, hloc, hdescent, htarget⟩ := joinUnder_eq_ok htop hjoin
  have hspells : operation.target.Spells place := by
    rw [htarget]
    exact spells_pathOf hdescent
  cases operation with
  | directory target => exact h.keeps_makeDirectories hspells (.inl hloc)
  | copy source target =>
    refine (h.keeps_makeParent hspells hloc).bind fun _ _ => ?_
    exact Task.Keeps.change fun d d' hd hcopy => h.copied hspells hloc hd hcopy
  | write source target content =>
    refine (h.keeps_makeParent hspells hloc).bind fun _ _ => ?_
    have hwrite : Task.Keeps P (Task.change (·.write target content)) fun _ => True := by
      refine Task.Keeps.change fun d d' hd hwrite => ?_
      obtain ⟨mode, -, hchanged⟩ := changed_of_write hspells (h.isPlain hd (.inl hloc)) hwrite
      exact h.changed hd hchanged hloc Kind.noConfusion
    refine hwrite.bind fun _ _ => Task.Keeps.change fun d d' hd hset => ?_
    cases hmode : d.mode source with
    | error fault =>
      rw [hmode] at hset
      cases hset
    | ok mode =>
      rw [hmode] at hset
      rcases changed_of_setMode hspells (h.isPlain hd (.inl hloc)) hset with rfl | ⟨e, hchanged, hkind⟩
      · exact hd
      · exact h.changed hd hchanged hloc hkind

/-- **The filling of an output root keeps it.** -/
theorem keeps_fill (m : Material) (config : Option Path) (htop : IsDescent top) :
    Task.Keeps P (m.fill (pathOf top) config) fun r => r.output = pathOf top := by
  refine Stencil.keeps_fill m (h.keptBelow htop) fun source name d d' _ hname hd hcopy => ?_
  -- a file keeps its own name
  have hstep : IsStep name := isStep_of_fileName? hname
  rw [join_pathOf htop hstep] at hcopy
  exact h.copied (spells_pathOf (htop.concat hstep)) (List.prefix_append top _) hd hcopy

end StableBelow

/-! ## Nothing else is touched -/

variable {o : Origin} {output path root : Path} {resolver : Variables → Resolution} {w w₁ : World}

/-- When the output root is new, the whole making is directories on the way to the root, and then
    nothing outside of it. -/
theorem Origin.confined_of_new (config : Option Path)
    (h : (o.start output resolver).run w = .ok (path, root) w₁)
    (hnew : w.disk.get? root.names = none) :
    Grown (w.disk.IsOnWay path) w.disk w₁.disk ∧
      Confined root.names w₁.disk ((o.generate output resolver config).diskAfter w) := by
  obtain ⟨-, hmade, hfound, hroot⟩ := Origin.start_eq_ok h
  obtain ⟨-, hgrown⟩ := grown_of_makeDirectories_aim hmade
  obtain ⟨e, he⟩ := exists_get?_of_find hfound
  have hthere : w₁.disk.get? root.names ≠ none := by simp [he]
  have hstart : Confined root.names w₁.disk w₁.disk := confined_of_grown hnew hthere hgrown
  obtain ⟨m, w₂, hdisk, hrun⟩ := Origin.run_generate h
  have hfill : Task.Keeps (Confined root.names w₁.disk) (m.fill (pathOf root.names) config)
      fun r => r.output = pathOf root.names :=
    stableBelow_confined.keeps_fill m config hstart.isDescent
  have hkept := (hfill w₂ (by rw [hdisk]; exact hstart)).1
  rw [← hroot, Task.diskAfter, ← hrun config] at hkept
  exact ⟨hgrown, hkept⟩

/-- What was there before a new directory was made, and all that happens in it, is there after. -/
theorem Disk.Confined.get?_of_some {d d₁ d' : Disk} {x : Location} {e : Entry}
    {P : Location → Prop} (h : Confined top d₁ d') (hnew : d.get? top = none)
    (hgrown : Grown P d d₁) (he : d.get? x = some e) : d'.get? x = some e := by
  have hout : ¬ top <+: x := not_below_of_free hnew he
  rw [h.outside x hout]
  exact hgrown.get?_of_some he

/-- What was there before is there still, and what is new lies at or below a root, or is a directory on
    the way of the path to it. -/
structure StaysBelow (d d' : Disk) (path : Path) (root : Location) : Prop where
  kept : ∀ x e, d.get? x = some e → d'.get? x = some e
  new : ∀ x e, d.get? x = none → d'.get? x = some e →
    root <+: x ∨ (e = .directory Entry.directoryMode ∧ d.IsOnWay path x)

namespace Origin

/-- **A project stays below its output root**: when the root is new, whatever comes of the making
    changes nothing that was there before, and all that is new lies at or below the root or is one of
    the directories made on the way to it. -/
theorem staysBelow_of_new (o : Origin) (resolver : Variables → Resolution) (config : Option Path)
    (h : (o.start output resolver).run w = .ok (path, root) w₁)
    (hnew : w.disk.get? root.names = none) :
    StaysBelow w.disk ((o.generate output resolver config).diskAfter w) path root.names := by
  obtain ⟨hgrown, hconfined⟩ := confined_of_new config h hnew
  constructor
  · intro x e he
    exact hconfined.get?_of_some hnew hgrown he
  · intro x e hx hxe
    -- outside of the root all that is new was made by the start
    by_cases hbelow : root.names <+: x
    · exact .inl hbelow
    · rw [hconfined.outside x hbelow] at hxe
      rcases hgrown x with hsame | ⟨hway, -, hdir⟩
      · rw [hsame, hx] at hxe
        cases hxe
      · rw [hdir] at hxe
        exact .inr ⟨(Option.some.inj hxe).symm, hway⟩

/-- The first of two folders as a source tree. -/
def folderSource : Origin := .source { sourceRoot := .ofString "/src" }

/-- No variables, no values. -/
def nothingAsked : Variables → Resolution := fun _ => ⟨.ok ∅, []⟩

/-- A project for which a directory is made on the way that its root does not lie in. -/
theorem staysBelow_twoFolders :
    twoFolders.get? [Bytes.ofString "new"] = none ∧
      StaysBelow twoFolders
        ((folderSource.generate (.ofString "/way/../new") nothingAsked none).diskAfter ⟨twoFolders, []⟩)
        (.ofString "/way/../new") [Bytes.ofString "new"] := by
  have hnew : twoFolders.get? [Bytes.ofString "new"] = none := by decide +kernel
  have hanswer : (folderSource.start (.ofString "/way/../new") nothingAsked).answer? ⟨twoFolders, []⟩ =
      some (.ofString "/way/../new", .ofString "/new") := by decide +kernel
  obtain ⟨w₁, hstart⟩ := Task.exists_run_of_answer? hanswer
  have hnames : (Path.ofString "/new").names = [Bytes.ofString "new"] := by decide +kernel
  refine ⟨hnew, ?_⟩
  rw [← hnames] at hnew ⊢
  exact staysBelow_of_new folderSource nothingAsked none hstart hnew

end Origin

end Stencil
