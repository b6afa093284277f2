/-
  What a build finds and makes at its start.

  The source tree is found, and a template that is there already is taken away, which is a directory
  that does not hold the source tree (`removeExisting_eq_ok`).  Then the directory of the template is
  made: on a disk without links it is empty, and outside of it nothing has changed (`started_of_start`).
  The ignore file of the source tree is read only then, but it says what it said before
  (`readIgnoreFile_eq`): it lies outside, unless the template has taken its place, and then it was no file
  before either.
-/
import Stencil.Build
import Stencil.Proofs.Disk.Aim
import Stencil.Proofs.Image

namespace Stencil

open Disk

variable {w w₁ w₂ : World} {top source : Location} {p : Path} {d d' : Disk} {u : Unit}

/-! ## What is read -/

theorem isStep_metadataFile : Path.IsStep (Bytes.ofString Defaults.metadataFile) :=
  ⟨by decide, by decide, by decide⟩

theorem isStep_ignoreFile : Path.IsStep (Bytes.ofString Defaults.ignoreFile) :=
  ⟨by decide, by decide, by decide⟩

/-- The description lies in the template. -/
theorem spells_metadataFile (htop : IsDescent top) :
    (Metadata.file (pathOf top)).Spells (top ++ [Bytes.ofString Defaults.metadataFile]) := by
  rw [show Metadata.file (pathOf top) = pathOf (top ++ [Bytes.ofString Defaults.metadataFile]) from
    join_pathOf htop isStep_metadataFile]
  exact spells_pathOf (htop.concat isStep_metadataFile)

/-- The ignore file lies in the source tree. -/
theorem spells_ignoreFile (hsource : IsDescent source) :
    ((pathOf source).join (.ofString Defaults.ignoreFile)).Spells
      (source ++ [Bytes.ofString Defaults.ignoreFile]) := by
  rw [show (pathOf source).join (.ofString Defaults.ignoreFile) =
    pathOf (source ++ [Bytes.ofString Defaults.ignoreFile]) from join_pathOf hsource isStep_ignoreFile]
  exact spells_pathOf (hsource.concat isStep_ignoreFile)

theorem load_eq_ok {template : Path} {metadata : Metadata}
    (h : (Metadata.load template).run w = .ok metadata w₁) :
    w₁ = w ∧ ∃ content, w.disk.readText (Metadata.file template) = .ok content ∧
      Metadata.read? content = some metadata := by
  obtain ⟨text, wt, htext, h⟩ := Task.bind_eq_ok h
  obtain ⟨rfl, rfl⟩ := Task.look_eq_ok htext
  cases hread : wt.disk.readText (Metadata.file template) with
  | error fault =>
    rw [hread] at h
    cases h
  | ok content =>
    rw [hread] at h
    dsimp only at h
    cases hmetadata : Metadata.read? content with
    | none =>
      rw [hmetadata] at h
      cases h
    | some m =>
      rw [hmetadata] at h
      obtain ⟨rfl, rfl⟩ := Task.pure_eq_ok h
      exact ⟨rfl, content, rfl, hmetadata⟩

/-- A source root that a run goes on with is the real path of the one that is configured. -/
theorem canonicalSource_eq_ok {c : Config} {source : Path}
    (h : c.canonicalSource.run w = .ok source w₁) :
    w₁ = w ∧ w.disk.realPath c.sourceRoot = .ok source := by
  obtain ⟨found, wf, hfound, h⟩ := Task.bind_eq_ok h
  obtain ⟨rfl, rfl⟩ := Task.look_eq_ok hfound
  cases hreal : wf.disk.realPath c.sourceRoot with
  | error fault =>
    rw [hreal] at h
    cases h
  | ok root =>
    rw [hreal] at h
    obtain ⟨rfl, rfl⟩ := Task.pure_eq_ok h
    exact ⟨rfl, rfl⟩

/-- A source root that is found has its path. -/
theorem run_canonicalSource {c : Config} (h : w.disk.reach c.sourceRoot = .ok source) :
    c.canonicalSource.run w = .ok (pathOf source) w := by
  have hlook : (Task.look (·.realPath c.sourceRoot)).run w = .ok (.ok (pathOf source)) w := by
    rw [show Except.ok (pathOf source) = w.disk.realPath c.sourceRoot by rw [realPath, h]; rfl]
    rfl
  rw [Config.canonicalSource, EStateM.run_bind, hlook]
  rfl

/-! ## The directory of the template -/

/-- A tree that is taken away where no link is begins at a directory. -/
theorem removed_of_removeTree {loc : Location} {e : Entry} (he : d.get? loc = some e)
    (hkind : e.kind ≠ .link) (h : d.removeTree (pathOf loc) = .ok d') :
    isDirectoryAt d.table loc = true ∧ d' = d.eraseTree loc := by
  obtain ⟨x, hself, hremoved⟩ := exists_of_bind_eq_ok h
  obtain rfl := (spells_of_get? he).eq_of_find (isPlain_of_get? he hkind) hself
  cases e with
  | directory mode =>
    rw [he] at hremoved
    exact ⟨isDirectoryAt_iff.mpr ⟨mode, he⟩, (Except.ok.inj hremoved).symm⟩
  | file mode content =>
    rw [he] at hremoved
    cases hremoved
  | link target => exact absurd rfl hkind

namespace Build

/-- What the guard does: nothing where the path leads nowhere, otherwise it refuses a directory that
    holds the source tree and takes any other away. -/
theorem run_removeExisting (hsource : IsDescent source) (p : Path) (w : World) :
    (removeExisting (pathOf source) p).run w = match w.disk.find true p with
      | .error _ => .ok () w
      | .ok loc => if loc <+: source then .error (.config (.templateHoldsSource p)) w
        else (Task.change (·.removeTree (pathOf loc))).run w := by
  have hlook : (Task.look (·.isThere p)).run w = .ok (w.disk.isThere p) w := rfl
  rw [removeExisting, EStateM.run_bind, hlook]
  cases hfind : w.disk.find true p with
  | error fault =>
    have hthere : w.disk.isThere p = false := by
      rw [isThere, entry, hfind]
      rfl
    simp only [hthere]
    rfl
  | ok loc =>
    obtain ⟨e, he⟩ := exists_get?_of_find hfind
    have hthere : w.disk.isThere p = true := by
      rw [isThere, entry_eq_ok_iff.mpr ⟨loc, hfind, he⟩]
      rfl
    have hcanonical : (Task.query (·.canonical p)).run w = .ok (pathOf loc) w := by
      rw [Task.run_query, canonical, hfind]
      rfl
    have hholds := (spells_pathOf hsource).startsWith_iff (spells_of_get? he)
    simp only [hthere, if_true, EStateM.run_bind, hcanonical]
    by_cases hbelow : loc <+: source
    · rw [hholds.mpr hbelow, if_pos hbelow]
      rfl
    · rw [if_neg fun h => hbelow (hholds.mp h), if_neg hbelow]

/-- A template that is there already is taken away.  It is a directory and does not hold the source
    tree. -/
theorem removeExisting_eq_ok (hsource : IsDescent source)
    (h : (removeExisting (pathOf source) p).run w = .ok u w₁) :
    (w₁ = w ∧ ∀ loc, w.disk.find true p ≠ .ok loc) ∨
      ∃ loc, w.disk.find true p = .ok loc ∧ isDirectoryAt w.disk.table loc = true ∧
        ¬ loc <+: source ∧ w₁.disk = w.disk.eraseTree loc := by
  rw [run_removeExisting hsource] at h
  cases hfind : w.disk.find true p with
  | error fault =>
    rw [hfind] at h
    cases h
    exact .inl ⟨rfl, fun loc hloc => by cases hloc⟩
  | ok loc =>
    rw [hfind] at h
    dsimp only at h
    by_cases hholds : loc <+: source
    · rw [if_pos hholds] at h
      cases h
    · rw [if_neg hholds] at h
      -- what is found is no link, so that its own path leads to it
      obtain ⟨e, he, hkind⟩ := exists_unlinked_of_find hfind
      obtain ⟨hdir, herased⟩ := removed_of_removeTree he hkind (Task.change_eq_ok h)
      exact .inr ⟨loc, rfl, hdir, hholds, herased⟩

end Build

/-- What the disk shows once the directory of the template is made. -/
structure Started (top source : Location) (d d' : Disk) : Prop where
  filled : Filled top [] d d'
  outside : ¬ top <+: source
  noFile : ∀ mode content, d.get? top ≠ some (.file mode content)

/-- A directory that is made where nothing is, in a directory that is there, is empty. -/
theorem filled_of_makeDirectories (hp : p.Spells top) (hlinkless : d'.IsLinkless)
    (hinside : ∀ x, top <+: x → d'.get? x = none)
    (houtside : ∀ x, ¬ top <+: x → d'.get? x = d.get? x)
    (hparent : isDirectoryAt d.table top.dropLast = true)
    (hmade : d'.makeDirectories p = (w.disk, .ok ())) : Filled top [] d w.disk := by
  obtain ⟨hgrown, hdir⟩ := hp.grown_of_makeDirectories (hlinkless.isPlain top) hmade
  have hrooted := hdir rfl
  refine ⟨hrooted, fun x hx => ?_, fun x hx => ?_⟩
  · have hnone := hinside x hx
    -- at or below the directory only the directory itself can be new
    rcases hgrown x with hsame | ⟨hway, -, hnew⟩
    · rw [hnone] at hsame
      have hne : x ≠ top := by
        rintro rfl
        obtain ⟨mode, hmode⟩ := isDirectoryAt_iff.mp hrooted
        rw [hsame] at hmode
        cases hmode
      rw [hsame, image_nil, if_neg hne]
    · obtain rfl : x = top := hway.eq_of_length_le hx.length_le
      rw [hnew, image_nil, if_pos rfl]
  · rw [← houtside x hx]
    rcases hgrown x with hsame | ⟨hway, hnone, -⟩
    · exact hsame
    · -- the directories above are there
      have habove : x <+: top.dropLast := by
        have hne : top ≠ [] := by
          rintro rfl
          exact hx List.nil_prefix
        have hlast := List.dropLast_concat_getLast hne
        rw [← hlast] at hway
        exact (List.prefix_concat_iff.mp hway).resolve_left fun heq =>
          hx (by rw [heq, hlast])
      obtain ⟨mode, hmode⟩ := exists_directory_above hparent habove
      rw [houtside x hx, hmode] at hnone
      cases hnone

/-- Where no template was, nothing was at all. -/
theorem started_of_absent {e : Entry} (hp : p.Spells top) (hlinkless : d.IsLinkless)
    (hsource : d.get? source = some e) (hparent : isDirectoryAt d.table top.dropLast = true)
    (hnone : d.get? top = none) (hmade : d.makeDirectories p = (w.disk, .ok ())) :
    Started top source d w.disk := by
  have hinside : ∀ x, top <+: x → d.get? x = none := fun x hx => get?_eq_none_below hnone hx
  refine ⟨filled_of_makeDirectories hp hlinkless hinside (fun _ _ => rfl) hparent hmade, ?_, ?_⟩
  · exact not_below_of_free hnone hsource
  · intro mode content
    rw [hnone]
    exact (Option.some_ne_none _).symm

/-- Where a template was, nothing of it is left. -/
theorem started_of_erased (hp : p.Spells top) (hlinkless : d.IsLinkless)
    (hparent : isDirectoryAt d.table top.dropLast = true) (hdir : isDirectoryAt d.table top = true)
    (hout : ¬ top <+: source) (hmade : (d.eraseTree top).makeDirectories p = (w.disk, .ok ())) :
    Started top source d w.disk := by
  have hne : top ≠ [] := by
    rintro rfl
    exact hout List.nil_prefix
  have herase := get?_eraseTree d hne
  have hlinkless' : (d.eraseTree top).IsLinkless := by
    intro x target
    rw [herase]
    split
    · exact (Option.some_ne_none _).symm
    · exact hlinkless x target
  refine ⟨filled_of_makeDirectories hp hlinkless' ?_ ?_ hparent hmade, hout, ?_⟩
  · intro x hx
    rw [herase, if_pos hx]
  · intro x hx
    rw [herase, if_neg hx]
  · intro mode content hfile
    rw [isDirectoryAt_of_get? hfile] at hdir
    cases hdir

/-- **The start of a build**: nothing of an earlier template is left, and nothing else has changed. -/
theorem started_of_start {template : Path} {e : Entry} (hp : p.Spells top)
    (hlinkless : w.disk.IsLinkless) (hsource : w.disk.get? source = some e)
    (hparent : isDirectoryAt w.disk.table top.dropLast = true)
    (hremove : (Build.removeExisting (pathOf source) p).run w = .ok u w₁)
    (hmake : w₁.disk.makeDirectories p = (w₂.disk, .ok ()))
    (hcanonical : w₂.disk.canonical p = .ok template) :
    template = pathOf top ∧ Started top source w.disk w₂.disk := by
  obtain ⟨loc, hfind, rfl⟩ := canonical_eq_ok hcanonical
  have hdescent : IsDescent source := isDescent_of_get? hsource
  have hstarted : Started top source w.disk w₂.disk := by
    rcases Build.removeExisting_eq_ok hdescent hremove with
      ⟨rfl, habsent⟩ | ⟨old, hold, hdir, hout, herased⟩
    · -- otherwise the path, which leads there now, had led there before
      have hplace : loc = top := by
        have hgrown := (hp.grown_of_makeDirectories (hlinkless.isPlain top) hmake).1
        exact hp.eq_of_find (hgrown.isPlain (hlinkless.isPlain top)) hfind
      have hnone : w₁.disk.get? top = none :=
        hplace ▸ free_of_makeDirectories hp.back_not_mem_names habsent hmake hfind
      exact started_of_absent hp hlinkless hsource hparent hnone hmake
    · obtain rfl := hp.eq_of_find (hlinkless.isPlain top) hold
      rw [herased] at hmake
      exact started_of_erased hp hlinkless hparent hdir hout hmake
  have hplain : w₂.disk.IsPlain top := (hstarted.filled.isLinkless hlinkless).isPlain top
  obtain rfl := hp.eq_of_find hplain hfind
  exact ⟨rfl, hstarted⟩

/-! ## The ignore file -/

theorem readIgnoreFile_of_no_file (hp : (Path.join p (.ofString Defaults.ignoreFile)).Spells top)
    (hplain : d.IsPlain top) (h : ∀ mode content, d.get? top ≠ some (.file mode content)) :
    Config.readIgnoreFile d p = [] := by
  rw [Config.readIgnoreFile, readText]
  cases hread : d.read (p.join (.ofString Defaults.ignoreFile)) with
  | error fault => rfl
  | ok content =>
    obtain ⟨mode, hfile⟩ := hp.get?_of_read hplain hread
    exact absurd hfile (h mode content)

/-- The ignore file says the same on two disks with the same way to it, if it is a file on one of them
    only as it is one on the other. -/
theorem readIgnoreFile_congr (hlinkless : d.IsLinkless) (hlinkless' : d'.IsLinkless)
    (hsource : IsDescent source) (hagree : AgreeTo d d' source)
    (hfile : ∀ mode content,
      d.get? (source ++ [Bytes.ofString Defaults.ignoreFile]) = some (.file mode content) ↔
        d'.get? (source ++ [Bytes.ofString Defaults.ignoreFile]) = some (.file mode content)) :
    Config.readIgnoreFile d (pathOf source) = Config.readIgnoreFile d' (pathOf source) := by
  let loc : Location := source ++ [Bytes.ofString Defaults.ignoreFile]
  have hspells : ((pathOf source).join (.ofString Defaults.ignoreFile)).Spells loc :=
    spells_ignoreFile hsource
  by_cases hthere : ∃ mode content, d.get? loc = some (.file mode content)
  · obtain ⟨mode, content, hthere⟩ := hthere
    have hagree' : AgreeTo d d' loc := by
      intro q hq
      rcases List.prefix_concat_iff.mp hq with rfl | hq
      · exact hthere.trans ((hfile mode content).mp hthere).symm
      · exact hagree q hq
    rw [Config.readIgnoreFile, Config.readIgnoreFile, readText, readText,
      hspells.read_congr (hlinkless.isPlain loc) hagree']
  · rw [readIgnoreFile_of_no_file hspells (hlinkless.isPlain loc),
      readIgnoreFile_of_no_file hspells (hlinkless'.isPlain loc)]
    · exact fun mode content h => hthere ⟨mode, content, (hfile mode content).mpr h⟩
    · exact fun mode content h => hthere ⟨mode, content, h⟩

/-- The ignore file of the source tree says what it said before the start. -/
theorem Started.readIgnoreFile_eq (h : Started top source d d') (hlinkless : d.IsLinkless)
    (hsource : IsDescent source) :
    Config.readIgnoreFile d' (pathOf source) = Config.readIgnoreFile d (pathOf source) := by
  refine readIgnoreFile_congr (h.filled.isLinkless hlinkless) hlinkless hsource ?_ fun mode content => ?_
  · exact fun q hq => h.filled.outside q fun hbelow => h.outside (hbelow.trans hq)
  · by_cases hbelow : top <+: source ++ [Bytes.ofString Defaults.ignoreFile]
    · -- the template has taken its place
      have htop := (List.prefix_concat_iff.mp hbelow).resolve_right h.outside
      rw [← htop]
      constructor
      · intro hfile
        have hrooted := h.filled.rooted
        rw [isDirectoryAt_of_get? hfile] at hrooted
        cases hrooted
      · exact fun hfile => absurd hfile (h.noFile mode content)
    · rw [h.filled.outside _ hbelow]

end Stencil
