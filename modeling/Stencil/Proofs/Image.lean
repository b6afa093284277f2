/-
  The tree that a run of file operations leaves.

  Every operation puts a `Product` at a location: a directory, or a file with its bytes and permission
  bits.  `image top products` is the tree below `top` that comes of them: at each location the last file
  that was put there, and directories above all that was put.  `Filled top products d₀ d` says that the
  disk `d` is that tree below `top`, and elsewhere the disk `d₀`.

  What becomes of an entry is up to a `Recipe`: where it is placed, which files are copied as they are,
  and how the others are rendered.  A step that follows the recipe adds its product to the tree
  (`Filled.step`).  Its source lies outside, so it is as it was at the start.
-/
import Stencil.FileOperation
import Stencil.ProjectPath
import Stencil.Proofs.Disk.Keep
import Stencil.Proofs.Path.Places
import Stencil.Proofs.Task
import Stencil.Walk

namespace Stencil

open Disk

/-- What an operation puts on the disk. -/
inductive Product where
  | directory (loc : Location)
  | copied (loc : Location) (mode : Mode) (content : Bytes)
  | rendered (loc : Location) (mode : Mode) (content : Bytes)
  deriving DecidableEq

namespace Product

/-- Where it is put. -/
def location : Product → Location
  | directory loc => loc
  | copied loc _ _ => loc
  | rendered loc _ _ => loc

/-- What lies there then. -/
def entry : Product → Entry
  | directory _ => .directory Entry.directoryMode
  | copied _ mode content => .file mode content
  | rendered _ mode content => .file mode content

/-- Is it a file copied as it was? -/
def isCopied : Product → Bool
  | copied _ _ _ => true
  | _ => false

/-- Is it a rendered file? -/
def isRendered : Product → Bool
  | rendered _ _ _ => true
  | _ => false

/-- Is it a file? -/
def isFile (p : Product) : Bool := p.isCopied || p.isRendered

theorem countP_isFile (products : List Product) :
    products.countP isFile = products.countP isRendered + products.countP isCopied := by
  induction products with
  | nil => rfl
  | cons p rest ih =>
    rw [List.countP_cons, List.countP_cons, List.countP_cons, ih]
    cases p with
    | directory loc => rfl
    | copied loc mode content => exact Nat.add_assoc ..
    | rendered loc mode content => exact Nat.add_right_comm ..

/-- The last file among the products that was put at a location. -/
def fileAt? (products : List Product) (x : Location) : Option Entry :=
  (products.filter fun p => p.isFile && p.location == x).getLast?.map entry

end Product

/-- The tree below a directory that comes of some products. -/
def image (top : Location) (products : List Product) (x : Location) : Option Entry :=
  match Product.fileAt? products x with
  | some file => some file
  | none =>
    if x == top || products.any fun p => isBelow x p.location then
      some (.directory Entry.directoryMode)
    else none

example : image [] [.copied [[1], [2]] 0o755 [7], .rendered [[1], [2]] 0o644 [8]] [[1], [2]] =
    some (.file 0o644 [8]) := by decide
example : image [] [.copied [[1], [2]] 0o755 [7]] [[1]] = some (.directory 0o755) := by decide

variable {top x y source : Location} {products : List Product} {p : Product} {d₀ d d₁ d₂ d' : Disk}
  {e : Entry} {mode : Mode} {content : Bytes}

namespace Product

theorem fileAt?_concat (products : List Product) (p : Product) (x : Location) :
    fileAt? (products ++ [p]) x =
      if (p.isFile && p.location == x) = true then some p.entry else fileAt? products x := by
  rw [fileAt?, List.filter_append, List.filter_singleton]
  cases p.isFile && p.location == x with
  | true =>
    rw [if_pos rfl, cond_true, List.getLast?_concat]
    rfl
  | false =>
    rw [if_neg Bool.false_ne_true, cond_false, List.append_nil]
    rfl

theorem kind_of_fileAt? (h : fileAt? products x = some e) : e.kind = .file := by
  obtain ⟨p, hp, rfl⟩ := Option.map_eq_some_iff.mp h
  have hfile := (List.mem_filter.mp (List.mem_of_getLast? hp)).2
  cases p with
  | directory loc => cases hfile
  | copied loc mode content => rfl
  | rendered loc mode content => rfl

end Product

/-! ## One more product -/

/-- A directory adds itself and those above it. -/
theorem image_concat_directory : image top (products ++ [.directory y]) x =
    match Product.fileAt? products x with
    | some file => some file
    | none =>
      if x == top || (products.any fun p => isBelow x p.location) || isBelow x y then
        some (.directory Entry.directoryMode)
      else none := by
  have hsame : Product.fileAt? (products ++ [.directory y]) x = Product.fileAt? products x := by
    rw [Product.fileAt?_concat]
    rfl
  rw [image, hsame, List.any_append]
  simp [Product.location, Bool.or_assoc]

theorem image_ne_link (target : Bytes) : image top products x ≠ some (.link target) := by
  rw [image]
  cases hfile : Product.fileAt? products x with
  | some e =>
    simp only
    rintro heq
    obtain rfl := Option.some.inj heq
    have hkind := Product.kind_of_fileAt? hfile
    cases hkind
  | none =>
    simp only
    split
    · exact fun heq => by cases heq
    · exact fun heq => by cases heq

/-- A directory in the tree has the permission bits of a new one. -/
theorem mode_of_image (h : image top products x = some (.directory mode)) :
    Product.fileAt? products x = none ∧ mode = Entry.directoryMode := by
  rw [image] at h
  cases hfile : Product.fileAt? products x with
  | some e =>
    rw [hfile] at h
    obtain rfl := Option.some.inj h
    have hkind := Product.kind_of_fileAt? hfile
    cases hkind
  | none =>
    rw [hfile] at h
    dsimp only at h
    split at h
    · cases h
      exact ⟨rfl, rfl⟩
    · cases h

theorem image_nil : image top [] x =
    if x = top then some (.directory Entry.directoryMode) else none := by
  simp [image, Product.fileAt?]

/-! ## Disks that show a tree -/

/-- The disk is the tree of the products below a directory, and elsewhere it is as at the start. -/
structure Filled (top : Location) (products : List Product) (d₀ d : Disk) : Prop where
  rooted : isDirectoryAt d.table top = true
  inside : ∀ x, top <+: x → d.get? x = image top products x
  outside : ∀ x, ¬ top <+: x → d.get? x = d₀.get? x

namespace Filled

/-- A directory that is put at a free place is empty. -/
theorem of_changed (h : Changed d d' top (.directory Entry.directoryMode)) (hfree : d.get? top = none) :
    Filled top [] d d' where
  rooted := isDirectoryAt_iff.mpr ⟨_, h.get?_self⟩
  inside := by
    intro x hx
    rw [h.get?, image_nil, get?_eq_none_below hfree hx]
  outside := by
    intro x hx
    exact h.get?_of_ne fun heq => hx (heq ▸ List.prefix_refl top)

theorem isLinkless (h : Filled top products d₀ d) (hlinkless : d₀.IsLinkless) : d.IsLinkless := by
  intro x target hx
  by_cases hbelow : top <+: x
  · rw [h.inside x hbelow] at hx
    exact image_ne_link target hx
  · rw [h.outside x hbelow] at hx
    exact hlinkless x target hx

/-- There is no link on the way to what lies in the tree. -/
theorem isPlain (h : Filled top products d₀ d) (hy : top <+: y) : d.IsPlain y := by
  intro q hq target htarget
  by_cases hbelow : top <+: q
  · rw [h.inside q hbelow] at htarget
    exact image_ne_link target htarget
  · have habove : q <+: top := (List.prefix_or_prefix_of_prefix hy hq).resolve_left hbelow
    obtain ⟨mode, hmode⟩ := exists_directory_above h.rooted habove
    rw [hmode] at htarget
    cases htarget

/-- Where a tree stands, it stands also when seen from now on. -/
theorem here (h : Filled top products d₀ d) : Filled top products d d :=
  ⟨h.rooted, h.inside, fun _ _ => rfl⟩

/-- A tree that was begun on an earlier disk is seen alike from there. -/
theorem rebase (h : Filled top products d d') (hstart : Filled top [] d₀ d) :
    Filled top products d₀ d' :=
  ⟨h.rooted, h.inside, fun x hx => (h.outside x hx).trans (hstart.outside x hx)⟩

/-- Directories outside hold the same names as at the start of a walk. -/
theorem children_eq {products' : List Product} (h : Filled top products d₀ d)
    (h' : Filled top products' d₀ d') (hout : ¬ top <+: x) : d.children x = d'.children x := by
  refine children_congr fun name => ?_
  by_cases hbelow : top <+: x ++ [name]
  · -- then it is the top of the tree, a directory on both disks
    have htop : top = x ++ [name] := (List.prefix_concat_iff.mp hbelow).resolve_right hout
    obtain ⟨mode, hmode⟩ := isDirectoryAt_iff.mp h.rooted
    obtain ⟨mode', hmode'⟩ := isDirectoryAt_iff.mp h'.rooted
    rw [← htop, hmode, hmode']
    rfl
  · rw [h.outside _ hbelow, h'.outside _ hbelow]

/-- A walk that passes over the tree reads in each directory what was there when the walk began. -/
theorem listing_eq {products' : List Product} {listing : List (Name × Kind)}
    (h : Filled top products d₀ d) (h' : Filled top products' d₀ d')
    (hdir : isDirectoryAt d.table x = true) (hout : ¬ top <+: x)
    (hlist : d'.list (pathOf x) = .ok listing) : listing = d.children x := by
  obtain ⟨mode, hmode⟩ := isDirectoryAt_iff.mp hdir
  have hthere : d'.get? x = some (.directory mode) := by
    rw [h'.outside x hout, ← h.outside x hout, hmode]
  rw [(spells_of_get? hthere).children_of_list (isPlain_of_get? hthere Kind.noConfusion) hlist]
  exact h'.children_eq h hout

/-- A further directory. -/
theorem directory (h : Filled top products d₀ d) (hgrown : Grown (· <+: y) d d')
    (hdir : isDirectoryAt d'.table y = true) (hy : top <+: y) :
    Filled top (products ++ [.directory y]) d₀ d' where
  rooted := hgrown.keeps_directory h.rooted
  inside := by
    intro x hx
    have hbefore := h.inside x hx
    rw [image_concat_directory]
    by_cases hway : x <+: y
    · -- on the way there are directories, those that were there and new ones
      obtain ⟨mode, hmode⟩ := exists_directory_above hdir hway
      have hdirectory : Product.fileAt? products x = none ∧ mode = Entry.directoryMode := by
        rcases hgrown x with hsame | ⟨-, hnone, hnew⟩
        · rw [hsame, hbefore] at hmode
          exact mode_of_image hmode
        · rw [hnew] at hmode
          cases hmode
          refine ⟨?_, rfl⟩
          rw [hnone, image] at hbefore
          cases hfile : Product.fileAt? products x with
          | none => rfl
          | some e =>
            rw [hfile] at hbefore
            cases hbefore
      rw [hmode, hdirectory.1, hdirectory.2]
      simp [isBelow, hway]
    · have hsame : d'.get? x = d.get? x := by
        rcases hgrown x with hsame | ⟨hway', -⟩
        · exact hsame
        · exact absurd hway' hway
      have hbeside : isBelow x y = false := by
        rw [isBelow, ← Bool.not_eq_true, List.isPrefixOf_iff_prefix]
        exact hway
      rw [hsame, hbefore, hbeside, Bool.or_false]
      rfl
  outside := by
    intro x hx
    rw [← h.outside x hx]
    rcases hgrown x with hsame | ⟨hway, hnone, -⟩
    · exact hsame
    · -- what is above the tree is there already
      have habove : x <+: top := (List.prefix_or_prefix_of_prefix hy hway).resolve_left hx
      obtain ⟨mode, hmode⟩ := exists_directory_above h.rooted habove
      rw [hnone] at hmode
      cases hmode

/-- A further file, in a directory that was made for it. -/
theorem file (h : Filled top products d₀ d) (hgrown : Grown (· <+: y.dropLast) d d₁)
    (hdir : isDirectoryAt d₁.table y.dropLast = true) (hy : top <+: y)
    (hfits : Fits d₁.table y p.entry) (hfile : p.isFile = true) (hp : p.location = y)
    (hput : ∀ x, d₂.get? x = if x = y then some p.entry else d₁.get? x) :
    Filled top (products ++ [p]) d₀ d₂ := by
  have hentry : p.entry.isDirectory = false := by
    cases p with
    | directory loc => cases hfile
    | copied loc mode content => rfl
    | rendered loc mode content => rfl
  -- no file takes the place of the top of the tree
  have hne : top ≠ y := by
    rintro rfl
    have hthere := hfits.keeps (hgrown.keeps_directory h.rooted)
    rw [hentry] at hthere
    cases hthere
  have hlast : y = y.dropLast ++ [y.getLast hfits.notRoot] :=
    (List.dropLast_concat_getLast hfits.notRoot).symm
  have habove : top <+: y.dropLast := by
    rw [hlast] at hy
    exact (List.prefix_concat_iff.mp hy).resolve_left fun heq => hne (heq.trans hlast.symm)
  -- the directory made for the file counts as a product for a moment
  have hparent : Filled top (products ++ [.directory y.dropLast]) d₀ d₁ :=
    h.directory hgrown hdir habove
  constructor
  · obtain ⟨mode, hmode⟩ := isDirectoryAt_iff.mp hparent.rooted
    refine isDirectoryAt_iff.mpr ⟨mode, ?_⟩
    rw [hput, if_neg hne, hmode]
  · intro x hx
    rw [hput]
    by_cases heq : x = y
    · rw [if_pos heq, image, Product.fileAt?_concat, if_pos (by simp [hfile, hp, heq])]
    · have hbeside : isBelow x y = isBelow x y.dropLast := by
        rw [Bool.eq_iff_iff, isBelow, isBelow, List.isPrefixOf_iff_prefix,
          List.isPrefixOf_iff_prefix]
        constructor
        · intro hbelow
          rw [hlast] at hbelow
          exact (List.prefix_concat_iff.mp hbelow).resolve_left fun h => heq (h.trans hlast.symm)
        · exact fun hbelow => hbelow.trans (List.dropLast_prefix y)
      have hother : ¬ (p.isFile && p.location == x) = true := by
        simp [hp, Ne.symm heq]
      rw [if_neg heq, hparent.inside x hx, image_concat_directory, image, Product.fileAt?_concat,
        if_neg hother, List.any_append, ← hbeside]
      simp [hp, Bool.or_assoc]
  · intro x hx
    have hxy : x ≠ y := fun heq => hx (heq ▸ hy)
    rw [hput, if_neg hxy]
    exact hparent.outside x hx

end Filled

/-! ## Operations -/

theorem makeParent_eq_ok {w w' : World} {u : Unit} (hy : IsDescent y) (hplain : w.disk.IsPlain y)
    (h : (FileOperation.makeParent (pathOf y)).run w = .ok u w') :
    Grown (· <+: y.dropLast) w.disk w'.disk ∧ isDirectoryAt w'.disk.table y.dropLast = true := by
  have hspells : (pathOf y).Spells y := spells_pathOf hy
  unfold FileOperation.makeParent at h
  cases hparent : (pathOf y).parent? with
  | none =>
    rw [hparent] at h
    obtain ⟨-, rfl⟩ := Task.pure_eq_ok h
    rw [hspells.eq_nil_of_parent? hparent]
    exact ⟨Grown.refl _, isDirectoryAt_nil _⟩
  | some parent =>
    rw [hparent] at h
    have hmade := Task.makeDirectories_eq_ok h
    have hplain' : w.disk.IsPlain y.dropLast := fun q hq =>
      hplain q (hq.trans (List.dropLast_prefix y))
    obtain ⟨hgrown, hdir⟩ := (hspells.parent? hparent).1.grown_of_makeDirectories hplain' hmade
    exact ⟨hgrown, hdir rfl⟩

/-- Making the directories above a path keeps what lies on the disk, however it ends. -/
theorem makeParent_keeps (d : Disk) (p : Path) :
    Task.Keeps (Keeps d) (FileOperation.makeParent p) fun _ => True := by
  unfold FileOperation.makeParent
  split
  · exact Task.Keeps.makeDirectories fun d₁ h => h.trans (keeps_makeDirectories d₁ _)
  · exact Task.Keeps.pure trivial

/-- So does every operation. -/
theorem execute_keeps (d : Disk) (op : FileOperation) :
    Task.Keeps (Keeps d) op.execute fun _ => True := by
  cases op with
  | directory target =>
    exact Task.Keeps.makeDirectories fun d₁ h => h.trans (keeps_makeDirectories d₁ target)
  | copy source target =>
    refine (makeParent_keeps d target).bind fun _ _ => ?_
    exact Task.Keeps.change fun d₁ d₂ h hcopy => h.trans (keeps_copy hcopy)
  | write source target content =>
    refine (makeParent_keeps d target).bind fun _ _ => ?_
    refine (Task.Keeps.change fun d₁ d₂ h hwrite => h.trans (keeps_write hwrite)).bind fun _ _ => ?_
    refine Task.Keeps.change fun d₁ d₂ h hset => ?_
    obtain ⟨mode, -, hmode⟩ := exists_of_bind_eq_ok hset
    exact h.trans (keeps_setMode hmode)

theorem keeps_makeParent {w w' : World} {u : Unit} {p : Path}
    (h : (FileOperation.makeParent p).run w = .ok u w') : Keeps w.disk w'.disk :=
  (makeParent_keeps w.disk p).of_ok (.of_get? rfl fun _ => rfl) h

/-- An operation that succeeds keeps the disk. -/
theorem keeps_execute {w w' : World} {u : Unit} {op : FileOperation}
    (h : op.execute.run w = .ok u w') : Keeps w.disk w'.disk :=
  (execute_keeps w.disk op).of_ok (.of_get? rfl fun _ => rfl) h

namespace Filled

variable {w w' : World} {u : Unit} {path : Path}

theorem execute_directory (h : Filled top products d₀ w.disk) (hdescent : IsDescent y)
    (hy : top <+: y) (hrun : (FileOperation.directory (pathOf y)).execute.run w = .ok u w') :
    Filled top (products ++ [.directory y]) d₀ w'.disk := by
  have hmade := Task.makeDirectories_eq_ok hrun
  obtain ⟨hgrown, hdir⟩ := (spells_pathOf hdescent).grown_of_makeDirectories (h.isPlain hy) hmade
  exact h.directory hgrown (hdir rfl) hy

/-- A file is copied into the tree from wherever its path leads once the directories are made. -/
theorem execute_copy_from (h : Filled top products d₀ w.disk) (hdescent : IsDescent y)
    (hy : top <+: y) (hrun : (FileOperation.copy path (pathOf y)).execute.run w = .ok u w') :
    ∃ d₁ origin mode content, Keeps w.disk d₁ ∧ Grown (· <+: y.dropLast) w.disk d₁ ∧
      d₁.find true path = .ok origin ∧ d₁.get? origin = some (.file mode content) ∧
      Filled top (products ++ [.copied y mode (if y = origin then [] else content)]) d₀ w'.disk := by
  have hplain : w.disk.IsPlain y := h.isPlain hy
  obtain ⟨u₁, w₁, hparent, hcopy⟩ := Task.bind_eq_ok hrun
  obtain ⟨hgrown, hdir⟩ := makeParent_eq_ok hdescent hplain hparent
  obtain ⟨origin, mode, content, horigin, hfile, hchanged⟩ :=
    changed_of_copy (spells_pathOf hdescent) (hgrown.isPlain hplain) (Task.change_eq_ok hcopy)
  exact ⟨w₁.disk, origin, mode, content, keeps_makeParent hparent, hgrown, horigin, hfile,
    h.file hgrown hdir hy hchanged.fits rfl rfl hchanged.get?⟩

/-- A file that lies outside is copied into the tree. -/
theorem execute_copy (h : Filled top products d₀ w.disk) (hdescent : IsDescent y) (hy : top <+: y)
    (hreach : w.disk.Reaches path source) (hsource : d₀.get? source = some (.file mode content))
    (hout : ¬ top <+: source)
    (hrun : (FileOperation.copy path (pathOf y)).execute.run w = .ok u w') :
    Filled top (products ++ [.copied y mode content]) d₀ w'.disk := by
  obtain ⟨d₁, origin, mode', content', hkeeps, hgrown, horigin, hfile, hfilled⟩ :=
    h.execute_copy_from hdescent hy hrun
  obtain rfl := hreach hkeeps horigin
  rw [hgrown.get?_of_some ((h.outside origin hout).trans hsource)] at hfile
  cases hfile
  -- a file is emptied that is copied onto itself, but the source is no file of the tree
  have hother : y ≠ origin := fun heq => hout (heq ▸ hy)
  rwa [if_neg hother] at hfilled

/-- A rendered file gets the permission bits of what its path leads to once the file is written. -/
theorem execute_write_from (h : Filled top products d₀ w.disk) (hdescent : IsDescent y)
    (hy : top <+: y)
    (hrun : (FileOperation.write path (pathOf y) content).execute.run w = .ok u w') :
    ∃ d₁ mode, Keeps w.disk d₁ ∧
      (∀ x e, x ≠ y → w.disk.get? x = some e → d₁.get? x = some e) ∧ d₁.mode path = .ok mode ∧
      Filled top (products ++ [.rendered y mode content]) d₀ w'.disk := by
  have hplain : w.disk.IsPlain y := h.isPlain hy
  obtain ⟨u₁, w₁, hparent, hrest⟩ := Task.bind_eq_ok hrun
  obtain ⟨hgrown, hdir⟩ := makeParent_eq_ok hdescent hplain hparent
  obtain ⟨u₂, w₂, hwrite, hset⟩ := Task.bind_eq_ok hrest
  obtain ⟨first, -, hwritten⟩ :=
    changed_of_write (spells_pathOf hdescent) (hgrown.isPlain hplain) (Task.change_eq_ok hwrite)
  obtain ⟨mode, hread, hset'⟩ := exists_of_bind_eq_ok (Task.change_eq_ok hset)
  refine ⟨w₂.disk, mode, (keeps_makeParent hparent).trans (keeps_write (Task.change_eq_ok hwrite)),
    fun x e hx he => ?_, hread, ?_⟩
  · rw [hwritten.get?_of_ne hx]
    exact hgrown.get?_of_some he
  have hset₂ := changed_of_setMode_file (spells_pathOf hdescent) hwritten.get?_self hset'
  refine h.file hgrown hdir hy ⟨hwritten.fits.notRoot, hwritten.fits.proper,
    hwritten.fits.rooted, hwritten.fits.keeps⟩ rfl rfl fun x => ?_
  rw [hset₂.get?, hwritten.get?]
  by_cases hx : x = y
  · rw [if_pos hx, if_pos hx]
    rfl
  · rw [if_neg hx, if_neg hx, if_neg hx]

/-- A rendered file gets the permission bits of its source, which lies outside. -/
theorem execute_write (h : Filled top products d₀ w.disk) (hdescent : IsDescent y) (hy : top <+: y)
    {old : Bytes} (hreach : w.disk.Reaches path source)
    (hsource : d₀.get? source = some (.file mode old)) (hout : ¬ top <+: source)
    (hrun : (FileOperation.write path (pathOf y) content).execute.run w = .ok u w') :
    Filled top (products ++ [.rendered y mode content]) d₀ w'.disk := by
  obtain ⟨d₁, m, hkeeps, hkept, hread, hfilled⟩ := h.execute_write_from hdescent hy hrun
  have hthere : d₁.get? source = some (.file mode old) :=
    hkept source _ (fun heq => hout (heq ▸ hy)) ((h.outside source hout).trans hsource)
  -- the source is no file of the tree, so its permission bits are read as they were
  obtain rfl : m = mode := by
    rw [Disk.mode] at hread
    cases hentry : d₁.entry path with
    | error fault =>
      rw [hentry] at hread
      cases hread
    | ok e =>
      obtain ⟨origin, horigin, he⟩ := entry_eq_ok_iff.mp hentry
      obtain rfl := hreach hkeeps horigin
      rw [hthere] at he
      cases he
      rw [hentry] at hread
      exact (Except.ok.inj hread).symm
  exact hfilled

end Filled

/-! ## Recipes -/

/-- What becomes of the entries of a tree: which files are copied as they are, at which path an entry is
    placed, and how other files are rendered. -/
structure Recipe where
  globs : PatternSet
  place : String → String
  render : Bytes → Bytes

/-- The operation puts the product on the disk. -/
inductive FileOperation.Puts : FileOperation → Product → Prop
  | directory (y : Location) : Puts (.directory (pathOf y)) (.directory y)
  | copy (origin : Path) (y : Location) (mode : Mode) (content : Bytes) :
      Puts (.copy origin (pathOf y)) (.copied y mode content)
  | write (origin : Path) (y : Location) (mode : Mode) (content : Bytes) :
      Puts (.write origin (pathOf y) content) (.rendered y mode content)

namespace Recipe

/-- Is a file copied as it is? -/
def isRaw (r : Recipe) (relative : String) (content : Bytes) : Bool :=
  r.globs.matchesPath relative || (content.take Defaults.sniffedBytes).any (· == 0)

/-- What an entry becomes at a location. -/
def cook (r : Recipe) (relative : String) (loc : Location) : Entry → Option Product
  | .directory _ => some (.directory loc)
  | .file mode content =>
    if r.isRaw relative content then some (.copied loc mode content)
    else some (.rendered loc mode (r.render content))
  | .link _ => none

/-- What the entry at `x` becomes in a tree below `top`, when it is met by a walk below `source`. -/
def product? (r : Recipe) (d : Disk) (source top x : Location) : Option Product := do
  let relative ← (relativePath (pathOf source) (pathOf x)).toOption
  let target ← (joinUnder (pathOf top) (r.place relative)).toOption
  r.cook relative target.names (← d.get? x)

/-- What some entries become, if all of them become something. -/
def products? (r : Recipe) (d : Disk) (source top : Location) (xs : List Location) :
    Option (List Product) :=
  xs.mapM (r.product? d source top)

/-- The operation for an entry. -/
def operation (r : Recipe) (sighting : Sighting) (relative : String) (target : Path) :
    Task FileOperation :=
  if sighting.kind = .directory then pure (FileOperation.directory target)
  else do
    let static ← Task.query (isStatic relative sighting.path r.globs)
    FileOperation.forFile sighting.path target static r.render

variable {r : Recipe} {relative : String} {target : Path} {op : FileOperation} {w w₁ w₂ : World}
  {u : Unit}

theorem products?_concat {start : Location} {done : List Location}
    (hdone : r.products? d start top done = some products) (hp : r.product? d start top x = some p) :
    r.products? d start top (done ++ [x]) = some (products ++ [p]) := by
  rw [products?] at hdone ⊢
  simp [List.mapM_append, hdone, hp]

/-- What entries become depends on what they are. -/
theorem products?_congr {start : Location} {xs : List Location} (h : ∀ x ∈ xs, d.get? x = d'.get? x) :
    r.products? d start top xs = r.products? d' start top xs := by
  induction xs with
  | nil => rw [products?, products?, List.mapM_nil, List.mapM_nil]
  | cons x xs ih =>
    have hx : r.product? d start top x = r.product? d' start top x := by
      rw [product?, product?, h x List.mem_cons_self]
    have hxs := ih fun y hy => h y (List.mem_cons_of_mem x hy)
    rw [products?, products?] at hxs
    rw [products?, products?, List.mapM_cons, List.mapM_cons, hx, hxs]

/-- A tree of the products of entries that lie outside of it is seen alike from before it was begun. -/
theorem rebase {start : Location} {xs : List Location} (hbegun : Filled top [] d₀ d)
    (hout : ∀ x ∈ xs, ¬ top <+: x) (hproducts : r.products? d start top xs = some products)
    (h : Filled top products d d') :
    r.products? d₀ start top xs = some products ∧ Filled top products d₀ d' := by
  refine ⟨?_, h.rebase hbegun⟩
  rw [← hproducts]
  exact products?_congr fun x hx => (hbegun.outside x (hout x hx)).symm

/-- The files among some entries become the files among their products. -/
theorem countP_isFile {start : Location} {xs : List Location}
    (h : r.products? d start top xs = some products) :
    products.countP Product.isFile =
      xs.countP fun x => (d.get? x).map Entry.kind = some .file := by
  -- files become files, and directories become directories
  have hone : ∀ x p, r.product? d start top x = some p →
      p.isFile = decide ((d.get? x).map Entry.kind = some .file) := by
    intro x p hp
    rw [product?] at hp
    simp only [Option.bind_eq_bind, Option.bind_eq_some_iff] at hp
    obtain ⟨relative, -, target, -, e, he, hcook⟩ := hp
    rw [he]
    cases e with
    | directory mode =>
      cases hcook
      rfl
    | file mode content =>
      rw [cook] at hcook
      split at hcook <;> cases hcook <;> rfl
    | link target => cases hcook
  induction xs generalizing products with
  | nil =>
    cases h
    rfl
  | cons x xs ih =>
    rw [products?, List.mapM_cons] at h
    simp only [Option.bind_eq_bind, Option.bind_eq_some_iff] at h
    obtain ⟨p, hp, rest, hrest, hall⟩ := h
    obtain rfl := Option.some.inj hall
    rw [List.countP_cons, List.countP_cons, ih hrest, hone x p hp]

/-- A file is copied as it is, or it is read and what comes of it is written. -/
theorem forFile_eq_ok {path : Path} {static : Bool} {render : Bytes → Bytes}
    (h : (FileOperation.forFile path target static render).run w = .ok op w₁) :
    w₁ = w ∧ ((static = true ∧ op = .copy path target) ∨
      (static = false ∧ ∃ bytes, w.disk.read path = .ok bytes ∧
        op = .write path target (render bytes))) := by
  unfold FileOperation.forFile at h
  cases static with
  | true =>
    obtain ⟨rfl, rfl⟩ := Task.pure_eq_ok h
    exact ⟨rfl, .inl ⟨rfl, rfl⟩⟩
  | false =>
    obtain ⟨bytes, wb, hquery, hwrite⟩ := Task.bind_eq_ok h
    obtain ⟨hread, rfl⟩ := Task.query_eq_ok hquery
    obtain ⟨rfl, rfl⟩ := Task.pure_eq_ok hwrite
    exact ⟨rfl, .inr ⟨rfl, bytes, hread, rfl⟩⟩

theorem operation_file_eq_ok {path : Path} {kind : Kind} (hkind : kind ≠ .directory)
    (hreach : w.disk.Reaches path x) (hfile : w.disk.get? x = some (.file mode content))
    (h : (r.operation ⟨path, kind⟩ relative target).run w = .ok op w₁) :
    w₁ = w ∧ op = if r.isRaw relative content then .copy path target
      else .write path target (r.render content) := by
  have hread : ∀ bytes, w.disk.read path = .ok bytes → bytes = content := by
    intro bytes hbytes
    obtain ⟨mode', hentry⟩ := exists_entry_of_read hbytes
    obtain ⟨origin, horigin, he⟩ := entry_eq_ok_iff.mp hentry
    obtain rfl := hreach.eq horigin
    cases hfile.symm.trans he
    rfl
  rw [operation, if_neg hkind] at h
  obtain ⟨static, ws, hstatic, h₁⟩ := Task.bind_eq_ok h
  obtain ⟨hraw, rfl⟩ := Task.query_eq_ok hstatic
  -- the globs are asked first, and only then is the file read
  have hsame : static = r.isRaw relative content := by
    rw [isStatic] at hraw
    rw [isRaw]
    split at hraw
    · rename_i hmatch
      rw [hmatch, ← Except.ok.inj hraw]
      rfl
    · rename_i hmatch
      rw [Bool.not_eq_true] at hmatch
      rw [hmatch, Bool.false_or]
      rw [looksBinary] at hraw
      cases hbytes : ws.disk.read path with
      | error fault =>
        rw [hbytes] at hraw
        cases hraw
      | ok bytes =>
        rw [hbytes] at hraw
        rw [← hread bytes hbytes]
        exact (Except.ok.inj hraw).symm
  rw [← hsame]
  obtain ⟨rfl, ⟨rfl, rfl⟩ | ⟨rfl, bytes, hbytes, rfl⟩⟩ := forFile_eq_ok h₁
  · exact ⟨rfl, rfl⟩
  · rw [hread bytes hbytes]
    exact ⟨rfl, rfl⟩

end Recipe

/-- **A step by the recipe** adds to the tree what an entry becomes that lies outside.  The entry is met
    under a path that leads to it, be it through a link. -/
theorem Filled.step_of_reaches {r : Recipe} {path : Path} {kind : Kind} {relative : String}
    {target : Path} {op : FileOperation} {w w₁ w₂ : World} {u : Unit}
    (h : Filled top products d₀ w.disk) (hreach : w.disk.Reaches path source)
    (he : d₀.get? source = some e) (hunlinked : e.kind ≠ .link)
    (hkind : kind = .directory ↔ e.kind = .directory) (hout : ¬ top <+: source)
    (htarget : joinUnder (pathOf top) (r.place relative) = .ok target)
    (hoperation : (r.operation ⟨path, kind⟩ relative target).run w = .ok op w₁)
    (hexecute : op.execute.run w₁ = .ok u w₂) :
    ∃ p, r.cook relative target.names e = some p ∧ p.location = target.names ∧ op.Puts p ∧
      Filled top (products ++ [p]) d₀ w₂.disk := by
  obtain ⟨place, hy, hdescent, rfl⟩ :=
    joinUnder_eq_ok (isDescent_of_isDirectoryAt h.rooted) htarget
  rw [(spells_pathOf hdescent).names]
  have hthere : w.disk.get? source = some e := (h.outside source hout).trans he
  cases e with
  | link target => exact absurd rfl hunlinked
  | directory mode =>
    rw [Recipe.operation, if_pos (hkind.mpr rfl)] at hoperation
    obtain ⟨rfl, rfl⟩ := Task.pure_eq_ok hoperation
    exact ⟨_, rfl, rfl, .directory _, h.execute_directory hdescent hy hexecute⟩
  | file mode content =>
    have hkind' : kind ≠ .directory := fun heq => by cases hkind.mp heq
    obtain ⟨rfl, rfl⟩ := Recipe.operation_file_eq_ok hkind' hreach hthere hoperation
    rw [Recipe.cook]
    cases hraw : r.isRaw relative content with
    | true =>
      rw [hraw, if_pos rfl] at hexecute
      exact ⟨_, rfl, rfl, .copy .., h.execute_copy hdescent hy hreach he hout hexecute⟩
    | false =>
      rw [hraw, if_neg Bool.false_ne_true] at hexecute
      exact ⟨_, rfl, rfl, .write .., h.execute_write hdescent hy hreach he hout hexecute⟩

/-- **Any step by the recipe** adds something at the place of the entry, whatever its path leads to.  It
    adds a file only if the path leads to one on the way. -/
theorem Filled.exists_step {r : Recipe} {path : Path} {kind : Kind} {relative : String}
    {target : Path} {op : FileOperation} {w w₁ w₂ : World} {u : Unit}
    (h : Filled top products d₀ w.disk)
    (htarget : joinUnder (pathOf top) (r.place relative) = .ok target)
    (hoperation : (r.operation ⟨path, kind⟩ relative target).run w = .ok op w₁)
    (hexecute : op.execute.run w₁ = .ok u w₂) :
    ∃ p, p.location = target.names ∧
      (p.isFile = true → ∃ d₁ mode content, Keeps w.disk d₁ ∧
        d₁.entry path = .ok (.file mode content)) ∧
      Filled top (products ++ [p]) d₀ w₂.disk ∧ Keeps w.disk w₂.disk := by
  obtain ⟨place, hy, hdescent, rfl⟩ :=
    joinUnder_eq_ok (isDescent_of_isDirectoryAt h.rooted) htarget
  rw [(spells_pathOf hdescent).names]
  rw [Recipe.operation] at hoperation
  by_cases hkind : kind = .directory
  · rw [if_pos hkind] at hoperation
    obtain ⟨rfl, rfl⟩ := Task.pure_eq_ok hoperation
    exact ⟨.directory place, rfl, fun hfile => absurd hfile Bool.false_ne_true,
      h.execute_directory hdescent hy hexecute, keeps_execute hexecute⟩
  rw [if_neg hkind] at hoperation
  obtain ⟨static, ws, hstatic, h₁⟩ := Task.bind_eq_ok hoperation
  obtain ⟨-, rfl⟩ := Task.query_eq_ok hstatic
  obtain ⟨rfl, ⟨-, rfl⟩ | ⟨-, bytes, hread, rfl⟩⟩ := Recipe.forFile_eq_ok h₁
  · obtain ⟨d₁, origin, mode, content, hkeeps, -, horigin, hfile, hfilled⟩ :=
      h.execute_copy_from hdescent hy hexecute
    exact ⟨_, rfl, fun _ => ⟨d₁, mode, content, hkeeps, entry_eq_ok_iff.mpr ⟨origin, horigin, hfile⟩⟩,
      hfilled, keeps_execute hexecute⟩
  · obtain ⟨mode, hentry⟩ := exists_entry_of_read hread
    obtain ⟨d₁, mode', -, -, -, hfilled⟩ := h.execute_write_from hdescent hy hexecute
    exact ⟨_, rfl, fun _ => ⟨_, mode, bytes, .of_get? rfl fun _ => rfl, hentry⟩, hfilled,
      keeps_execute hexecute⟩

/-- A step by the recipe for an entry that is no link adds its product. -/
theorem Filled.step {r : Recipe} {start : Location} {relative : String} {target : Path}
    {op : FileOperation} {w w₁ w₂ : World} {u : Unit} (h : Filled top products d₀ w.disk)
    (hunlinked : e.kind ≠ .link) (he : d₀.get? x = some e) (hout : ¬ top <+: x)
    (hrelative : relativePath (pathOf start) (pathOf x) = .ok relative)
    (htarget : joinUnder (pathOf top) (r.place relative) = .ok target)
    (hoperation : (r.operation ⟨pathOf x, e.kind⟩ relative target).run w = .ok op w₁)
    (hexecute : op.execute.run w₁ = .ok u w₂) :
    ∃ p, r.product? d₀ start top x = some p ∧ op.Puts p ∧
      Filled top (products ++ [p]) d₀ w₂.disk := by
  have hreach : w.disk.Reaches (pathOf x) x :=
    reaches_of_get? ((h.outside x hout).trans he) hunlinked
  obtain ⟨p, hp, -, hputs, hfilled⟩ :=
    h.step_of_reaches hreach he hunlinked Iff.rfl hout htarget hoperation hexecute
  refine ⟨p, ?_, hputs, hfilled⟩
  rw [Recipe.product?, hrelative, he]
  simp only [Except.toOption, htarget, Option.bind_some, Option.bind_eq_bind]
  exact hp

end Stencil
