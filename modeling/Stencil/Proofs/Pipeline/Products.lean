/-
  What a place in a tree comes from.

  Where every file has a place of its own (`Recipe.Separates`), the file that is found at a place is the
  one that was put there (`Product.fileAt?_eq`), and what it holds follows from its source by the
  recipe.  `Recipe.Follows` says this of the products of a walk: each source file that a path leads to has
  its product, and each file among the products has its source.
-/
import Stencil.Proofs.Image
import Stencil.Proofs.Path.Places
import Stencil.Proofs.Walk

namespace Stencil

open Disk Walk

variable {products dirs : List Product} {p q : Product} {x y source top : Location} {d : Disk}
  {e : Entry} {mode : Mode} {content : Bytes} {relative : String} {xs done : List Location}

namespace Product

/-- The file that comes to lie somewhere is a product for that place. -/
theorem exists_of_fileAt? (h : fileAt? products x = some e) :
    ∃ p ∈ products, p.isFile = true ∧ p.location = x ∧ p.entry = e := by
  obtain ⟨p, hp, rfl⟩ := Option.map_eq_some_iff.mp h
  obtain ⟨hmem, hfilter⟩ := List.mem_filter.mp (List.mem_of_getLast? hp)
  obtain ⟨hfile, hloc⟩ := Bool.and_eq_true_iff.mp hfilter
  exact ⟨p, hmem, hfile, beq_iff_eq.mp hloc, rfl⟩

/-- A file is found at its place, if all files there are alike. -/
theorem fileAt?_eq (hp : p ∈ products) (hfile : p.isFile = true)
    (halike : ∀ q ∈ products, q.isFile = true → q.location = p.location → q.entry = p.entry) :
    fileAt? products p.location = some p.entry := by
  cases hat : fileAt? products p.location with
  | some e =>
    obtain ⟨q, hq, hqfile, hloc, rfl⟩ := exists_of_fileAt? hat
    rw [halike q hq hqfile hloc]
  | none =>
    rw [fileAt?, Option.map_eq_none_iff, List.getLast?_eq_none_iff, List.filter_eq_nil_iff] at hat
    exact absurd (by simp [hfile]) (hat p hp)

/-- Directories make no difference to the files. -/
theorem fileAt?_append (hdirs : ∀ q ∈ dirs, q.isFile = false) (x : Location) :
    fileAt? (dirs ++ products) x = fileAt? products x := by
  have hnone : dirs.filter (fun q => q.isFile && q.location == x) = [] := by
    refine List.filter_eq_nil_iff.mpr fun q hq => ?_
    simp [hdirs q hq]
  rw [fileAt?, fileAt?, List.filter_append, hnone, List.nil_append]

end Product

/-- Something lies in the tree at its top, and where a product is at or below. -/
theorem exists_image_iff : (∃ e, image top products x = some e) ↔
    x = top ∨ ∃ p ∈ products, x <+: p.location := by
  have hthere : (x == top || products.any fun p => isBelow x p.location) = true ↔
      x = top ∨ ∃ p ∈ products, x <+: p.location := by
    rw [Bool.or_eq_true, beq_iff_eq, List.any_eq_true]
    simp only [isBelow, List.isPrefixOf_iff_prefix]
  rw [image]
  cases hat : Product.fileAt? products x with
  | some e =>
    obtain ⟨p, hp, -, hloc, -⟩ := Product.exists_of_fileAt? hat
    exact iff_of_true ⟨e, rfl⟩ (.inr ⟨p, hp, hloc ▸ List.prefix_refl _⟩)
  | none =>
    rw [← hthere]
    split <;> simp_all

/-- Two trees agree at two places with the same files, if something lies at or below both or neither. -/
theorem image_eq {products' : List Product} {top' : Location} {x' : Location}
    (hfile : Product.fileAt? products x = Product.fileAt? products' x')
    (hbelow : (x = top ∨ ∃ p ∈ products, x <+: p.location) ↔
      (x' = top' ∨ ∃ p ∈ products', x' <+: p.location)) :
    image top products x = image top' products' x' := by
  have hthere : (x == top || products.any fun p => isBelow x p.location) =
      (x' == top' || products'.any fun p => isBelow x' p.location) := by
    rw [Bool.eq_iff_iff, Bool.or_eq_true, Bool.or_eq_true, beq_iff_eq, beq_iff_eq, List.any_eq_true,
      List.any_eq_true]
    simpa only [isBelow, List.isPrefixOf_iff_prefix] using hbelow
  rw [image, image, hfile, hthere]

theorem image_of_fileAt? (h : Product.fileAt? products x = some e) : image top products x = some e := by
  rw [image, h]

theorem fileAt?_of_image (h : image top products x = some (.file mode content)) :
    Product.fileAt? products x = some (.file mode content) := by
  rw [image] at h
  cases hfile : Product.fileAt? products x with
  | some e =>
    rw [hfile] at h
    exact h
  | none =>
    rw [hfile] at h
    dsimp only at h
    split at h <;> cases h

namespace Recipe

variable {r : Recipe}

/-- Recipes with the same patterns tell the files apart alike. -/
theorem isRaw_congr {r' : Recipe} (h : r.globs = r'.globs) (relative : String) (content : Bytes) :
    r.isRaw relative content = r'.isRaw relative content := by
  rw [isRaw, isRaw, h]

/-- The bytes that come of a file. -/
def bytes (r : Recipe) (relative : String) (content : Bytes) : Bytes :=
  if r.isRaw relative content then content else r.render content

/-- Where the entry at `x` goes in a tree below `top`, when it is met by a walk below `source`. -/
def target? (r : Recipe) (source top x : Location) : Option Location := do
  let relative ← (relativePath (pathOf source) (pathOf x)).toOption
  let target ← (joinUnder (pathOf top) (r.place relative)).toOption
  return target.names

/-- No two of the entries go to the same place. -/
def Separates (r : Recipe) (source top : Location) (xs : List Location) : Prop :=
  ∀ x ∈ xs, ∀ y ∈ xs, r.target? source top x = r.target? source top y → x = y

instance (r : Recipe) (source top : Location) (xs : List Location) :
    Decidable (r.Separates source top xs) :=
  inferInstanceAs (Decidable (∀ x ∈ xs, ∀ y ∈ xs, _ → x = y))

/-- A single entry has its place to itself. -/
theorem separates_of_alone {xs : List Location} (h : ∀ y ∈ xs, y = x) :
    r.Separates source top xs :=
  fun y hy z hz _ => (h y hy).trans (h z hz).symm

/-- The place of an entry is where its renamed relative path leads below the top. -/
theorem target?_eq {target : Path} (hrelative : relativePath (pathOf source) (pathOf x) = .ok relative)
    (htarget : joinUnder (pathOf top) (r.place relative) = .ok target) :
    r.target? source top x = some target.names := by
  simp only [target?, hrelative, Except.toOption, Option.bind_eq_bind, Option.bind_some, htarget,
    Option.pure_def]

/-- A place is spelled by the text that is placed, and lies below the top. -/
theorem target?_eq_some (htop : IsDescent top) (h : r.target? source top x = some y) :
    ∃ relative, relativePath (pathOf source) (pathOf x) = .ok relative ∧
      joinUnder (pathOf top) (r.place relative) = .ok (pathOf y) ∧ top <+: y := by
  cases hrelative : relativePath (pathOf source) (pathOf x) with
  | error fault => simp [target?, hrelative, Except.toOption] at h
  | ok relative =>
    cases htarget : joinUnder (pathOf top) (r.place relative) with
    | error fault => simp [target?, hrelative, htarget, Except.toOption] at h
    | ok target =>
      rw [target?_eq hrelative htarget] at h
      obtain ⟨place, hplace, hdescent, rfl⟩ := joinUnder_eq_ok htop htarget
      rw [(spells_pathOf hdescent).names] at h
      obtain rfl := Option.some.inj h
      exact ⟨relative, rfl, htarget, hplace⟩

/-- What comes of a file is a file, with the permission bits of the file. -/
theorem cook_file (h : r.cook relative x (.file mode content) = some p) :
    p.isFile = true ∧ p.location = x ∧ p.entry = .file mode (r.bytes relative content) := by
  rw [cook] at h
  rw [bytes]
  split at h
  · cases h
    exact ⟨rfl, rfl, by rw [if_pos ‹_›]; rfl⟩
  · cases h
    exact ⟨rfl, rfl, by rw [if_neg ‹_›]; rfl⟩

theorem cook_of_isFile (h : r.cook relative x e = some p) (hfile : p.isFile = true) :
    ∃ mode content, e = .file mode content := by
  cases e with
  | file mode content => exact ⟨mode, content, rfl⟩
  | directory mode =>
    cases h
    cases hfile
  | link target => cases h

/-- What an entry becomes, taken apart. -/
theorem product?_eq_some (h : r.product? d source top x = some p) :
    ∃ relative e, relativePath (pathOf source) (pathOf x) = .ok relative ∧
      r.target? source top x = some p.location ∧ d.get? x = some e ∧
      r.cook relative p.location e = some p := by
  rw [product?] at h
  simp only [Option.bind_eq_bind, Option.bind_eq_some_iff] at h
  obtain ⟨relative, hrelative, target, htarget, e, he, hcook⟩ := h
  have hloc : p.location = target.names := by
    cases e with
    | directory mode =>
      cases hcook
      rfl
    | file mode content => exact (cook_file hcook).2.1
    | link target => cases hcook
  cases hr : relativePath (pathOf source) (pathOf x) with
  | error fault =>
    rw [hr] at hrelative
    cases hrelative
  | ok relative' =>
    rw [hr] at hrelative
    cases hrelative
    cases ht : joinUnder (pathOf top) (r.place relative) with
    | error fault =>
      rw [ht] at htarget
      cases htarget
    | ok target' =>
      rw [ht] at htarget
      cases htarget
      exact ⟨relative, e, rfl, hloc ▸ target?_eq hr ht, he, hloc ▸ hcook⟩

/-- The entries become the products one by one. -/
theorem map_product?_eq (h : r.products? d source top xs = some products) :
    xs.map (r.product? d source top) = products.map some := by
  induction xs generalizing products with
  | nil =>
    cases h
    rfl
  | cons x xs ih =>
    rw [products?, List.mapM_cons] at h
    simp only [Option.bind_eq_bind, Option.bind_eq_some_iff] at h
    obtain ⟨p, hp, rest, hrest, hall⟩ := h
    obtain rfl := Option.some.inj hall
    rw [List.map_cons, List.map_cons, hp, ih hrest]

/-- Every product comes from an entry. -/
theorem exists_of_mem_products? (h : r.products? d source top xs = some products)
    (hp : p ∈ products) : ∃ x ∈ xs, r.product? d source top x = some p := by
  have hmem : some p ∈ xs.map (r.product? d source top) :=
    map_product?_eq h ▸ List.mem_map_of_mem hp
  exact List.mem_map.mp hmem

/-- Every entry has its product. -/
theorem exists_mem_products? (h : r.products? d source top xs = some products) (hx : x ∈ xs) :
    ∃ p ∈ products, r.product? d source top x = some p := by
  have hmem : r.product? d source top x ∈ products.map some :=
    map_product?_eq h ▸ List.mem_map_of_mem hx
  obtain ⟨p, hp, hproduct⟩ := List.mem_map.mp hmem
  exact ⟨p, hp, hproduct.symm⟩

/-- **The files at a place** come of the source files that go there, if no two files go to the same
    place. -/
theorem fileAt?_eq_some_iff (h : r.products? d source top xs = some products)
    (hseparates : r.Separates source top (xs.filter fun x => !isDirectoryAt d.table x)) :
    Product.fileAt? products y = some e ↔ ∃ x ∈ xs, ∃ relative mode content,
      d.get? x = some (.file mode content) ∧
      relativePath (pathOf source) (pathOf x) = .ok relative ∧ r.target? source top x = some y ∧
      e = .file mode (r.bytes relative content) := by
  have hmem : ∀ {x mode content}, x ∈ xs → d.get? x = some (.file mode content) →
      x ∈ xs.filter fun x => !isDirectoryAt d.table x := by
    intro x mode content hx hfile
    refine List.mem_filter.mpr ⟨hx, ?_⟩
    rw [isDirectoryAt_of_get? hfile]
    rfl
  constructor
  · intro hat
    obtain ⟨p, hp, hfile, rfl, rfl⟩ := Product.exists_of_fileAt? hat
    obtain ⟨x, hx, hproduct⟩ := exists_of_mem_products? h hp
    obtain ⟨relative, e, hrelative, htarget, he, hcook⟩ := product?_eq_some hproduct
    obtain ⟨mode, content, rfl⟩ := cook_of_isFile hcook hfile
    exact ⟨x, hx, relative, mode, content, he, hrelative, htarget, (cook_file hcook).2.2⟩
  · rintro ⟨x, hx, relative, mode, content, hfile, hrelative, htarget, rfl⟩
    obtain ⟨p, hp, hproduct⟩ := exists_mem_products? h hx
    obtain ⟨relative', e', hrelative', htarget', he, hcook⟩ := product?_eq_some hproduct
    rw [hrelative] at hrelative'
    obtain rfl := Except.ok.inj hrelative'
    rw [htarget] at htarget'
    obtain rfl := (Option.some.inj htarget').symm
    rw [hfile] at he
    obtain rfl := Option.some.inj he
    obtain ⟨hpfile, -, hentry⟩ := cook_file hcook
    rw [← hentry]
    refine Product.fileAt?_eq hp hpfile fun q hq hqfile hloc => ?_
    -- another file there comes of the same source file
    obtain ⟨z, hz, hzproduct⟩ := exists_of_mem_products? h hq
    obtain ⟨_, ez, _, hztarget, hez, hzcook⟩ := product?_eq_some hzproduct
    obtain ⟨mode', content', rfl⟩ := cook_of_isFile hzcook hqfile
    obtain rfl := hseparates z (hmem hz hez) x (hmem hx hfile) (by rw [hztarget, htarget, hloc])
    rw [hproduct] at hzproduct
    rw [Option.some.inj hzproduct]

/-! ## Places by their names -/

/-- The names of the place of an entry. -/
def names (r : Recipe) (relative : String) : List Name := (Path.ofString (r.place relative)).names

/-- Each of the entries has its place, with the names of the text that is placed. -/
theorem exists_target? (htop : IsDescent top) (h : r.products? d source top xs = some products)
    (hx : x ∈ xs) : ∃ relative, relativePath (pathOf source) (pathOf x) = .ok relative ∧
      IsDescent (r.names relative) ∧ r.target? source top x = some (top ++ r.names relative) := by
  obtain ⟨p, -, hproduct⟩ := exists_mem_products? h hx
  obtain ⟨relative, _, hrelative, htarget, -, -⟩ := product?_eq_some hproduct
  obtain ⟨relative', hrelative', hjoin, -⟩ := target?_eq_some htop htarget
  rw [hrelative] at hrelative'
  obtain rfl := Except.ok.inj hrelative'
  obtain ⟨hdescent, hplace⟩ := joinUnder_eq htop hjoin
  refine ⟨relative, hrelative, hdescent, ?_⟩
  rw [target?_eq hrelative hjoin, hplace]
  exact congrArg some (spells_pathOf (htop.append hdescent)).names

/-- The files at a place, by its names. -/
theorem fileAt?_append_eq_some_iff {steps : Location} (htop : IsDescent top)
    (h : r.products? d source top xs = some products)
    (hseparates : r.Separates source top (xs.filter fun x => !isDirectoryAt d.table x)) :
    Product.fileAt? products (top ++ steps) = some e ↔ ∃ x ∈ xs, ∃ relative mode content,
      d.get? x = some (.file mode content) ∧
      relativePath (pathOf source) (pathOf x) = .ok relative ∧ r.names relative = steps ∧
      e = .file mode (r.bytes relative content) := by
  rw [fileAt?_eq_some_iff h hseparates]
  refine exists_congr fun x => and_congr_right fun hx => exists_congr fun relative =>
    exists_congr fun mode => exists_congr fun content => and_congr_right fun _ =>
    and_congr_right fun hrelative => and_congr_left fun _ => ?_
  obtain ⟨relative', hrelative', -, htarget⟩ := exists_target? htop h hx
  rw [hrelative] at hrelative'
  obtain rfl := Except.ok.inj hrelative'
  rw [htarget, Option.some.injEq, List.append_cancel_left_eq]

/-- The directories that come of some entries, by their names. -/
theorem exists_below_iff {steps : Location} (htop : IsDescent top)
    (h : r.products? d source top xs = some products) :
    (∃ p ∈ products, top ++ steps <+: p.location) ↔ ∃ x ∈ xs, ∃ relative,
      relativePath (pathOf source) (pathOf x) = .ok relative ∧ steps <+: r.names relative := by
  have hplace : ∀ {x p relative}, x ∈ xs → r.product? d source top x = some p →
      relativePath (pathOf source) (pathOf x) = .ok relative → p.location = top ++ r.names relative := by
    intro x p relative hx hproduct hrelative
    obtain ⟨_, _, _, htarget, _, _⟩ := product?_eq_some hproduct
    obtain ⟨relative', hrelative', -, htarget'⟩ := exists_target? htop h hx
    rw [hrelative] at hrelative'
    obtain rfl := Except.ok.inj hrelative'
    rw [htarget] at htarget'
    exact Option.some.inj htarget'
  constructor
  · rintro ⟨p, hp, hbelow⟩
    obtain ⟨x, hx, hproduct⟩ := exists_of_mem_products? h hp
    obtain ⟨relative, hrelative, -⟩ := exists_target? htop h hx
    rw [hplace hx hproduct hrelative, List.prefix_append_right_inj] at hbelow
    exact ⟨x, hx, relative, hrelative, hbelow⟩
  · rintro ⟨x, hx, relative, hrelative, hbelow⟩
    obtain ⟨p, hp, hproduct⟩ := exists_mem_products? h hx
    refine ⟨p, hp, ?_⟩
    rw [hplace hx hproduct hrelative]
    exact (List.prefix_append_right_inj top).mpr hbelow

/-! ## Products of a walk that meets links -/

/-- The products of some entries of the source tree.  A path to an entry is followed through links; only
    what it led to at the start is known. -/
structure Follows (r : Recipe) (d : Disk) (source top : Location) (done : List Location)
    (products : List Product) : Prop where
  /-- A file that the path of an entry leads to has its product. -/
  placed : ∀ x ∈ done, ∀ mode content, d.entry (pathOf x) = .ok (.file mode content) →
    ∃ relative p, relativePath (pathOf source) (pathOf x) = .ok relative ∧
      r.target? source top x = some p.location ∧ p ∈ products ∧ p.isFile = true ∧
      p.entry = .file mode (r.bytes relative content)
  /-- A file among the products comes from an entry whose path leads to no directory. -/
  origin : ∀ p ∈ products, p.isFile = true →
    ∃ x ∈ done, d.isDirectory (pathOf x) = false ∧ r.target? source top x = some p.location ∧
      ∀ relative mode content, relativePath (pathOf source) (pathOf x) = .ok relative →
        d.entry (pathOf x) = .ok (.file mode content) →
        p.entry = .file mode (r.bytes relative content)

namespace Follows

theorem nil : r.Follows d source top [] [] where
  placed := fun _ hx => absurd hx List.not_mem_nil
  origin := fun _ hp => absurd hp List.not_mem_nil

/-- An entry that leads to no file is passed by. -/
theorem skip (h : r.Follows d source top done products)
    (hx : ∀ mode content, d.entry (pathOf x) ≠ .ok (.file mode content)) :
    r.Follows d source top (done ++ [x]) products where
  placed := by
    intro y hy mode content hfile
    rcases List.mem_append.mp hy with hy | hy
    · exact h.placed y hy mode content hfile
    · rw [List.mem_singleton.mp hy] at hfile
      exact absurd hfile (hx mode content)
  origin := by
    intro p hp hfile
    obtain ⟨y, hy, hrest⟩ := h.origin p hp hfile
    exact ⟨y, List.mem_append_left _ hy, hrest⟩

/-- A further entry with its product. -/
theorem concat (h : r.Follows d source top done products)
    (hrelative : relativePath (pathOf source) (pathOf x) = .ok relative)
    (htarget : r.target? source top x = some p.location)
    (hdirectory : p.isFile = true → d.isDirectory (pathOf x) = false)
    (hfile : ∀ mode content, d.entry (pathOf x) = .ok (.file mode content) →
      p.isFile = true ∧ p.entry = .file mode (r.bytes relative content)) :
    r.Follows d source top (done ++ [x]) (products ++ [p]) where
  placed := by
    intro y hy mode content hentry
    rcases List.mem_append.mp hy with hy | hy
    · obtain ⟨relative, q, hrelative, htarget, hq, hrest⟩ := h.placed y hy mode content hentry
      exact ⟨relative, q, hrelative, htarget, List.mem_append_left _ hq, hrest⟩
    · obtain rfl := List.mem_singleton.mp hy
      exact ⟨relative, p, hrelative, htarget, List.mem_concat_self, hfile mode content hentry⟩
  origin := by
    intro q hq hqfile
    rcases List.mem_append.mp hq with hq | hq
    · obtain ⟨y, hy, hrest⟩ := h.origin q hq hqfile
      exact ⟨y, List.mem_append_left _ hy, hrest⟩
    · obtain rfl := List.mem_singleton.mp hq
      refine ⟨x, List.mem_concat_self, hdirectory hqfile, htarget, ?_⟩
      intro relative' mode content hrelative' hentry
      rw [hrelative] at hrelative'
      obtain rfl := Except.ok.inj hrelative'
      exact (hfile mode content hentry).2

/-- **What a source file becomes is found at its place**, if no other file goes there. -/
theorem fileAt?_of_alone (h : r.Follows d source top done products)
    (halone : ∀ y ∈ done, d.isDirectory (pathOf y) = false →
      r.target? source top y = r.target? source top x → y = x)
    (hx : x ∈ done) (hentry : d.entry (pathOf x) = .ok (.file mode content)) :
    ∃ relative t, relativePath (pathOf source) (pathOf x) = .ok relative ∧
      r.target? source top x = some t ∧
      Product.fileAt? products t = some (.file mode (r.bytes relative content)) := by
  obtain ⟨relative, p, hrelative, htarget, hp, hfile, hpentry⟩ := h.placed x hx mode content hentry
  refine ⟨relative, p.location, hrelative, htarget, ?_⟩
  rw [← hpentry]
  refine Product.fileAt?_eq hp hfile fun q hq hqfile hloc => ?_
  obtain ⟨y, hy, hydirectory, hytarget, hcontent⟩ := h.origin q hq hqfile
  obtain rfl := halone y hy hydirectory (by rw [hytarget, htarget, hloc])
  rw [hpentry, hcontent relative mode content hrelative hentry]

/-- So is what each becomes, if no two files go to the same place. -/
theorem fileAt? (h : r.Follows d source top done products)
    (hseparates : r.Separates source top (done.filter fun x => !d.isDirectory (pathOf x)))
    (hx : x ∈ done) (hentry : d.entry (pathOf x) = .ok (.file mode content)) :
    ∃ relative t, relativePath (pathOf source) (pathOf x) = .ok relative ∧
      r.target? source top x = some t ∧
      Product.fileAt? products t = some (.file mode (r.bytes relative content)) := by
  have hxdirectory : d.isDirectory (pathOf x) = false := by
    rw [isDirectory, hentry]
    rfl
  exact h.fileAt?_of_alone (fun y hy hydirectory heq => hseparates y
    (List.mem_filter.mpr ⟨hy, by simp [hydirectory]⟩) x
    (List.mem_filter.mpr ⟨hx, by simp [hxdirectory]⟩) heq) hx hentry

/-- No file lies in a tree of directories. -/
theorem not_below_of_file (hstart : Filled top dirs d d) (hdirs : ∀ q ∈ dirs, q.isFile = false)
    (hx : d.get? x = some (.file mode content)) : ¬ top <+: x := by
  intro hbelow
  rw [hstart.inside x hbelow] at hx
  obtain ⟨q, hq, hfile, -⟩ := Product.exists_of_fileAt? (fileAt?_of_image hx)
  rw [hdirs q hq] at hfile
  cases hfile

/-- **A step by the recipe** for an entry that may be a link.  If its path led to a file at the start it
    leads there still; if it led to nothing it may lead to a file of the tree by now, of which nothing is
    known but its place. -/
theorem step {target : Path} {op : FileOperation} {w w₁ w₂ : World} {u : Unit}
    (h : r.Follows d source top done products) (hstart : Filled top dirs d d)
    (hdirs : ∀ q ∈ dirs, q.isFile = false) (hfilled : Filled top (dirs ++ products) d w.disk)
    (hkeeps : Keeps d w.disk) (he : d.get? x = some e)
    (hrelative : relativePath (pathOf source) (pathOf x) = .ok relative)
    (htarget : joinUnder (pathOf top) (r.place relative) = .ok target)
    (hoperation : (r.operation ⟨pathOf x, e.kind⟩ relative target).run w = .ok op w₁)
    (hexecute : op.execute.run w₁ = .ok u w₂) :
    ∃ p, r.Follows d source top (done ++ [x]) (products ++ [p]) ∧
      Filled top (dirs ++ (products ++ [p])) d w₂.disk ∧ Keeps d w₂.disk := by
  have hplace := target?_eq hrelative htarget
  obtain ⟨p', hlocation', hfile', hfilled', hkeeps'⟩ :=
    hfilled.exists_step htarget hoperation hexecute
  have hlast : Keeps d w₂.disk := hkeeps.trans hkeeps'
  by_cases hleads : ∃ mode content, d.entry (pathOf x) = .ok (.file mode content)
  · obtain ⟨mode, content, hentry⟩ := hleads
    obtain ⟨origin, hfound, horigin⟩ := entry_eq_ok_iff.mp hentry
    have hkind : e.kind ≠ .directory := by
      intro hdirectory
      have hunlinked : e.kind ≠ .link := by
        rw [hdirectory]
        exact Kind.noConfusion
      obtain rfl := Reaches.eq (reaches_of_get? he hunlinked) hfound
      rw [he] at horigin
      cases horigin
      cases hdirectory
    obtain ⟨p, hcook, hlocation, -, hfilled''⟩ := hfilled.step_of_reaches
      (Reaches.of_keeps (reaches_of_find hfound) hkeeps) horigin Kind.noConfusion
      ⟨fun hdirectory => absurd hdirectory hkind, Kind.noConfusion⟩
      (not_below_of_file hstart hdirs horigin) htarget hoperation hexecute
    rw [← hlocation] at hplace
    refine ⟨p, h.concat hrelative hplace (fun _ => ?_) fun mode' content' hentry' => ?_, ?_, hlast⟩
    · rw [isDirectory, hentry]
      rfl
    · rw [hentry] at hentry'
      cases hentry'
      exact ⟨(cook_file hcook).1, (cook_file hcook).2.2⟩
    · rwa [List.append_assoc] at hfilled''
  · rw [← hlocation'] at hplace
    refine ⟨p', h.concat hrelative hplace (fun hisFile => ?_) fun mode content hentry => ?_, ?_, hlast⟩
    · obtain ⟨d₁, mode, content, hkept, hentry⟩ := hfile' hisFile
      rw [← Bool.not_eq_true]
      intro hdirectory
      have hstill := (hkeeps.trans hkept).isDirectory hdirectory
      rw [isDirectory, hentry] at hstill
      cases hstill
    · exact absurd ⟨mode, content, hentry⟩ hleads
    · rwa [List.append_assoc] at hfilled'

end Follows

/-- **A walk whose visits follow the recipe**, be there links in the tree or not: so do the products.
    What the walk carries along keeps what the visits need of it. -/
theorem follows_of_walkSource {β : Type} {skip : List Location} {rules : IgnoreRules}
    {visitEntry : β → Sighting → String → Task β} {R : β → Prop} {value value' : β} {ignored : Nat}
    {w w' : World} (hstart : Filled top dirs w.disk w.disk) (hdirs : ∀ q ∈ dirs, q.isFile = false)
    (hsource : IsDescent source) (hplain : w.disk.IsPlain source) (hout : ¬ top <+: source)
    (hskip : ∀ s ∈ skip, IsDescent s) (htop : top ∈ skip) (hready : R value)
    (hvisit : ∀ {value sighting relative value' w₁ w₂}, R value →
      (visitEntry value sighting relative).run w₁ = .ok value' w₂ →
      R value' ∧ ∃ target op wo u, joinUnder (pathOf top) (r.place relative) = .ok target ∧
        (r.operation sighting relative target).run w₁ = .ok op wo ∧ op.execute.run wo = .ok u w₂)
    (hrun : (walkSource (pathOf source) (skip.map pathOf) rules visitEntry value).run w =
      .ok (value', ignored) w') :
    ∃ products, r.Follows w.disk source top
        (w.disk.tour (admitsSource w.disk source skip rules) source) products ∧
      Filled top (dirs ++ products) w.disk w'.disk := by
  let J : List Location → β → World → Prop := fun done value w₁ => R value ∧
    ∃ products, r.Follows w.disk source top done products ∧
      Filled top (dirs ++ products) w.disk w₁.disk ∧ Keeps w.disk w₁.disk
  have hbegin : J [] value w := by
    refine ⟨hready, [], .nil, ?_, .of_get? rfl fun _ => rfl⟩
    rwa [List.append_nil]
  obtain ⟨-, products, hfollows, hfilled, -⟩ :
      J (w.disk.tour (admitsSource w.disk source skip rules) source) value' w' := by
    refine walkSource_eq_ok (J := J) hplain hsource hskip ?_ ?_ ?_ hbegin hrun
    · -- an entry that is visited
      rintro done value w₁ x e relative value' w₂ ⟨hready, products, hfollows, hfilled, hkeeps⟩ he -
        hrelative hvisited
      obtain ⟨hready', target, op, wo, u, htarget, hoperation, hexecute⟩ := hvisit hready hvisited
      obtain ⟨p, hstep⟩ := hfollows.step hstart hdirs hfilled hkeeps he hrelative htarget hoperation
        hexecute
      exact ⟨hready', products ++ [p], hstep⟩
    · -- a link to a directory
      rintro done value w₁ x target w₂ ⟨hready, products, hfollows, hfilled, hkeeps⟩ - - hdirectory hsame
      have hpassed : ∀ mode content, w.disk.entry (pathOf x) ≠ .ok (.file mode content) := by
        intro mode content hentry
        obtain ⟨mode', content', hentry'⟩ := hkeeps.exists_entry_file hentry
        rw [isDirectory, hentry'] at hdirectory
        cases hdirectory
      rw [← hsame] at hfilled hkeeps
      exact ⟨⟨hready, products, hfollows, hfilled, hkeeps⟩, hready, products, hfollows.skip hpassed,
        hfilled, hkeeps⟩
    · rintro done value w₁ dir listing ⟨-, products, -, hfilled, -⟩ hdir hway hlist
      have hbeside : ¬ top <+: dir := by
        rcases hway with rfl | hway
        · exact hout
        · exact not_below_of_admits hway.self htop
      exact hstart.listing_eq hfilled hdir hbeside hlist
  exact ⟨products, hfollows, hfilled⟩

end Recipe

end Stencil
