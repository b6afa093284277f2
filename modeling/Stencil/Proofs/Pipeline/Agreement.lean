/-
  A project is the same on both ways.

  Made at once, an entry of a source tree is renamed and its renamed path is rendered.  By way of a
  template it gets the names of its renamed path there, and what is rendered is the path that these names
  spell.  A token without slashes lies in one name, so that either way the names of an entry in the
  project are those of its place in the template, each rendered for itself (`names_scaffoldRecipe`,
  `names_projectRecipe`).

  1. **The template.**  What lies in it comes of the source tree, but for the description: a file comes of
     a file that goes there, and a directory of an entry that goes there or below (`exists_file_of_template`,
     `exists_entry_of_template`).
  2. **The two projects** hold the same, if no two files go to the same place and a file is copied
     on both ways or on neither (`image_agrees`).
  3. **The runs** give the products of the source tree on both ways (`scaffold_agrees`).
-/
import Stencil.Proofs.Pipeline.Classes
import Stencil.Proofs.Pipeline.Source
import Stencil.Proofs.Token.Segments

namespace Stencil

open Disk Walk

variable {c : Config} {values : Values} {now : Timestamp} {d d₂ : Disk}
  {source top root root₂ t x : Location} {xs ts : List Location} {built made rendered : List Product}
  {e : Entry} {mode : Mode} {content : Bytes} {relative : String} {steps : List Name}

/-! ## Names -/

/-- The names in a project of what has some names in the template. -/
def Config.renderNames (c : Config) (values : Values) (names : List Name) : List Name :=
  names.flatMap (c.delimiters.renderName values)

theorem names_render (hfree : c.delimiters.Free values Bytes.slash) (text : String) :
    (Path.ofString (c.delimiters.render values text)).names =
      c.renderNames values (Path.ofString text).names := by
  rw [Path.ofString, Delimiters.ofString_render]
  exact Delimiters.names_renderPath hfree (Bytes.ofString text)

/-- Made at once, an entry has the names of its place in the template, rendered. -/
theorem names_scaffoldRecipe (hfree : c.delimiters.Free values Bytes.slash) (relative : String) :
    (c.scaffoldRecipe c.rules values).names relative =
      c.renderNames values (c.recipe.names relative) :=
  names_render hfree _

/-- From the template, an entry has the names of its path there, rendered. -/
theorem names_projectRecipe (hfree : c.delimiters.Free values Bytes.slash) (relative : String) :
    (c.projectRecipe values).names relative =
      c.renderNames values (Path.ofString relative).names :=
  names_render hfree _

/-- The path of a place in the template spells the names of the place, since these are texts. -/
theorem relativePath_of_isPrefix (htop : IsDescent top) (hnames : IsDescent (c.recipe.names relative))
    (hsteps : steps <+: c.recipe.names relative) : ∃ relative',
      relativePath (pathOf top) (pathOf (top ++ steps)) = .ok relative' ∧
      (Path.ofString relative').names = steps := by
  have hdescent : IsDescent steps := fun n hn => hnames n (hsteps.subset hn)
  have htext : ∀ n ∈ steps, Path.IsText n := by
    intro n hn
    exact Path.isText_of_mem_pieces (List.mem_of_mem_filter (hsteps.subset hn))
  obtain ⟨relative', hrelative, hspelled⟩ := relativePath_eq htop hdescent htext
  exact ⟨relative', hrelative, names_of_ofString_eq hdescent hspelled⟩

/-! ## What lies in a template -/

section Template

variable (hbuilt : c.recipe.products? d source top xs = some built)
  (htemplate : ∀ t, top <+: t →
    d₂.get? t = image top (built ++ [Build.description c now top built]) t)
  (hbelow : top <+: t) (hne : t ≠ top) (hother : t ≠ top ++ [Bytes.ofString Defaults.metadataFile])

include htemplate hbelow hne hother

/-- Beside its description, a template holds what the entries of the source tree become. -/
theorem get?_template : d₂.get? t = image top built t := by
  rw [htemplate t hbelow]
  refine image_eq (Build.fileAt?_description hother) (or_congr_right ?_)
  constructor
  · rintro ⟨p, hp, hbelow'⟩
    rcases List.mem_append.mp hp with hp | hp
    · exact ⟨p, hp, hbelow'⟩
    · -- the description lies in the template itself
      obtain rfl := List.mem_singleton.mp hp
      rcases List.prefix_concat_iff.mp hbelow' with heq | habove
      · exact absurd heq hother
      · exact absurd (habove.eq_of_length_le hbelow.length_le) hne
  · rintro ⟨p, hp, hbelow'⟩
    exact ⟨p, List.mem_append_left _ hp, hbelow'⟩

include hbuilt

/-- A file of the template comes of a file of the source tree. -/
theorem exists_file_of_template (htop : IsDescent top)
    (hseparates : c.recipe.Separates source top (xs.filter fun x => !isDirectoryAt d.table x))
    (hfile : d₂.get? t = some (.file mode content)) : ∃ x ∈ xs, ∃ relative before,
      d.get? x = some (.file mode before) ∧
      relativePath (pathOf source) (pathOf x) = .ok relative ∧
      t = top ++ c.recipe.names relative ∧ content = c.recipe.bytes relative before := by
  rw [get?_template htemplate hbelow hne hother] at hfile
  obtain ⟨steps, rfl⟩ := hbelow
  obtain ⟨x, hx, relative, mode', before, hbefore, hrelative, rfl, hentry⟩ :=
    (Recipe.fileAt?_append_eq_some_iff htop hbuilt hseparates).mp (fileAt?_of_image hfile)
  cases hentry
  exact ⟨x, hx, relative, before, hbefore, hrelative, rfl, rfl⟩

/-- Whatever lies in the template, an entry of the source tree goes there or below. -/
theorem exists_entry_of_template (htop : IsDescent top) (he : d₂.get? t = some e) :
    ∃ x ∈ xs, ∃ relative steps, relativePath (pathOf source) (pathOf x) = .ok relative ∧
      t = top ++ steps ∧ steps <+: c.recipe.names relative := by
  rw [get?_template htemplate hbelow hne hother] at he
  obtain ⟨steps, rfl⟩ := hbelow
  have hthere : ∃ p ∈ built, top ++ steps <+: p.location :=
    (exists_image_iff.mp ⟨e, he⟩).resolve_left hne
  obtain ⟨x, hx, relative, hrelative, hsteps⟩ := (Recipe.exists_below_iff htop hbuilt).mp hthere
  exact ⟨x, hx, relative, steps, hrelative, rfl, hsteps⟩

end Template

/-! ## The two projects -/

/-- Each file has one class: it is copied as it is by its path and its bytes in the source tree, if and
    only if it is by its path in the template and the bytes that it has there. -/
def Config.KeepsClasses (c : Config) (d : Disk) (source top : Location) (xs : List Location) : Prop :=
  ∀ x ∈ xs, ∀ mode content relative t relative', d.get? x = some (.file mode content) →
    relativePath (pathOf source) (pathOf x) = .ok relative → c.recipe.target? source top x = some t →
    relativePath (pathOf top) (pathOf t) = .ok relative' →
    c.recipe.isRaw relative content = c.recipe.isRaw relative' (c.recipe.bytes relative content)

/-- A file of one class holds the same on both ways. -/
theorem bytes_agree {relative' : String} (hclass : c.recipe.isRaw relative content =
      c.recipe.isRaw relative' (c.recipe.bytes relative content)) :
    (c.scaffoldRecipe c.rules values).bytes relative content =
      (c.projectRecipe values).bytes relative' (c.recipe.bytes relative content) := by
  -- all recipes of a configuration have the same patterns
  have hglobs : (c.scaffoldRecipe c.rules values).globs = c.recipe.globs := rfl
  have hglobs' : (c.projectRecipe values).globs = c.recipe.globs := rfl
  rw [Recipe.bytes, Recipe.bytes, Recipe.isRaw_congr hglobs, Recipe.isRaw_congr hglobs', ← hclass]
  cases hraw : c.recipe.isRaw relative content with
  | true =>
    have hcopied : c.recipe.bytes relative content = content := if_pos hraw
    rw [if_pos rfl, if_pos rfl, hcopied]
  | false =>
    have hreplaced : c.recipe.bytes relative content =
        applyReplacements c.rules.replacements content := if_neg (by simp [hraw])
    rw [if_neg Bool.false_ne_true, if_neg Bool.false_ne_true, hreplaced]
    rfl

section Projects

variable (hfree : c.delimiters.Free values Bytes.slash) (htop : IsDescent top) (hroot : IsDescent root)
  (hroot₂ : IsDescent root₂)
  (hbuilt : c.recipe.products? d source top xs = some built)
  (hmade : (c.scaffoldRecipe c.rules values).products? d source root xs = some made)
  (hrendered : (c.projectRecipe values).products? d₂ top root₂ ts = some rendered)
  (htemplate : ∀ t, top <+: t →
    d₂.get? t = image top (built ++ [Build.description c now top built]) t)
  (hrooted : isDirectoryAt d₂.table top = true)
  (hvisited : ∀ t, t ∈ ts ↔ top <+: t ∧ t ≠ top ∧
    t ≠ top ++ [Bytes.ofString Defaults.metadataFile] ∧ ∃ e, d₂.get? t = some e)
  (hseparates : (c.scaffoldRecipe c.rules values).Separates source root
    (xs.filter fun x => !isDirectoryAt d.table x))
  (hother : ∀ x ∈ xs, c.recipe.target? source top x ≠
    some (top ++ [Bytes.ofString Defaults.metadataFile]))
  (hclass : c.KeepsClasses d source top xs)

include hfree htop hroot hbuilt hmade hseparates

/-- Files that go to different places in the project do so in the template. -/
theorem separates_recipe :
    c.recipe.Separates source top (xs.filter fun x => !isDirectoryAt d.table x) := by
  intro x hx y hy heq
  refine hseparates x hx y hy ?_
  have hx' := (List.mem_filter.mp hx).1
  have hy' := (List.mem_filter.mp hy).1
  obtain ⟨r, hr, -, hxt⟩ := Recipe.exists_target? htop hbuilt hx'
  obtain ⟨r', hr', -, hxr⟩ := Recipe.exists_target? hroot hmade hx'
  obtain ⟨q, hq, -, hyt⟩ := Recipe.exists_target? htop hbuilt hy'
  obtain ⟨q', hq', -, hyr⟩ := Recipe.exists_target? hroot hmade hy'
  obtain rfl := Except.ok.inj (hr.symm.trans hr')
  obtain rfl := Except.ok.inj (hq.symm.trans hq')
  rw [hxt, hyt, Option.some.injEq, List.append_cancel_left_eq] at heq
  rw [hxr, hyr, names_scaffoldRecipe hfree, names_scaffoldRecipe hfree, heq]

include htemplate hvisited

/-- A file that is visited in the template, and the file of the source tree that it comes of. -/
theorem exists_source_of_visited (ht : t ∈ ts) (hfile : d₂.get? t = some (.file mode content)) :
    ∃ x ∈ xs, ∃ relative before relative', d.get? x = some (.file mode before) ∧
      relativePath (pathOf source) (pathOf x) = .ok relative ∧
      c.recipe.target? source top x = some t ∧ t = top ++ c.recipe.names relative ∧
      content = c.recipe.bytes relative before ∧
      relativePath (pathOf top) (pathOf t) = .ok relative' ∧
      (c.projectRecipe values).names relative' =
        (c.scaffoldRecipe c.rules values).names relative := by
  obtain ⟨hbelow, hne, hother, -⟩ := (hvisited t).mp ht
  obtain ⟨x, hx, relative, before, hbefore, hrelative, rfl, hcontent⟩ :=
    exists_file_of_template hbuilt htemplate hbelow hne hother htop
      (separates_recipe hfree htop hroot hbuilt hmade hseparates) hfile
  obtain ⟨relative₁, hrelative₁, hnames, htarget⟩ := Recipe.exists_target? htop hbuilt hx
  obtain rfl := Except.ok.inj (hrelative.symm.trans hrelative₁)
  obtain ⟨relative', hrelative', hspelled⟩ :=
    relativePath_of_isPrefix htop hnames (List.prefix_refl _)
  refine ⟨x, hx, relative, before, relative', hbefore, hrelative, htarget, rfl, hcontent, hrelative', ?_⟩
  rw [names_projectRecipe hfree, names_scaffoldRecipe hfree, hspelled]

include hroot₂ hrendered

/-- Files that go to different places when the project is made at once do so from the template. -/
theorem separates_projectRecipe : (c.projectRecipe values).Separates top root₂
    (ts.filter fun t => !isDirectoryAt d₂.table t) := by
  have hfiles : ∀ t ∈ ts.filter (fun t => !isDirectoryAt d₂.table t),
      ∃ mode content, d₂.get? t = some (.file mode content) := by
    intro t ht
    obtain ⟨hvisit, hkind⟩ := List.mem_filter.mp ht
    obtain ⟨hbelow, -, -, e, he⟩ := (hvisited t).mp hvisit
    cases e with
    | file mode content => exact ⟨mode, content, he⟩
    | directory mode =>
      rw [isDirectoryAt_of_get? he] at hkind
      cases hkind
    | link target =>
      rw [htemplate t hbelow] at he
      exact absurd he (image_ne_link target)
  intro t ht t' ht' heq
  obtain ⟨mode, content, hfile⟩ := hfiles t ht
  obtain ⟨mode', content', hfile'⟩ := hfiles t' ht'
  have hvisit := (List.mem_filter.mp ht).1
  have hvisit' := (List.mem_filter.mp ht').1
  obtain ⟨x, hx, r, before, p, hbefore, hr, -, rfl, -, hp, hnames⟩ :=
    exists_source_of_visited hfree htop hroot hbuilt hmade htemplate hvisited hseparates hvisit hfile
  obtain ⟨x', hx', r', before', p', hbefore', hr', -, rfl, -, hp', hnames'⟩ :=
    exists_source_of_visited hfree htop hroot hbuilt hmade htemplate hvisited hseparates hvisit' hfile'
  -- the two come of one file, since that is so of files that go to one place at once
  obtain ⟨p₁, hp₁, -, htarget⟩ := Recipe.exists_target? hroot₂ hrendered hvisit
  obtain ⟨p₁', hp₁', -, htarget'⟩ := Recipe.exists_target? hroot₂ hrendered hvisit'
  obtain rfl := Except.ok.inj (hp.symm.trans hp₁)
  obtain rfl := Except.ok.inj (hp'.symm.trans hp₁')
  rw [htarget, htarget', Option.some.injEq, List.append_cancel_left_eq, hnames, hnames'] at heq
  obtain ⟨r₁, hr₁, -, hplace⟩ := Recipe.exists_target? hroot hmade hx
  obtain ⟨r₁', hr₁', -, hplace'⟩ := Recipe.exists_target? hroot hmade hx'
  obtain rfl := Except.ok.inj (hr.symm.trans hr₁)
  obtain rfl := Except.ok.inj (hr'.symm.trans hr₁')
  have hsame : x = x' := by
    refine hseparates x (List.mem_filter.mpr ⟨hx, ?_⟩) x' (List.mem_filter.mpr ⟨hx', ?_⟩) ?_
    · rw [isDirectoryAt_of_get? hbefore]
      rfl
    · rw [isDirectoryAt_of_get? hbefore']
      rfl
    · rw [hplace, hplace', heq]
  subst hsame
  obtain rfl := Except.ok.inj (hr.symm.trans hr')
  rfl

include hrooted hother hclass

/-- **The files agree.** -/
theorem fileAt?_agrees (names : List Name) :
    Product.fileAt? made (root ++ names) = Product.fileAt? rendered (root₂ ++ names) := by
  have hseparates' := separates_recipe hfree htop hroot hbuilt hmade hseparates
  refine Option.ext fun e => ?_
  rw [Recipe.fileAt?_append_eq_some_iff hroot hmade hseparates,
    Recipe.fileAt?_append_eq_some_iff hroot₂ hrendered (separates_projectRecipe hfree htop hroot hroot₂
      hbuilt hmade hrendered htemplate hvisited hseparates)]
  constructor
  · rintro ⟨x, hx, relative, mode, content, hfile, hrelative, rfl, rfl⟩
    obtain ⟨relative₁, hrelative₁, hnames, htarget⟩ := Recipe.exists_target? htop hbuilt hx
    obtain rfl := Except.ok.inj (hrelative.symm.trans hrelative₁)
    -- the file is found in the template, and visited there
    have hnot : top ++ c.recipe.names relative ≠ top ++ [Bytes.ofString Defaults.metadataFile] :=
      fun heq => hother x hx (htarget.trans (congrArg some heq))
    have hthere : d₂.get? (top ++ c.recipe.names relative) =
        some (.file mode (c.recipe.bytes relative content)) := by
      rw [htemplate _ (List.prefix_append top _)]
      refine image_of_fileAt? ((Build.fileAt?_description hnot).trans ?_)
      exact (Recipe.fileAt?_append_eq_some_iff htop hbuilt hseparates').mpr
        ⟨x, hx, relative, mode, content, hfile, hrelative, rfl, rfl⟩
    have hne : top ++ c.recipe.names relative ≠ top := by
      intro heq
      obtain ⟨mode', hmode⟩ := isDirectoryAt_iff.mp hrooted
      rw [heq, hmode] at hthere
      cases hthere
    obtain ⟨relative', hrelative', hspelled⟩ :=
      relativePath_of_isPrefix htop hnames (List.prefix_refl _)
    refine ⟨top ++ c.recipe.names relative,
      (hvisited _).mpr ⟨List.prefix_append top _, hne, hnot, _, hthere⟩, relative', mode, _, hthere,
      hrelative', ?_, ?_⟩
    · rw [names_projectRecipe hfree, names_scaffoldRecipe hfree, hspelled]
    · rw [bytes_agree (hclass x hx mode content relative _ relative' hfile hrelative htarget hrelative')]
  · rintro ⟨t, ht, relative', mode, content, hfile, hrelative', rfl, rfl⟩
    obtain ⟨x, hx, relative, before, p, hbefore, hrelative, htarget, -, rfl, hp, hnames⟩ :=
      exists_source_of_visited hfree htop hroot hbuilt hmade htemplate hvisited hseparates ht hfile
    obtain rfl := Except.ok.inj (hrelative'.symm.trans hp)
    refine ⟨x, hx, relative, mode, before, hbefore, hrelative, hnames.symm, ?_⟩
    rw [bytes_agree (hclass x hx mode before relative t relative' hbefore hrelative htarget hrelative')]

omit hseparates hclass hrooted

/-- **The directories agree.** -/
theorem exists_below_agrees {names : List Name} (hne : names ≠ []) :
    (∃ p ∈ made, root ++ names <+: p.location) ↔ ∃ p ∈ rendered, root₂ ++ names <+: p.location := by
  rw [Recipe.exists_below_iff hroot hmade, Recipe.exists_below_iff hroot₂ hrendered]
  constructor
  · rintro ⟨x, hx, relative, hrelative, hbelow⟩
    rw [names_scaffoldRecipe hfree] at hbelow
    obtain ⟨relative₁, hrelative₁, hnames, htarget⟩ := Recipe.exists_target? htop hbuilt hx
    obtain rfl := Except.ok.inj (hrelative.symm.trans hrelative₁)
    have hnot : top ++ c.recipe.names relative ≠ top ++ [Bytes.ofString Defaults.metadataFile] :=
      fun heq => hother x hx (htarget.trans (congrArg some heq))
    have hinside : top ++ c.recipe.names relative ≠ top := by
      intro heq
      rw [List.append_right_eq_self.mp heq] at hbelow
      exact hne (List.prefix_nil.mp hbelow)
    -- the entry has its place in the template, and that is visited
    have hthere : ∃ e, d₂.get? (top ++ c.recipe.names relative) = some e := by
      rw [get?_template htemplate (List.prefix_append top _) hinside hnot]
      exact exists_image_iff.mpr (.inr ((Recipe.exists_below_iff htop hbuilt).mpr
        ⟨x, hx, relative, hrelative, List.prefix_refl _⟩))
    obtain ⟨relative', hrelative', hspelled⟩ :=
      relativePath_of_isPrefix htop hnames (List.prefix_refl _)
    refine ⟨top ++ c.recipe.names relative,
      (hvisited _).mpr ⟨List.prefix_append top _, hinside, hnot, hthere⟩, relative', hrelative', ?_⟩
    rw [names_projectRecipe hfree, hspelled]
    exact hbelow
  · rintro ⟨t, ht, relative', hrelative', hbelow⟩
    obtain ⟨htbelow, htne, htother, e, he⟩ := (hvisited t).mp ht
    obtain ⟨x, hx, relative, steps, hrelative, rfl, hsteps⟩ :=
      exists_entry_of_template hbuilt htemplate htbelow htne htother htop he
    obtain ⟨relative₁, hrelative₁, hnames, -⟩ := Recipe.exists_target? htop hbuilt hx
    obtain rfl := Except.ok.inj (hrelative.symm.trans hrelative₁)
    obtain ⟨p, hp, hspelled⟩ := relativePath_of_isPrefix htop hnames hsteps
    obtain rfl := Except.ok.inj (hrelative'.symm.trans hp)
    refine ⟨x, hx, relative, hrelative, ?_⟩
    rw [names_projectRecipe hfree, hspelled] at hbelow
    rw [names_scaffoldRecipe hfree]
    exact hbelow.trans (hsteps.flatMap _)

include hseparates hclass hrooted

/-- **The projects agree.** -/
theorem image_agrees (names : List Name) :
    image root made (root ++ names) = image root₂ rendered (root₂ ++ names) := by
  refine image_eq (fileAt?_agrees hfree htop hroot hroot₂ hbuilt hmade hrendered htemplate hrooted
    hvisited hseparates hother hclass names) ?_
  by_cases hne : names = []
  · simp [hne]
  · rw [exists_below_agrees hfree htop hroot hroot₂ hbuilt hmade hrendered htemplate hvisited hother
      hne]
    simp [hne]

end Projects

/-! ## The two runs -/

/-- What a generation visits of a template: all but the description. -/
theorem mem_visited_iff {p : Path} {w : World} (hroot : w.disk.Fresh top p root)
    (hmade : w.disk.makeDirectories p = (d, .ok ()))
    (hdescription : w.disk.get? (top ++ [Bytes.ofString Defaults.metadataFile]) =
      some (.file mode content)) :
    t ∈ Generate.visited d top root ↔ top <+: t ∧ t ≠ top ∧
      t ≠ top ++ [Bytes.ofString Defaults.metadataFile] ∧ ∃ e, d.get? t = some e := by
  constructor
  · intro ht
    obtain ⟨hadmitted, hthere⟩ := mem_tour.mp ht
    have hself := hadmitted.self
    rw [Generate.admits, Bool.and_eq_true, bne_iff_ne] at hself
    exact ⟨hadmitted.below, hadmitted.ne, hself.1, hthere⟩
  · rintro ⟨hbelow, hne, hother, e, he⟩
    have hbefore : w.disk.get? t = some e := by rw [← hroot.get?_eq hmade hbelow, he]
    have hvisited :=
      Generate.mem_visited_of_get? hdescription hroot.free hbefore hbelow hne hother
    exact mem_tour.mpr ⟨(mem_tour.mp hvisited).1, e, he⟩

/-- What the template and the project from it come of, on a disk `d` with the source tree and on a disk
    `d₂` with the template. -/
structure Passage (c : Config) (values : Values) (now : Timestamp) (d d₂ : Disk)
    (source top root : Location) (built rendered : List Product) : Prop where
  fromSource : c.recipe.products? d source top (c.entries d source) = some built
  template : ∀ t, top <+: t → d₂.get? t = image top (built ++ [Build.description c now top built]) t
  rooted : isDirectoryAt d₂.table top = true
  visited : ∀ t, t ∈ Generate.visited d₂ top root ↔ top <+: t ∧ t ≠ top ∧
    t ≠ top ++ [Bytes.ofString Defaults.metadataFile] ∧ ∃ e, d₂.get? t = some e
  fromTemplate : (c.projectRecipe values).products? d₂ top root (Generate.visited d₂ top root) =
    some rendered

/-- **The way through a template**, where both roots are new. -/
theorem Config.Finds.exists_passage {template template' output p path : Path}
    {resolver : Variables → Resolution} {config : Option Path} {report : GenerateReport}
    {buildReport : BuildReport} {w w₁ w₂ : World} (hsource : c.Finds w.disk source)
    (hp : w.disk.absolute template = .ok p) (htop : w.disk.Fresh source p top)
    (hbuild : (buildTemplate c template now).run w = .ok buildReport w₁)
    (hfound : w₁.disk.find true template' = .ok top)
    (hvalues : (resolver c.declared).result = .ok values)
    (hpath : (w₁.disk.absolute output).map (projectOutput · values) = .ok path)
    (hroot : w₁.disk.Fresh top path root)
    (hgenerate : (generate template' output resolver config).run w₁ = .ok report w₂) :
    ∃ built rendered d₂, ∃ ww : World, Passage c values now w.disk d₂ source top root built rendered ∧
      Filled root rendered d₂ ww.disk ∧
      ∀ x, copiedTo root config ≠ some x → w₂.disk.get? x = ww.disk.get? x := by
  obtain ⟨built, hbuilt, d₀, hfilled⟩ := hsource.products_of_build hp htop hbuild
  obtain ⟨mode, hsaved⟩ := Build.get?_description hfilled
  have hunlinked : ∀ y target, top <+: y → w₁.disk.get? y ≠ some (.link target) := by
    intro y target hy
    rw [hfilled.inside y hy]
    exact image_ne_link target
  obtain ⟨d₂, ww, hmade, hfoundRoot, hproducts, hcopied⟩ :=
    Generate.products_of_generate hfound hunlinked hsaved hvalues hpath hroot.toAimsAtFree hgenerate
  obtain ⟨rendered, hrendered, hfilled₂⟩ := hproducts [] (hroot.filled hmade hfoundRoot)
  obtain ⟨mode', hmode⟩ := isDirectoryAt_iff.mp hfilled.rooted
  -- the template is as the build has left it when the generation walks through it
  refine ⟨built, rendered, d₂, ww,
    ⟨hbuilt, fun t ht => ?_, ?_, fun t => mem_visited_iff hroot hmade hsaved, hrendered⟩, hfilled₂,
    hcopied⟩
  · exact (hroot.get?_eq hmade ht).trans (hfilled.inside t ht)
  · exact isDirectoryAt_iff.mpr ⟨mode', (hroot.get?_eq hmade (List.prefix_refl top)).trans hmode⟩

/-- **A project is the same, be it made at once or by way of a template**, where no rules are derived, no
    token spans two names, all roots are new and lie apart, and each file has a place and a class of its
    own. -/
theorem scaffold_agrees {template template' output output₂ p path path₂ : Path}
    {resolver resolver₂ : Variables → Resolution} {config config₂ : Option Path}
    {report report₂ : GenerateReport} {built : BuildReport} {w w₁ w₂ w₃ : World}
    (hsource : c.Finds w.disk source) (hrules : c.rules.IsSorted)
    (hfree : c.delimiters.Free values Bytes.slash)
    (hvalues : (resolver c.declared).result = .ok values)
    (hpath : (w.disk.absolute output).map (projectOutput · values) = .ok path)
    (hname : Generate.lastName (pathOf source) = Generate.lastName path)
    (hroot : w.disk.Fresh source path root)
    (hroots : ∀ s, w.disk.AimsAt c.templateRoot s → Apart s source)
    (hscaffold : (scaffold c output resolver config).run w = .ok report w₁)
    (hp : w.disk.absolute template = .ok p) (htop : w.disk.Fresh source p top)
    (hbuild : (buildTemplate c template now).run w = .ok built w₂)
    (hfound : w₂.disk.find true template' = .ok top)
    (hvalues₂ : (resolver₂ c.declared).result = .ok values)
    (hpath₂ : (w₂.disk.absolute output₂).map (projectOutput · values) = .ok path₂)
    (hroot₂ : w₂.disk.Fresh top path₂ root₂)
    (hgenerate : (generate template' output₂ resolver₂ config₂).run w₂ = .ok report₂ w₃)
    (hseparates : (c.scaffoldRecipe c.rules values).Separates source root
      ((c.entries w.disk source).filter fun x => !isDirectoryAt w.disk.table x))
    (hother : ∀ x ∈ c.entries w.disk source, c.recipe.target? source top x ≠
      some (top ++ [Bytes.ofString Defaults.metadataFile]))
    (hclass : c.KeepsClasses w.disk source top (c.entries w.disk source))
    (names : List Name) (hnot : copiedTo root config ≠ some (root ++ names))
    (hnot₂ : copiedTo root₂ config₂ ≠ some (root₂ ++ names)) :
    w₁.disk.get? (root ++ names) = w₃.disk.get? (root₂ ++ names) := by
  obtain ⟨made, hmade, d₁, ww₁, hfilled₁, hcopied₁⟩ :=
    hsource.products_of_scaffold hrules hvalues hpath hname hroot hroots hscaffold
  obtain ⟨templated, rendered, d₂, ww₂, hpassage, hfilled₂, hcopied₂⟩ :=
    hsource.exists_passage hp htop hbuild hfound hvalues₂ hpath₂ hroot₂ hgenerate
  rw [hcopied₁ _ hnot, hcopied₂ _ hnot₂, hfilled₁.inside _ (List.prefix_append root names),
    hfilled₂.inside _ (List.prefix_append root₂ names)]
  exact image_agrees hfree (isDescent_of_isDirectoryAt hpassage.rooted)
    (isDescent_of_isDirectoryAt hfilled₁.rooted) (isDescent_of_isDirectoryAt hfilled₂.rooted)
    hpassage.fromSource hmade hpassage.fromTemplate hpassage.template hpassage.rooted hpassage.visited
    hseparates hother hclass names

theorem spells_namesake :
    (Path.ofString "/o/s").Spells [Bytes.ofString "o", Bytes.ofString "s"] :=
  ⟨by decide +kernel, by decide +kernel, by decide +kernel⟩

/-- A source tree with one text in it. -/
def lettered : Disk :=
  (empty.put [Bytes.ofString "s"] (.directory Entry.directoryMode)).put
    [Bytes.ofString "s", Bytes.ofString "a.txt"] (.file 0o600 (Bytes.ofString "old"))

/-- A configuration by which a token comes into the name and into the bytes of the text. -/
def letterRenamed : Config where
  sourceRoot := .ofString "/s"
  templateRoot := .ofString "/t"
  rules := { replacements := [⟨"old", "\x7b\x7bN\x7d\x7d"⟩],
             renames := [⟨"a.txt", "\x7b\x7bN\x7d\x7d.txt"⟩] }

theorem isLinkless_lettered : lettered.IsLinkless := isLinkless_of_all (by decide +kernel)

theorem fresh_lettered :
    lettered.Fresh [Bytes.ofString "s"] (.ofString "/t") [Bytes.ofString "t"] :=
  .of_spells spells_template (isLinkless_lettered.isPlain _) (by decide +kernel) (by decide +kernel)

/-- The text on its ways, straight into a project and through a template; it is a text on both. -/
structure LetterRuns (w₁ w₂ w₃ : World) : Prop where
  scaffolded : (scaffold letterRenamed (.ofString "/o/s") (fun _ => ⟨.ok pictureValues, []⟩) none).run
    ⟨lettered, []⟩ = .ok ⟨.ofString "/o/s", 1, 0⟩ w₁
  built : (buildTemplate letterRenamed (.ofString "/t") default).run ⟨lettered, []⟩ =
    .ok ⟨1, 1, 0⟩ w₂
  generated : (generate (.ofString "/t") (.ofString "/o") (fun _ => ⟨.ok pictureValues, []⟩) none).run
    w₂ = .ok ⟨.ofString "/o", 1, 0⟩ w₃
  found : lettered.reach letterRenamed.sourceRoot = .ok [Bytes.ofString "s"]
  entries : letterRenamed.entries lettered [Bytes.ofString "s"] =
    [[Bytes.ofString "s", Bytes.ofString "a.txt"]]
  target : letterRenamed.recipe.target? [Bytes.ofString "s"] [Bytes.ofString "t"]
    [Bytes.ofString "s", Bytes.ofString "a.txt"] =
      some [Bytes.ofString "t", Bytes.ofString "\x7b\x7bN\x7d\x7d.txt"]
  classes : letterRenamed.recipe.isRaw "a.txt" (Bytes.ofString "old") =
    letterRenamed.recipe.isRaw "\x7b\x7bN\x7d\x7d.txt"
      (letterRenamed.recipe.bytes "a.txt" (Bytes.ofString "old"))
  templateFound : w₂.disk.find true (.ofString "/t") = .ok [Bytes.ofString "t"]
  projectNamed : (w₂.disk.absolute (.ofString "/o")).map (projectOutput · pictureValues) =
    .ok (.ofString "/o")
  projectFresh : w₂.disk.Fresh [Bytes.ofString "t"] (.ofString "/o") [Bytes.ofString "o"]
  written : w₁.disk.get? [Bytes.ofString "o", Bytes.ofString "s", Bytes.ofString "v.txt"] =
    some (.file 0o600 (Bytes.ofString "v"))

theorem exists_letterRuns : ∃ w₁ w₂ w₃, LetterRuns w₁ w₂ w₃ := by
  -- all that is evaluated, at once: the parts have much of the work in common
  have hevaluated :
      ((scaffold letterRenamed (.ofString "/o/s") (fun _ => ⟨.ok pictureValues, []⟩) none).observe
        fun d => d.get? [Bytes.ofString "o", Bytes.ofString "s", Bytes.ofString "v.txt"]).answer?
          ⟨lettered, []⟩ = some (⟨.ofString "/o/s", 1, 0⟩, some (.file 0o600 (Bytes.ofString "v"))) ∧
      ((buildTemplate letterRenamed (.ofString "/t") default).observeBoth
        (fun d => (Generate.awaits (.ofString "/t") (.ofString "/o") (.ofString "/o") pictureValues
          [Bytes.ofString "t"] [Bytes.ofString "o"] d, ()))
        (Generate.generateBy (Metadata.ofConfig letterRenamed default) (.ofString "/t") (.ofString "/o")
          (fun _ => ⟨.ok pictureValues, []⟩) none) fun _ => ()).answer?
          ⟨lettered, []⟩ = some ((⟨1, 1, 0⟩, (true, ())), (⟨.ofString "/o", 1, 0⟩, ())) ∧
      lettered.reach letterRenamed.sourceRoot = .ok [Bytes.ofString "s"] ∧
      lettered.absolute (.ofString "/t") = .ok (.ofString "/t") ∧
      letterRenamed.entries lettered [Bytes.ofString "s"] =
        [[Bytes.ofString "s", Bytes.ofString "a.txt"]] ∧
      letterRenamed.recipe.target? [Bytes.ofString "s"] [Bytes.ofString "t"]
        [Bytes.ofString "s", Bytes.ofString "a.txt"] =
          some [Bytes.ofString "t", Bytes.ofString "\x7b\x7bN\x7d\x7d.txt"] ∧
      letterRenamed.recipe.isRaw "a.txt" (Bytes.ofString "old") =
        letterRenamed.recipe.isRaw "\x7b\x7bN\x7d\x7d.txt"
          (letterRenamed.recipe.bytes "a.txt" (Bytes.ofString "old")) ∧
      Timestamp.read? (default : Timestamp).toText = some default := by
    decide +kernel
  obtain ⟨hscaffolded, hruns, hfound, habsolute, hentries, htarget, hclasses, htime⟩ := hevaluated
  obtain ⟨w₁, hobserved⟩ := Task.exists_run_of_answer? hscaffolded
  obtain ⟨hscaffold, hwritten⟩ := Task.observe_eq_ok hobserved
  obtain ⟨w₂, w₃, hbuild, -, htemplate, hpath, hroot, hgenerate, -⟩ :=
    Generate.exists_runs_of_awaits hfound habsolute fresh_lettered.toAimsAtFree htime spells_project
      (by decide +kernel) hruns
  exact ⟨w₁, w₂, w₃, hscaffold, hbuild, hgenerate, hfound, hentries, htarget, hclasses, htemplate,
    hpath, hroot, hwritten⟩

/-- The text with its token replaced, on both ways. -/
theorem scaffold_agrees_lettered :
    ∃ w₁ w₂ w₃, (scaffold letterRenamed (.ofString "/o/s") (fun _ => ⟨.ok pictureValues, []⟩) none).run
        ⟨lettered, []⟩ = .ok ⟨.ofString "/o/s", 1, 0⟩ w₁ ∧
      (buildTemplate letterRenamed (.ofString "/t") default).run ⟨lettered, []⟩ = .ok ⟨1, 1, 0⟩ w₂ ∧
      (generate (.ofString "/t") (.ofString "/o") (fun _ => ⟨.ok pictureValues, []⟩) none).run w₂ =
        .ok ⟨.ofString "/o", 1, 0⟩ w₃ ∧
      w₁.disk.get? [Bytes.ofString "o", Bytes.ofString "s", Bytes.ofString "v.txt"] =
        some (.file 0o600 (Bytes.ofString "v")) ∧
      ∀ names, w₁.disk.get? ([Bytes.ofString "o", Bytes.ofString "s"] ++ names) =
        w₃.disk.get? ([Bytes.ofString "o"] ++ names) := by
  obtain ⟨w₁, w₂, w₃, h⟩ := exists_letterRuns
  have hfinds : letterRenamed.Finds lettered [Bytes.ofString "s"] :=
    ⟨h.found, fun x target _ => isLinkless_lettered x target⟩
  have hsorted : letterRenamed.rules.IsSorted := ⟨List.pairwise_singleton .., List.pairwise_singleton ..⟩
  have hfree : letterRenamed.delimiters.Free pictureValues Bytes.slash :=
    ⟨by decide +kernel, by decide +kernel, by decide +kernel⟩
  -- the roots
  have hroot : lettered.Fresh [Bytes.ofString "s"] (.ofString "/o/s")
      [Bytes.ofString "o", Bytes.ofString "s"] :=
    .of_spells spells_namesake (isLinkless_lettered.isPlain _) (by decide +kernel) (by decide +kernel)
  have hroots : ∀ s, lettered.AimsAt letterRenamed.templateRoot s → Apart s [Bytes.ofString "s"] := by
    intro s hs
    rw [hs.unique fresh_lettered.aims]
    exact ⟨by decide +kernel, by decide +kernel⟩
  have habsolute : lettered.absolute (.ofString "/t") = .ok (.ofString "/t") := by decide +kernel
  have hpath : (lettered.absolute (.ofString "/o/s")).map (projectOutput · pictureValues) =
      .ok (.ofString "/o/s") := by decide +kernel
  -- the text alone
  have halone : ∀ x ∈ letterRenamed.entries lettered [Bytes.ofString "s"],
      x = [Bytes.ofString "s", Bytes.ofString "a.txt"] := by
    rw [h.entries]
    exact fun x hx => List.mem_singleton.mp hx
  have hseparates : (letterRenamed.scaffoldRecipe letterRenamed.rules pictureValues).Separates
      [Bytes.ofString "s"] [Bytes.ofString "o", Bytes.ofString "s"]
      ((letterRenamed.entries lettered [Bytes.ofString "s"]).filter
        fun x => !isDirectoryAt lettered.table x) :=
    Recipe.separates_of_alone fun x hx => halone x (List.mem_of_mem_filter hx)
  have hother : ∀ x ∈ letterRenamed.entries lettered [Bytes.ofString "s"],
      letterRenamed.recipe.target? [Bytes.ofString "s"] [Bytes.ofString "t"] x ≠
        some ([Bytes.ofString "t"] ++ [Bytes.ofString Defaults.metadataFile]) := by
    intro x hx
    rw [halone x hx, h.target]
    decide +kernel
  have hclass : letterRenamed.KeepsClasses lettered [Bytes.ofString "s"] [Bytes.ofString "t"]
      (letterRenamed.entries lettered [Bytes.ofString "s"]) := by
    intro x hx mode content relative t relative' hfile hrelative htarget hrelative'
    obtain rfl := halone x hx
    have hfile₁ : lettered.get? [Bytes.ofString "s", Bytes.ofString "a.txt"] =
        some (.file 0o600 (Bytes.ofString "old")) := by decide +kernel
    have hrelative₁ : relativePath (pathOf [Bytes.ofString "s"])
        (pathOf [Bytes.ofString "s", Bytes.ofString "a.txt"]) = .ok "a.txt" := by decide +kernel
    have hrelative₂ : relativePath (pathOf [Bytes.ofString "t"])
        (pathOf [Bytes.ofString "t", Bytes.ofString "\x7b\x7bN\x7d\x7d.txt"]) =
          .ok "\x7b\x7bN\x7d\x7d.txt" := by decide +kernel
    cases hfile₁.symm.trans hfile
    obtain rfl := Except.ok.inj (hrelative₁.symm.trans hrelative)
    obtain rfl := Option.some.inj (h.target.symm.trans htarget)
    obtain rfl := Except.ok.inj (hrelative₂.symm.trans hrelative')
    exact h.classes
  refine ⟨w₁, w₂, w₃, h.scaffolded, h.built, h.generated, h.written, fun names => ?_⟩
  exact scaffold_agrees hfinds hsorted hfree rfl hpath (by decide +kernel) hroot hroots
    h.scaffolded habsolute fresh_lettered h.built h.templateFound rfl h.projectNamed h.projectFresh
    h.generated hseparates hother hclass names (Option.some_ne_none _).symm (Option.some_ne_none _).symm

/-- It does not help a picture that its replaced bytes would have its class in the template: what lies
    there are the bytes as they were, and those are rendered. -/
theorem picture_differs :
    ∃ w₁ w₂ w₃, (scaffold pictureRenamed (.ofString "/o/s") (fun _ => ⟨.ok pictureValues, []⟩) none).run
        ⟨pictured, []⟩ = .ok ⟨.ofString "/o/s", 0, 1⟩ w₁ ∧
      (buildTemplate pictureRenamed (.ofString "/t") default).run ⟨pictured, []⟩ =
        .ok ⟨1, 0, 1⟩ w₂ ∧
      (generate (.ofString "/t") (.ofString "/o") (fun _ => ⟨.ok pictureValues, []⟩) none).run w₂ =
        .ok ⟨.ofString "/o", 1, 0⟩ w₃ ∧
      -- no rules are derived, those given are in order, and no token has a slash in it
      Generate.lastName (pathOf [Bytes.ofString "s"]) = Generate.lastName (.ofString "/o/s") ∧
      pictureRenamed.rules.IsSorted ∧
      pictureRenamed.delimiters.Free pictureValues Bytes.slash ∧
      -- the roots are new and lie apart
      pictured.Fresh [Bytes.ofString "s"] (.ofString "/o/s")
        [Bytes.ofString "o", Bytes.ofString "s"] ∧
      pictured.Fresh [Bytes.ofString "s"] (.ofString "/t") [Bytes.ofString "t"] ∧
      w₂.disk.Fresh [Bytes.ofString "t"] (.ofString "/o") [Bytes.ofString "o"] ∧
      -- there is one file, and by its replaced bytes it would have one class
      pictureRenamed.entries pictured [Bytes.ofString "s"] =
        [[Bytes.ofString "s", Bytes.ofString "a.png"]] ∧
      pictured.get? [Bytes.ofString "s", Bytes.ofString "a.png"] = some (.file 0o600 picture) ∧
      pictureRenamed.recipe.target? [Bytes.ofString "s"] [Bytes.ofString "t"]
        [Bytes.ofString "s", Bytes.ofString "a.png"] =
          some [Bytes.ofString "t", Bytes.ofString "a.txt"] ∧
      pictureRenamed.recipe.isRaw "a.png" picture = pictureRenamed.recipe.isRaw "a.txt"
        (applyReplacements pictureRenamed.rules.replacements picture) ∧
      -- but the projects differ
      w₁.disk.get? [Bytes.ofString "o", Bytes.ofString "s", Bytes.ofString "a.txt"] =
        some (.file 0o600 picture) ∧
      w₃.disk.get? [Bytes.ofString "o", Bytes.ofString "a.txt"] =
        some (.file 0o600 (Bytes.ofString "v")) := by
  obtain ⟨w₁, w₂, w₃, h⟩ := exists_pictureRuns
  refine ⟨w₁, w₂, w₃, h.scaffolded, h.built, h.generated, by decide +kernel,
    ⟨List.pairwise_singleton .., List.pairwise_singleton ..⟩,
    ⟨by decide +kernel, by decide +kernel, by decide +kernel⟩, ?_, fresh_pictured, h.projectFresh,
    h.entries, by decide +kernel, h.target, h.raw.trans h.rawReplaced.symm, h.copied, h.there⟩
  exact .of_spells spells_namesake (isLinkless_pictured.isPlain _) (by decide +kernel)
    (by decide +kernel)

end Stencil
