/-
  The template that a build leaves.

  Every visited entry of the source tree becomes a product by the recipe of the configuration; the
  description of the template is put last.  `buildTemplate_image` says that the template is the tree of
  these products and that nothing else has changed.

  The walk sees the disk as it is after the start, and it writes into the tree that it may be walking
  through.  But it passes over the template, so that what it sees is what lay there before the build
  (`visited_eq`).
-/
import Stencil.Proofs.Build.Start
import Stencil.Proofs.Path.Absolute
import Stencil.Proofs.Walk

namespace Stencil

open Disk Walk

/-- What a build does with an entry. -/
def Config.recipe (c : Config) : Recipe where
  globs := PatternSet.read c.staticGlobs
  place := rename c.rules.renames
  render := applyReplacements c.rules.replacements

namespace BuildReport

/-- Counts an operation. -/
def count (r : BuildReport) : FileOperation → BuildReport
  | .write _ _ _ => { r with files := r.files + 1, templated := r.templated + 1 }
  | .copy _ _ => { r with files := r.files + 1, static := r.static + 1 }
  | .directory _ => r

/-- The numbers of files among some products. -/
def ofProducts (products : List Product) : BuildReport where
  files := products.countP Product.isFile
  templated := products.countP Product.isRendered
  static := products.countP Product.isCopied

theorem count_ofProducts {operation : FileOperation} {p : Product} (products : List Product)
    (h : operation.Puts p) : (ofProducts products).count operation = ofProducts (products ++ [p]) := by
  cases h <;> simp [ofProducts, count, Product.isFile, Product.isCopied, Product.isRendered]

end BuildReport

namespace Build

variable {c : Config} {w w₁ w₂ w' : World} {top source x : Location} {d d' : Disk} {e : Entry}

/-- What is left out of a build. -/
def rules (c : Config) (d : Disk) (source : Location) : IgnoreRules :=
  c.ignoreRules (Config.readIgnoreFile d (pathOf source))

/-- The entries of the source tree that a build visits, in its order. -/
def visited (c : Config) (d : Disk) (source top : Location) : List Location :=
  d.tour (admitsSource d source [top] (rules c d source)) source

/-- A visit follows the recipe. -/
theorem visit_eq (c : Config) (template : Path) (report : BuildReport) (sighting : Sighting)
    (relative : String) :
    visit c template (PatternSet.read c.staticGlobs) report sighting relative = (do
      let target ← ofExcept (joinUnder template (c.recipe.place relative))
      let operation ← c.recipe.operation sighting relative target
      operation.execute
      return report.count operation) := by
  unfold visit Recipe.operation
  refine bind_congr fun target => ?_
  split
  · simp only [pure_bind]
    rfl
  · -- the operation for a file copies it or writes it
    simp only [bind_assoc, FileOperation.forFile]
    refine bind_congr fun static => ?_
    split
    · simp only [pure_bind]
      rfl
    · simp only [bind_assoc, pure_bind]
      rfl

/-- Once a new directory is passed over, a walk through the source tree sees what was there before. -/
theorem tour_eq (h : Started top source d d') (hlinkless : d.IsLinkless) (hsource : IsDescent source)
    {skip : List Location} (htop : top ∈ skip) :
    d'.tour (admitsSource d' source skip (rules c d' source)) source =
      d.tour (admitsSource d source skip (rules c d source)) source := by
  have hrules : rules c d' source = rules c d source := by
    rw [rules, rules, h.readIgnoreFile_eq hlinkless hsource]
  -- what is admitted lies outside of the new directory, where nothing has changed
  have hsame : ∀ x, (∀ s ∈ skip, ¬ s <+: x) → d'.get? x = d.get? x := fun x hx =>
    h.filled.outside x (hx top htop)
  rw [hrules]
  refine tour_congr (fun x _ => admitsSource_congr hsame x) fun x hx => ?_
  rw [h.filled.outside x (not_below_of_admits hx.self htop)]

/-- After the start a build still sees what was there before. -/
theorem visited_eq (h : Started top source d d') (hlinkless : d.IsLinkless)
    (hsource : IsDescent source) : visited c d' source top = visited c d source top :=
  tour_eq h hlinkless hsource List.mem_cons_self

/-- What holds of a build after some visits: the tree of their products is there, and they are counted. -/
def Built (c : Config) (d : Disk) (source top : Location) (done : List Location)
    (report : BuildReport) (w : World) : Prop :=
  ∃ products, c.recipe.products? d source top done = some products ∧
    report = .ofProducts products ∧ Filled top products d w.disk

/-- A visit adds the product of its entry. -/
theorem Built.visit {done : List Location} {report report' : BuildReport} {relative : String}
    (h : Built c d source top done report w) (hunlinked : e.kind ≠ .link)
    (he : d.get? x = some e) (hout : ¬ top <+: x)
    (hrelative : relativePath (pathOf source) (pathOf x) = .ok relative)
    (hrun : (Build.visit c (pathOf top) (PatternSet.read c.staticGlobs) report ⟨pathOf x, e.kind⟩
      relative).run w = .ok report' w') :
    Built c d source top (done ++ [x]) report' w' := by
  obtain ⟨products, hproducts, rfl, hfilled⟩ := h
  rw [visit_eq] at hrun
  obtain ⟨target, wt, hplace, h₁⟩ := Task.bind_eq_ok hrun
  obtain ⟨htarget, rfl⟩ := Task.ofExcept_eq_ok hplace
  obtain ⟨operation, wo, hoperation, h₂⟩ := Task.bind_eq_ok h₁
  obtain ⟨u, we, hexecute, h₃⟩ := Task.bind_eq_ok h₂
  obtain ⟨rfl, rfl⟩ := Task.pure_eq_ok h₃
  obtain ⟨p, hp, hputs, hfilled'⟩ :=
    hfilled.step hunlinked he hout hrelative htarget hoperation hexecute
  exact ⟨products ++ [p], Recipe.products?_concat hproducts hp, BuildReport.count_ofProducts products hputs,
    hfilled'⟩

theorem not_below_of_mem_visited (h : x ∈ visited c d source top) : ¬ top <+: x :=
  not_below_of_admits (mem_tour.mp h).1.self List.mem_cons_self

/-- The visits of a build lead a walk through the source tree along its tour, if there are no links in
    it.  It lies outside of the template, so it is as it was at the start. -/
theorem guides_visit (hstart : Filled top [] d d)
    (hunlinked : ∀ x target, source <+: x → d.get? x ≠ some (.link target)) (hout : ¬ top <+: source) :
    Guides (visitSource (pathOf source) [pathOf top] (rules c d source)
      (visit c (pathOf top) (PatternSet.read c.staticGlobs))) d
      (admitsSource d source [top] (rules c d source)) source
      (fun done r w => Built c d source top done r.1 w) := by
  have htop : ∀ s ∈ [top], IsDescent s := by
    intro s hs
    rw [List.mem_singleton.mp hs]
    exact isDescent_of_isDirectoryAt hstart.rooted
  refine guides_visitSource (J := Built c d source top) htop ?_ ?_ ?_
  · intro done report w₁ x e relative report' w₂ hbuilt he hx hrelative hvisit
    have hbeside : ¬ top <+: x := not_below_of_admits hx.self List.mem_cons_self
    have hkind : e.kind ≠ .link := kind_ne_link (fun target => hunlinked x target hx.below) he
    exact hbuilt.visit hkind he hbeside hrelative hvisit
  · intro done report w₁ x target w₂ hbuilt he hx
    exact absurd he (hunlinked x target hx)
  · intro done report w₁ dir listing hbuilt hdir hway hlist
    obtain ⟨products, -, -, hfilled⟩ := hbuilt
    have hbeside : ¬ top <+: dir := by
      rcases hway with rfl | hway
      · exact hout
      · exact not_below_of_admits hway.self List.mem_cons_self
    exact hstart.listing_eq hfilled hdir hbeside hlist

/-- **The walk of a build** leaves the tree of the products of all that it visits, if there are no links
    in the source tree.  Elsewhere there may be some. -/
theorem built_of_unlinked_walk {report : BuildReport} {ignored : Nat}
    (hstart : Filled top [] w.disk w.disk) (hsource : IsDescent source)
    (hplain : w.disk.IsPlain source)
    (hunlinked : ∀ x target, source <+: x → w.disk.get? x ≠ some (.link target))
    (hout : ¬ top <+: source)
    (hrun : (walkSource (pathOf source) [pathOf top]
      (c.ignoreRules (Config.readIgnoreFile w.disk (pathOf source)))
      (visit c (pathOf top) (PatternSet.read c.staticGlobs)) {}).run w = .ok (report, ignored) w') :
    Built c w.disk source top (visited c w.disk source top) report w' :=
  (guides_visit hstart hunlinked hout).walkTree hsource hplain ⟨[], rfl, rfl, hstart⟩ hrun

/-- The walk of a build on a disk without links, seen from before the start. -/
theorem built_of_walk {report : BuildReport} {ignored : Nat} (hstart : Started top source d w.disk)
    (hlinkless : d.IsLinkless) (hsource : IsDescent source)
    (hrun : (walkSource (pathOf source) [pathOf top]
      (c.ignoreRules (Config.readIgnoreFile w.disk (pathOf source)))
      (visit c (pathOf top) (PatternSet.read c.staticGlobs)) {}).run w = .ok (report, ignored) w') :
    Built c d source top (visited c d source top) report w' := by
  have hlinkless' : w.disk.IsLinkless := hstart.filled.isLinkless hlinkless
  obtain ⟨products, hproducts, hreport, hfilled⟩ := built_of_unlinked_walk hstart.filled.here hsource
    (hlinkless'.isPlain source) (fun x target _ => hlinkless' x target) hstart.outside hrun
  obtain ⟨hproducts, hfilled⟩ :=
    Recipe.rebase hstart.filled (fun x => not_below_of_mem_visited) hproducts hfilled
  rw [visited_eq hstart hlinkless hsource] at hproducts
  exact ⟨products, hproducts, hreport, hfilled⟩

/-- The permission bits of a file that is written over what is in its place. -/
def keptMode : Option Entry → Mode
  | some (.file mode _) => mode
  | _ => Entry.fileMode

/-- The description of a template as a product: it keeps the permission bits of a file in its place. -/
def description (c : Config) (now : Timestamp) (top : Location) (products : List Product) : Product :=
  let loc := top ++ [Bytes.ofString Defaults.metadataFile]
  .rendered loc (keptMode (image top products loc)) (Bytes.ofString (Metadata.ofConfig c now).print)

/-- The description is put last. -/
theorem filled_of_save {now : Timestamp} {products : List Product} {u : Unit}
    (h : Filled top products d w.disk)
    (hrun : ((Metadata.ofConfig c now).save (pathOf top)).run w = .ok u w') :
    Filled top (products ++ [description c now top products]) d w'.disk := by
  let loc : Location := top ++ [Bytes.ofString Defaults.metadataFile]
  have htop : IsDescent top := isDescent_of_isDirectoryAt h.rooted
  have hspells : (Metadata.file (pathOf top)).Spells loc := spells_metadataFile htop
  have hbelow : top <+: loc := List.prefix_append top _
  obtain ⟨first, hreplaced, hchanged⟩ :=
    changed_of_write hspells (h.isPlain hbelow) (Task.change_eq_ok hrun)
  have hfirst : (description c now top products).entry =
      .file first (Bytes.ofString (Metadata.ofConfig c now).print) := by
    have hkept : keptMode (w.disk.get? loc) = first := by
      cases hreplaced with
      | nothing none =>
        rw [none]
        rfl
      | file there =>
        rw [there]
        rfl
    rw [h.inside loc hbelow] at hkept
    rw [description, hkept]
    rfl
  refine h.file (Grown.refl _) ?_ hbelow ?_ rfl rfl fun x => ?_
  · rw [List.dropLast_concat]
    exact h.rooted
  · rw [hfirst]
    exact hchanged.fits
  · rw [hfirst]
    exact hchanged.get? x

end Build

open Build

/-- **The template that a build leaves** is the tree of the products of all that it visits, with the
    description put last; nothing of an earlier template is left, and nothing else has changed.  The
    report counts the files that were visited, the rendered ones and those copied as they were. -/
theorem buildTemplate_image {c : Config} {template : Path} {now : Timestamp} {report : BuildReport}
    {w w' : World} (hlinkless : w.disk.IsLinkless) (hstraight : Path.back ∉ template.names)
    (hparent : isDirectoryAt w.disk.table (w.disk.spelled template).dropLast = true)
    (h : (buildTemplate c template now).run w = .ok report w') :
    ∃ source products, w.disk.reach c.sourceRoot = .ok source ∧
      c.recipe.products? w.disk source (w.disk.spelled template)
        (visited c w.disk source (w.disk.spelled template)) = some products ∧
      Filled (w.disk.spelled template)
        (products ++ [description c now (w.disk.spelled template) products]) w.disk w'.disk ∧
      report.files = (visited c w.disk source (w.disk.spelled template)).countP
        (fun x => (w.disk.get? x).map Entry.kind = some .file) ∧
      report.templated = products.countP Product.isRendered ∧
      report.static = products.countP Product.isCopied ∧
      report.files = report.templated + report.static := by
  obtain ⟨sourcePath, ws, hcanonicalSource, h₁⟩ := Task.bind_eq_ok h
  obtain ⟨rfl, hroot⟩ := canonicalSource_eq_ok hcanonicalSource
  obtain ⟨source, hfound, rfl⟩ := realPath_eq_ok hroot
  obtain ⟨e, he⟩ := exists_get?_of_reach hfound
  have hdescent : IsDescent source := isDescent_of_get? he
  obtain ⟨p, wa, hquery, h₂⟩ := Task.bind_eq_ok h₁
  obtain ⟨habsolute, rfl⟩ := Task.query_eq_ok hquery
  have hp : p.Spells (wa.disk.spelled template) := spells_absolute hstraight habsolute
  -- the start
  obtain ⟨u₁, wr, hremove, h₃⟩ := Task.bind_eq_ok h₂
  obtain ⟨u₂, wm, hmake, h₄⟩ := Task.bind_eq_ok h₃
  obtain ⟨root, wc, hcanonical, h₅⟩ := Task.bind_eq_ok h₄
  obtain ⟨hroot', rfl⟩ := Task.query_eq_ok hcanonical
  obtain ⟨rfl, hstarted⟩ := started_of_start hp hlinkless he hparent hremove
    (Task.makeDirectories_eq_ok hmake) hroot'
  -- the walk
  obtain ⟨extra, we, hextra, h₆⟩ := Task.bind_eq_ok h₅
  obtain ⟨rfl, rfl⟩ := Task.look_eq_ok hextra
  obtain ⟨⟨report', ignored⟩, ww, hwalk, h₇⟩ := Task.bind_eq_ok h₆
  obtain ⟨products, hproducts, rfl, hfilled⟩ := built_of_walk hstarted hlinkless hdescent hwalk
  -- the description
  obtain ⟨u₃, wd, hsave, h₈⟩ := Task.bind_eq_ok h₇
  obtain ⟨rfl, rfl⟩ := Task.pure_eq_ok h₈
  refine ⟨source, products, hfound, hproducts, filled_of_save hfilled hsave,
    Recipe.countP_isFile hproducts, rfl, rfl, Product.countP_isFile products⟩

/-- A template in the place of a directory with a file of the same name. -/
theorem buildTemplate_twoFolders :
    let c : Config := { sourceRoot := .ofString "/src" }
    let top : Location := [Bytes.ofString "old"]
    let products : List Product := [.rendered (top ++ [Bytes.ofString "a"]) Entry.fileMode [1]]
    ∃ w', (buildTemplate c (.ofString "/old") default).run ⟨twoFolders, []⟩ = .ok ⟨1, 1, 0⟩ w' ∧
      Filled top (products ++ [description c default top products]) twoFolders w'.disk := by
  intro c top products
  have hanswer : (buildTemplate c (.ofString "/old") default).answer? ⟨twoFolders, []⟩ =
      some ⟨1, 1, 0⟩ := by decide +kernel
  obtain ⟨w', hrun⟩ := Task.exists_run_of_answer? hanswer
  have hspelled : twoFolders.spelled (.ofString "/old") = top := by decide +kernel
  have hfind : twoFolders.reach c.sourceRoot = .ok [Bytes.ofString "src"] := by decide +kernel
  have hproducts : c.recipe.products? twoFolders [Bytes.ofString "src"] top
      (visited c twoFolders [Bytes.ofString "src"] top) = some products := by decide +kernel
  obtain ⟨source, products', hfound, hproducts', hfilled, -⟩ :=
    buildTemplate_image isLinkless_twoFolders (by decide +kernel) (by decide +kernel) hrun
  rw [hfind] at hfound
  obtain rfl := Except.ok.inj hfound
  rw [hspelled, hproducts] at hproducts'
  obtain rfl := Option.some.inj hproducts'
  rw [hspelled] at hfilled
  exact ⟨w', hrun, hfilled⟩

end Stencil
