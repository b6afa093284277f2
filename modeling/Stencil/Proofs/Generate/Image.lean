/-
  The project that a template leaves.

  Every entry of the template but its description becomes a product by the recipe of that description
  and the values: its path and its bytes are rendered.  `generate_image` says that the project is the
  tree of these products and that nothing else has changed.

  The project may lie inside the template, and then the walk meets what it writes itself.  It passes
  over all of that, and the start adds nothing but the directory of the project, so that what is visited
  is what lay there before (`visited_eq`).
-/
import Stencil.Proofs.Disk.Aim
import Stencil.Proofs.Generate.Fill
import Stencil.Proofs.Walk

namespace Stencil

open Disk Walk

/-- What a generation does with an entry of a template. -/
def Metadata.recipe (m : Metadata) (values : Values) : Recipe where
  globs := PatternSet.read m.staticFiles
  place := m.delimiters.render values
  render := m.delimiters.renderBytes values

namespace GenerateReport

/-- The numbers of files among the products in a project. -/
def ofProducts (output : Path) (products : List Product) : GenerateReport where
  output := output
  templated := products.countP Product.isRendered
  static := products.countP Product.isCopied

theorem count_ofProducts {output : Path} {operation : FileOperation} {p : Product}
    (products : List Product) (h : operation.Puts p) :
    (ofProducts output products).count operation = ofProducts output (products ++ [p]) := by
  cases h <;> simp [ofProducts, count, Product.isCopied, Product.isRendered]

end GenerateReport

namespace Generate

variable {metadata : Metadata} {values : Values} {w w₁ w' : World} {top template x : Location}
  {d d' : Disk} {e : Entry} {report report' : GenerateReport} {done : List Location}

/-! ## The directory of the project -/

/-- Where nothing is, in a directory that is there, the directory of a project is new and empty. -/
theorem filled_of_makeOutput {path rootPath : Path} (hmissing : ∀ y, w.disk.find true path ≠ .ok y)
    (hparent : ∀ parent, path.directory? = some parent → w.disk.isThere parent = true)
    (hmake : (makeOutput path).run w = .ok rootPath w₁) :
    ∃ root, rootPath = pathOf root ∧ w.disk.AimsAt path root ∧ w.disk.get? root = none ∧
      Filled root [] w.disk w₁.disk := by
  obtain ⟨hmade, hcanonical⟩ := makeOutput_eq_ok hmake
  obtain ⟨root, hfound, rfl⟩ := canonical_eq_ok hcanonical
  obtain ⟨hfree, hchanged⟩ := changed_of_makeDirectories hmissing hparent hmade hfound
  exact ⟨root, rfl, aimsAt_of_makeDirectories hmade hfound, hfree, .of_changed hchanged hfree⟩

/-! ## What is visited -/

/-- Is the entry neither the description of the template nor in the project? -/
def admits (template top x : Location) : Bool :=
  x != template ++ [Bytes.ofString Defaults.metadataFile] && !isBelow top x

/-- The entries of the template that a generation visits, in its order. -/
def visited (d : Disk) (template top : Location) : List Location :=
  d.tour (admits template top) template

theorem not_below_of_admits (h : admits template top x = true) : ¬ top <+: x := by
  rw [admits, Bool.and_eq_true, Bool.not_eq_true'] at h
  intro hbelow
  rw [isBelow_iff.mpr hbelow] at h
  cases h.2

/-- Once the project has a directory, a generation still sees what was there before. -/
theorem visited_eq (h : Filled top [] d d') : visited d' template top = visited d template top := by
  refine tour_congr (fun _ _ => rfl) fun x hx => ?_
  have hout : ¬ top <+: x := not_below_of_admits hx.self
  rw [h.outside x hout]

/-! ## The visits -/

/-- What is written for an entry follows the recipe. -/
theorem place_eq (r : Recipe) (report : GenerateReport) (sighting : Sighting) (relative : String)
    (target : Path) : place report sighting relative target r.globs r.render = (do
      let operation ← r.operation sighting relative target
      operation.execute
      return report.count operation) := by
  unfold place Recipe.operation
  split
  · rfl
  · simp only [bind_assoc]

/-- What a visit comes to: nothing where the entry is not admitted, and otherwise a step by the recipe. -/
theorem visitTemplate_eq_ok {enter : Bool} (htemplate : IsDescent template) (htop : IsDescent top)
    (hx : IsDescent x) (hreport : report.output = pathOf top)
    (hrun : (visitTemplate (pathOf template) metadata values (metadata.recipe values).globs report
      ⟨pathOf x, e.kind⟩).run w = .ok (report', enter) w') :
    (admits template top x = false ∧ enter = false ∧ report' = report ∧ w' = w) ∨
      (admits template top x = true ∧ enter = true ∧ ∃ relative target,
        relativePath (pathOf template) (pathOf x) = .ok relative ∧
        joinUnder (pathOf top) ((metadata.recipe values).place relative) = .ok target ∧
        (place report ⟨pathOf x, e.kind⟩ relative target (metadata.recipe values).globs
          (metadata.recipe values).render).run w = .ok report' w') := by
  have hspells : (pathOf x).Spells x := spells_pathOf hx
  have hdescription : (pathOf x).components = (Metadata.file (pathOf template)).components ↔
      x = template ++ [Bytes.ofString Defaults.metadataFile] :=
    hspells.components_eq_iff (spells_metadataFile htemplate)
  have hbelow : (pathOf x).startsWith report.output = isBelow top x := by
    rw [hreport, Bool.eq_iff_iff, isBelow_iff]
    exact hspells.startsWith_iff (spells_pathOf htop)
  unfold visitTemplate at hrun
  dsimp only at hrun
  rw [hbelow] at hrun
  rw [admits]
  by_cases hfile : x = template ++ [Bytes.ofString Defaults.metadataFile]
  · rw [if_pos (hdescription.mpr hfile)] at hrun
    obtain ⟨hanswer, rfl⟩ := Task.pure_eq_ok hrun
    cases hanswer
    exact .inl ⟨by simp [hfile], rfl, rfl, rfl⟩
  rw [if_neg fun hsame => hfile (hdescription.mp hsame)] at hrun
  cases hinside : isBelow top x with
  | true =>
    rw [hinside, if_pos rfl] at hrun
    obtain ⟨hanswer, rfl⟩ := Task.pure_eq_ok hrun
    cases hanswer
    exact .inl ⟨by simp, rfl, rfl, rfl⟩
  | false =>
    rw [hinside, if_neg Bool.false_ne_true] at hrun
    obtain ⟨relative, wr, hseen, h₁⟩ := Task.bind_eq_ok hrun
    obtain ⟨hrelative, rfl⟩ := Task.ofExcept_eq_ok hseen
    obtain ⟨target, wt, hplaced, h₂⟩ := Task.bind_eq_ok h₁
    obtain ⟨htarget, rfl⟩ := Task.ofExcept_eq_ok hplaced
    rw [hreport] at htarget
    obtain ⟨placed, wp, hplace, h₃⟩ := Task.bind_eq_ok h₂
    obtain ⟨hanswer, rfl⟩ := Task.pure_eq_ok h₃
    cases hanswer
    exact .inr ⟨by simp [hfile], rfl, relative, target, hrelative, htarget, hplace⟩

/-- What holds of a generation after some visits: the tree of their products is there, and they are
    counted. -/
def Generated (r : Recipe) (d : Disk) (template top : Location) (done : List Location)
    (report : GenerateReport) (w : World) : Prop :=
  ∃ products, r.products? d template top done = some products ∧
    report = .ofProducts (pathOf top) products ∧ Filled top products d w.disk

/-- The same, when there were some directories in the project already. -/
def GeneratedBeside (before : List Product) (r : Recipe) (d : Disk) (template top : Location)
    (done : List Location) (report : GenerateReport) (w : World) : Prop :=
  ∃ products, r.products? d template top done = some products ∧
    report = .ofProducts (pathOf top) products ∧ Filled top (before ++ products) d w.disk

/-- A step adds the product of its entry. -/
theorem GeneratedBeside.place {before : List Product} {r : Recipe} {relative : String} {target : Path}
    (h : GeneratedBeside before r d template top done report w) (hunlinked : e.kind ≠ .link)
    (he : d.get? x = some e) (hout : ¬ top <+: x)
    (hrelative : relativePath (pathOf template) (pathOf x) = .ok relative)
    (htarget : joinUnder (pathOf top) (r.place relative) = .ok target)
    (hrun : (Generate.place report ⟨pathOf x, e.kind⟩ relative target r.globs r.render).run w =
      .ok report' w') : GeneratedBeside before r d template top (done ++ [x]) report' w' := by
  obtain ⟨products, hproducts, rfl, hfilled⟩ := h
  rw [place_eq] at hrun
  obtain ⟨operation, wo, hoperation, h₁⟩ := Task.bind_eq_ok hrun
  obtain ⟨u, we, hexecute, h₂⟩ := Task.bind_eq_ok h₁
  obtain ⟨rfl, rfl⟩ := Task.pure_eq_ok h₂
  obtain ⟨p, hp, hputs, hfilled'⟩ :=
    hfilled.step hunlinked he hout hrelative htarget hoperation hexecute
  rw [List.append_assoc] at hfilled'
  exact ⟨products ++ [p], Recipe.products?_concat hproducts hp,
    GenerateReport.count_ofProducts products hputs, hfilled'⟩

/-- What is generated is seen alike from before the start, when the entries lie outside. -/
theorem GeneratedBeside.rebase {r : Recipe} (h : GeneratedBeside [] r d' template top done report w)
    (hstart : Filled top [] d d') (hdone : ∀ x ∈ done, ¬ top <+: x) :
    Generated r d template top done report w := by
  obtain ⟨products, hproducts, hreport, hfilled⟩ := h
  obtain ⟨hproducts, hfilled⟩ := Recipe.rebase hstart hdone hproducts hfilled
  exact ⟨products, hproducts, hreport, hfilled⟩

theorem not_below_of_mem_visited (h : x ∈ visited d template top) : ¬ top <+: x :=
  not_below_of_admits (mem_tour.mp h).1.self

/-- The visits lead a walk through the template along its tour, if there are no links in what is visited.
    It lies outside of the project, so it is as it was at the start. -/
theorem guides_visitTemplate {before : List Product} (hstart : Filled top before d d)
    (hunlinked : ∀ x target, template <+: x → admits template top x = true →
      d.get? x ≠ some (.link target))
    (htemplate : IsDescent template) (hout : ¬ top <+: template) :
    Guides (visitTemplate (pathOf template) metadata values (metadata.recipe values).globs) d
      (admits template top) template
      (GeneratedBeside before (metadata.recipe values) d template top) := by
  have htop : IsDescent top := isDescent_of_isDirectoryAt hstart.rooted
  have hvisit : ∀ {done report w x e report' enter w'},
      GeneratedBeside before (metadata.recipe values) d template top done report w →
      d.get? x = some e → template <+: x →
      (visitTemplate (pathOf template) metadata values (metadata.recipe values).globs report
        ⟨pathOf x, e.kind⟩).run w = .ok (report', enter) w' →
      (admits template top x = false ∧ enter = false ∧ report' = report ∧ w' = w) ∨
        (admits template top x = true ∧ enter = true ∧
          GeneratedBeside before (metadata.recipe values) d template top (done ++ [x]) report' w') := by
    intro done report w x e report' enter w' hgenerated he hbelow hrun
    -- the report carries the path of the project through the walk
    obtain ⟨products, -, hreport, -⟩ := id hgenerated
    have hx : IsDescent x := isDescent_of_get? he
    rcases visitTemplate_eq_ok htemplate htop hx (by rw [hreport]; rfl) hrun with
      hpassed | ⟨hadmits, henter, relative, target, hrelative, htarget, hplace⟩
    · exact .inl hpassed
    · have hkind : e.kind ≠ .link := kind_ne_link (fun target => hunlinked x target hbelow hadmits) he
      exact .inr ⟨hadmits, henter,
        hgenerated.place hkind he (not_below_of_admits hadmits) hrelative htarget hplace⟩
  constructor
  case visited =>
    intro done report w x e report' enter w' hgenerated he hx hrun
    have hadmits : admits template top x = true := hx.self
    rcases hvisit hgenerated he hx.below hrun with ⟨hpassed, -⟩ | ⟨-, henter, hstep⟩
    · rw [hadmits] at hpassed
      cases hpassed
    · exact ⟨hstep, fun _ => henter⟩
  case passed =>
    intro done report w x e report' enter w' hgenerated he hbelow hx hrun
    rcases hvisit hgenerated he hbelow hrun with ⟨-, henter, rfl, rfl⟩ | ⟨hadmits, -⟩
    · exact ⟨hgenerated, fun _ => henter⟩
    · rw [hx] at hadmits
      cases hadmits
  case read =>
    rintro done report w dir listing ⟨products, -, -, hfilled⟩ hdir hway hlist
    have hbeside : ¬ top <+: dir := by
      rcases hway with rfl | hway
      · exact hout
      · exact not_below_of_admits hway.self
    exact hstart.listing_eq hfilled hdir hbeside hlist

/-- **The walk of a generation** leaves the tree of the products of all that it visits, if there are no
    links in that. -/
theorem generated_of_unlinked_walk {before : List Product} (hstart : Filled top before w.disk w.disk)
    (hunlinked : ∀ x target, template <+: x → admits template top x = true →
      w.disk.get? x ≠ some (.link target))
    (htemplate : IsDescent template) (hplain : w.disk.IsPlain template) (hout : ¬ top <+: template)
    (hrun : (walkTree (pathOf template)
      (visitTemplate (pathOf template) metadata values (PatternSet.read metadata.staticFiles))
      (fun _ e => throw e) { output := pathOf top }).run w = .ok report w') :
    GeneratedBeside before (metadata.recipe values) w.disk template top
      (visited w.disk template top) report w' := by
  have hguides : Guides
      (visitTemplate (pathOf template) metadata values (metadata.recipe values).globs) w.disk
      (admits template top) template
      (GeneratedBeside before (metadata.recipe values) w.disk template top) :=
    guides_visitTemplate hstart hunlinked htemplate hout
  have hbefore : GeneratedBeside before (metadata.recipe values) w.disk template top []
      { output := pathOf top } w := ⟨[], rfl, rfl, by rwa [List.append_nil]⟩
  exact hguides.walkTree htemplate hplain hbefore hrun

/-- The walk of a generation on a disk without links, seen from before the start. -/
theorem generated_of_walk (hstart : Filled top [] d w.disk) (hlinkless : d.IsLinkless)
    (htemplate : IsDescent template) (hout : ¬ top <+: template)
    (hrun : (walkTree (pathOf template)
      (visitTemplate (pathOf template) metadata values (PatternSet.read metadata.staticFiles))
      (fun _ e => throw e) { output := pathOf top }).run w = .ok report w') :
    Generated (metadata.recipe values) d template top (visited d template top) report w' := by
  have hlinkless' : w.disk.IsLinkless := hstart.isLinkless hlinkless
  have hgenerated := generated_of_unlinked_walk hstart.here (fun x target _ _ => hlinkless' x target)
    htemplate (hlinkless'.isPlain template) hout hrun
  rw [← visited_eq hstart]
  exact hgenerated.rebase hstart fun x => not_below_of_mem_visited

end Generate

open Generate

/-- **The project that a template leaves**, where the directory for it is there but nothing in its own
    place, is the tree of the products of all that is visited in the template; nothing else has changed.
    The report counts the rendered files and those copied as they were. -/
theorem generate_image {template output path : Path} {resolver : Variables → Resolution}
    {metadata : Metadata} {values : Values} {report : GenerateReport} {w w' : World}
    (hlinkless : w.disk.IsLinkless) (hload : (Metadata.load template).run w = .ok metadata w)
    (hvalues : (resolver metadata.declared).result = .ok values)
    (hpath : (w.disk.absolute output).map (projectOutput · values) = .ok path)
    (hparent : ∀ parent, path.directory? = some parent → w.disk.isThere parent = true)
    (h : (generate template output resolver none).run w = .ok report w') :
    ∃ source root products, w.disk.find true template = .ok source ∧ w.disk.AimsAt path root ∧
      report.output = pathOf root ∧ w.disk.get? root = none ∧
      (metadata.recipe values).products? w.disk source root (visited w.disk source root) =
        some products ∧
      Filled root products w.disk w'.disk ∧
      report.templated = products.countP Product.isRendered ∧
      report.static = products.countP Product.isCopied ∧
      report.templated + report.static = (visited w.disk source root).countP
        (fun x => (w.disk.get? x).map Entry.kind = some .file) := by
  obtain ⟨metadata', wm, hload', h₁⟩ := Task.bind_eq_ok h
  rw [hload] at hload'
  cases hload'
  obtain ⟨sourcePath, ws, hcanonical, h₂⟩ := Task.bind_eq_ok h₁
  obtain ⟨hsourcePath, rfl⟩ := Task.query_eq_ok hcanonical
  obtain ⟨source, hfound, rfl⟩ := canonical_eq_ok hsourcePath
  obtain ⟨e, he⟩ := exists_get?_of_find hfound
  have hdescent : IsDescent source := isDescent_of_get? he
  -- the directory of the project
  obtain ⟨⟨values', path'⟩, wp, hprepare, h₃⟩ := Task.bind_eq_ok h₂
  obtain ⟨hdisk, hvalues', hpath', fault, hmissing⟩ := prepare_eq_ok hprepare
  rw [hvalues] at hvalues'
  obtain rfl := Except.ok.inj hvalues'
  rw [hpath] at hpath'
  obtain rfl := Except.ok.inj hpath'
  obtain ⟨rootPath, wo, hmake, h₄⟩ := Task.bind_eq_ok h₃
  obtain ⟨root, rfl, haims, hfree, hstart⟩ :=
    filled_of_makeOutput (hdisk ▸ find_ne_ok_of_entryItself hmissing) (hdisk ▸ hparent) hmake
  rw [hdisk] at haims hfree hstart
  -- the template is there, so it does not lie in a directory that is new
  have hout : ¬ root <+: source := by
    intro hbelow
    rw [get?_eq_none_below hfree hbelow] at he
    cases he
  -- the walk
  obtain ⟨u₁, wa, hannounce, h₅⟩ := Task.bind_eq_ok h₄
  have hannounced : wa.disk = wo.disk := Task.emit_eq_ok hannounce
  obtain ⟨report', ww, hwalk, h₆⟩ := Task.bind_eq_ok h₅
  rw [← hannounced] at hstart
  obtain ⟨products, hproducts, rfl, hfilled⟩ :=
    generated_of_walk hstart hlinkless hdescent hout hwalk
  obtain ⟨u₂, wc, hconfig, h₇⟩ := Task.bind_eq_ok h₆
  obtain ⟨-, rfl⟩ := Task.pure_eq_ok hconfig
  obtain ⟨rfl, rfl⟩ := Task.pure_eq_ok h₇
  refine ⟨source, root, products, hfound, haims, rfl, hfree, hproducts, hfilled, rfl, rfl, ?_⟩
  rw [← Recipe.countP_isFile hproducts, Product.countP_isFile]
  rfl

/-- A template with one file besides its description, which says no more than it has to. -/
def smallTemplate : Disk :=
  let top : Location := [Bytes.ofString "t"]
  ((empty.put top (.directory Entry.directoryMode)).put
    (top ++ [Bytes.ofString Defaults.metadataFile])
      (.file Entry.fileMode
        (Bytes.ofString "\x7b\"generatedAt\":\"1970-01-01T00:00:00Z\"\x7d"))).put
    (top ++ [Bytes.ofString "\x7b\x7bN\x7d\x7d"])
      (.file 0o755 (Bytes.ofString "\x7b\x7bN\x7d\x7d!"))

/-- A project inside its template. -/
theorem generate_smallTemplate :
    let values : Values := NameMap.ofList [("N", "b")]
    let root : Location := [Bytes.ofString "t", Bytes.ofString "p"]
    let products : List Product := [.rendered (root ++ [Bytes.ofString "b"]) 0o755 (Bytes.ofString "b!")]
    ∃ w', (generate (.ofString "/t") (.ofString "/t/p") (fun _ => ⟨.ok values, []⟩) none).run
        ⟨smallTemplate, []⟩ = .ok ⟨.ofString "/t/p", 1, 0⟩ w' ∧
      Filled root products smallTemplate w'.disk := by
  intro values root products
  let metadata : Metadata := { generatedAt := default }
  have hanswer : (generate (.ofString "/t") (.ofString "/t/p") (fun _ => ⟨.ok values, []⟩) none).answer?
      ⟨smallTemplate, []⟩ = some ⟨.ofString "/t/p", 1, 0⟩ := by decide +kernel
  obtain ⟨w', hrun⟩ := Task.exists_run_of_answer? hanswer
  have hdescription : (Metadata.load (.ofString "/t")).answer? ⟨smallTemplate, []⟩ =
      some metadata := by decide +kernel
  obtain ⟨w₁, hload⟩ := Task.exists_run_of_answer? hdescription
  obtain ⟨rfl, -⟩ := load_eq_ok hload
  have hlinkless : smallTemplate.IsLinkless := isLinkless_of_all (by decide +kernel)
  have hpath : (smallTemplate.absolute (.ofString "/t/p")).map (projectOutput · values) =
      .ok (.ofString "/t/p") := by decide +kernel
  have hparent : ∀ parent, (Path.ofString "/t/p").directory? = some parent →
      smallTemplate.isThere parent = true := by
    intro parent hdirectory
    have hsame : (Path.ofString "/t/p").directory? = some (.ofString "/t") := by decide +kernel
    rw [hsame] at hdirectory
    obtain rfl := Option.some.inj hdirectory
    decide +kernel
  have hfind : smallTemplate.find true (.ofString "/t") = .ok [Bytes.ofString "t"] := by
    decide +kernel
  have hproducts : (metadata.recipe values).products? smallTemplate [Bytes.ofString "t"] root
      (visited smallTemplate [Bytes.ofString "t"] root) = some products := by decide +kernel
  obtain ⟨source, root', products', hfound, -, hroot, -, hproducts', hfilled, -⟩ :=
    generate_image hlinkless hload rfl hpath hparent hrun
  rw [hfind] at hfound
  obtain rfl := Except.ok.inj hfound
  have hsame : root' = root := by
    have hnames : (pathOf root').names = root' :=
      (spells_pathOf (isDescent_of_isDirectoryAt hfilled.rooted)).names
    rw [← hnames, ← hroot]
    decide +kernel
  rw [hsame, hproducts] at hproducts'
  obtain rfl := Option.some.inj hproducts'
  rw [hsame] at hfilled
  exact ⟨w', hrun, hfilled⟩

end Stencil
