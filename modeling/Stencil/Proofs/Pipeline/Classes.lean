/-
  Which files a project has as they were, and which it has rendered.

  A build decides for each source file whether it is copied, by its path in the source tree and by its
  bytes.  A generation decides again, by the path in the template and by the bytes that the template
  holds.
-/
import Stencil.Proofs.Build.Image
import Stencil.Proofs.Pipeline.Project
import Stencil.Proofs.Pipeline.Source

namespace Stencil

open Disk Walk

variable {c : Config} {w w' : World} {top source x : Location} {dirs : List Product}

namespace Build

/-- **The walk of a build**, be there links in the source tree or not: the products follow the recipe. -/
theorem follows_of_walk {report : BuildReport} {ignored : Nat}
    (hstart : Filled top dirs w.disk w.disk) (hdirs : ∀ q ∈ dirs, q.isFile = false)
    (hsource : IsDescent source) (hplain : w.disk.IsPlain source) (hout : ¬ top <+: source)
    (hrun : (walkSource (pathOf source) [pathOf top]
      (c.ignoreRules (Config.readIgnoreFile w.disk (pathOf source)))
      (visit c (pathOf top) (PatternSet.read c.staticGlobs)) {}).run w = .ok (report, ignored) w') :
    ∃ products, c.recipe.Follows w.disk source top (visited c w.disk source top) products ∧
      Filled top (dirs ++ products) w.disk w'.disk := by
  have htop : ∀ s ∈ [top], IsDescent s := by
    intro s hs
    rw [List.mem_singleton.mp hs]
    exact isDescent_of_isDirectoryAt hstart.rooted
  refine Recipe.follows_of_walkSource (R := fun _ => True) hstart hdirs hsource hplain hout htop
    List.mem_cons_self trivial (fun _ hvisit => ?_) hrun
  rw [visit_eq] at hvisit
  obtain ⟨target, wt, hplaced, h₁⟩ := Task.bind_eq_ok hvisit
  obtain ⟨htarget, rfl⟩ := Task.ofExcept_eq_ok hplaced
  obtain ⟨operation, wo, hoperation, h₂⟩ := Task.bind_eq_ok h₁
  obtain ⟨u, we, hexecute, h₃⟩ := Task.bind_eq_ok h₂
  obtain ⟨rfl, rfl⟩ := Task.pure_eq_ok h₃
  exact ⟨trivial, target, operation, wo, u, htarget, hoperation, hexecute⟩

/-- The disk on which the walk of a build begins: what was in the way is gone, and the directories of
    the template are made. -/
def opened (d : Disk) (p : Path) : Disk := ((cleared d p).makeDirectories p).1

/-- **The template of a build with links.**  Each file that a visited path leads to is there under its
    renamed path, copied or replaced, and the description is there. -/
theorem follows_of_buildTemplate {template p : Path} {now : Timestamp} {report : BuildReport}
    (hsource : w.disk.reach c.sourceRoot = .ok source)
    (hp : w.disk.absolute template = .ok p) (htop : (cleared w.disk p).AimsAtFree p top)
    (hbuild : (buildTemplate c template now).run w = .ok report w') :
    ∃ dirs products, (∀ q ∈ dirs, q.isFile = false) ∧
      c.recipe.Follows (opened w.disk p) source top (visited c (opened w.disk p) source top)
        products ∧
      Filled top (dirs ++ products ++ [description c now top (dirs ++ products)]) (opened w.disk p)
        w'.disk := by
  obtain ⟨source', p', top', ignored, ws, ww, hsource', hstart, hwalk, hsave⟩ :=
    buildTemplate_eq_ok hbuild
  rw [hsource] at hsource'
  obtain rfl := Except.ok.inj hsource'
  have hp' := hstart.named
  rw [hp] at hp'
  obtain rfl := Except.ok.inj hp'
  obtain rfl := (htop.eq_of_made hstart.made hstart.found).symm
  have hopened : opened w.disk p = ws.disk := by rw [opened, hstart.made]
  rw [hopened]
  -- the source tree is still there, outside of the template
  obtain ⟨e, he, hkind⟩ := exists_unlinked_of_reach hsource
  have hcleared : (cleared w.disk p).get? source = some e := (get?_cleared hstart.outside).trans he
  have hthere : ws.disk.get? source = some e :=
    (grown_of_makeDirectories_aim hstart.made).2.get?_of_some hcleared
  have hout : ¬ top <+: source := not_below_of_free htop.free hcleared
  have hempty := filled_of_aimsAtFree hstart.made hstart.found htop.free
  obtain ⟨products, hfollows, hfilled⟩ := follows_of_walk hempty
    (fun q => isFile_of_mem_directoriesBelow) (isDescent_of_get? he) (isPlain_of_get? hthere hkind)
    hout hwalk
  exact ⟨_, products, fun q => isFile_of_mem_directoriesBelow, hfollows,
    filled_of_save hfilled hsave⟩

/-- **What a build has saved is loaded** again, if the description is found and its time is read back. -/
theorem run_load_of_buildTemplate {template template' p : Path} {now : Timestamp} {report : BuildReport}
    (hsource : w.disk.reach c.sourceRoot = .ok source)
    (hp : w.disk.absolute template = .ok p) (htop : (cleared w.disk p).AimsAtFree p top)
    (hbuild : (buildTemplate c template now).run w = .ok report w')
    (hfound : w'.disk.find true (Metadata.file template') =
      .ok (top ++ [Bytes.ofString Defaults.metadataFile]))
    (htime : Timestamp.read? now.toText = some now) :
    (Metadata.load template').run w' = .ok (Metadata.ofConfig c now) w' := by
  obtain ⟨dirs, products, -, -, hfilled⟩ := follows_of_buildTemplate hsource hp htop hbuild
  obtain ⟨mode, hsaved⟩ := get?_description hfilled
  refine run_load hfound hsaved ?_
  have hnow : (Metadata.ofConfig c now).generatedAt = now := rfl
  rw [Metadata.read?_print, hnow, htime, Option.map_some]
  simp only [Metadata.ofConfig, Delimiters.normalized_normalized]

/-- The source files that a build visits: the entries whose path leads to no directory. -/
def visitedFiles (c : Config) (d : Disk) (source top : Location) : List Location :=
  (visited c d source top).filter fun x => !d.isDirectory (pathOf x)

end Build

namespace Generate

variable {template template' output p : Path} {resolver : Variables → Resolution}
  {config : Option Path}

/-- The disk on which the walk of a generation begins: the directory of the project is made. -/
def prepared (d : Disk) (path : Path) : Disk := (d.makeDirectories path).1

/-- **The project of a source tree with links.**  The products of the walk follow the recipe between the
    two names, and the project is the tree of them, up to the configuration that may be copied there. -/
theorem follows_of_scaffold {path : Path} {values : Values} {report : GenerateReport} {root : Location}
    (hsource : w.disk.reach c.sourceRoot = .ok source)
    (hvalues : (resolver c.declared).result = .ok values)
    (hpath : (w.disk.absolute output).map (projectOutput · values) = .ok path)
    (hroot : w.disk.AimsAtFree path root)
    (hrun : (scaffold c output resolver config).run w = .ok report w') :
    ∃ dirs products, (∀ q ∈ dirs, q.isFile = false) ∧
      (c.recipeBetween (lastName (pathOf source)) (lastName path) values).Follows
        (prepared w.disk path) source root (c.met (prepared w.disk path) source root) products ∧
      ∃ d, Filled root (dirs ++ products) (prepared w.disk path) d ∧
        ∀ x, copiedTo root config ≠ some x → w'.disk.get? x = d.get? x := by
  obtain ⟨values', path', source', root', ignored, ws, ww, hsource', hstart, hwalk, hconfig⟩ :=
    scaffold_eq_ok hrun
  obtain rfl := Except.ok.inj (hsource.symm.trans hsource')
  obtain rfl := Except.ok.inj (hvalues.symm.trans hstart.resolved)
  obtain rfl := Except.ok.inj (hpath.symm.trans hstart.named)
  obtain rfl := (hroot.eq_of_made hstart.made hstart.found).symm
  have hprepared : prepared w.disk path = ws.disk := by rw [prepared, hstart.made]
  rw [hprepared]
  -- the source tree is still there, outside of the project
  obtain ⟨e, he, hkind⟩ := exists_unlinked_of_reach hsource
  have hthere : ws.disk.get? source = some e :=
    (grown_of_makeDirectories_aim hstart.made).2.get?_of_some he
  have hout : ¬ root <+: source := by
    intro hbelow
    rw [get?_eq_none_below hroot.free hbelow] at he
    cases he
  have hmade := filled_of_aimsAtFree hstart.made hstart.found hroot.free
  rw [skip_eq] at hwalk
  obtain ⟨products, hfollows, hfilled⟩ := Recipe.follows_of_walkSource
    (R := fun report : GenerateReport => report.output = pathOf root) hmade
    (fun q => isFile_of_mem_directoriesBelow) (isDescent_of_get? he) (isPlain_of_get? hthere hkind)
    hout (fun s => isDescent_of_mem_skip hmade.rooted) List.mem_cons_self rfl
    (visitSourceEntry_eq_ok (c.rules.merged_extend _)) hwalk
  exact ⟨_, products, fun q => isFile_of_mem_directoriesBelow, hfollows, ww.disk, hfilled, fun x hx =>
    get?_of_copyConfig (isDescent_of_isDirectoryAt hfilled.rooted) (fun y => hfilled.isPlain) hconfig hx⟩

/-- A generation from a template once the description is loaded. -/
def generateBy (metadata : Metadata) (template output : Path) (resolver : Variables → Resolution)
    (config : Option Path) : Task GenerateReport := do
  let root ← Task.query (·.canonical template)
  let (values, path) ← prepare resolver metadata.declared output
  let output ← makeOutput path
  (Material.template root metadata values).fill output config

/-- A generation reads the description of the template first, and all else depends on that. -/
theorem generate_eq_load : generate template output resolver config =
    (Metadata.load template >>= fun m => generateBy m template output resolver config) := rfl

/-- **A build and a generation from its template** can be followed without the saved description being
    read back. -/
theorem exists_runs {β δ : Type} {now : Timestamp} {built : BuildReport} {report : GenerateReport}
    {f : Disk → β} {g : Disk → δ} {b : β} {e : δ}
    (hsource : w.disk.reach c.sourceRoot = .ok source)
    (hp : w.disk.absolute template = .ok p) (htop : (Build.cleared w.disk p).AimsAtFree p top)
    (htime : Timestamp.read? now.toText = some now)
    (hruns : ((buildTemplate c template now).observeBoth f
      (generateBy (Metadata.ofConfig c now) template' output resolver config) g).answer? w =
        some ((built, b), (report, e)))
    (hfound : ∀ d, f d = b → d.find true (Metadata.file template') =
      .ok (top ++ [Bytes.ofString Defaults.metadataFile])) :
    ∃ w₁ w₂, (buildTemplate c template now).run w = .ok built w₁ ∧ f w₁.disk = b ∧
      (generate template' output resolver config).run w₁ = .ok report w₂ ∧ g w₂.disk = e := by
  obtain ⟨w₁, w₂, hbuild, hseen, hgenerate, hseen'⟩ := Task.exists_runs_of_observeBoth hruns
  have hload := Build.run_load_of_buildTemplate hsource hp htop hbuild (hfound _ hseen) htime
  refine ⟨w₁, w₂, hbuild, hseen, ?_, hseen'⟩
  rw [generate_eq_load, EStateM.run_bind, hload]
  exact hgenerate

/-- Is this a disk with a template from which a project can be made at a new root?  There are no links, so
    that the paths lead where they say. -/
def awaits (template output path : Path) (values : Values) (top root : Location) (d : Disk) : Bool :=
  decide (d.find true (Metadata.file template) = .ok (top ++ [Bytes.ofString Defaults.metadataFile]) ∧
    d.find true template = .ok top ∧
    (d.absolute output).map (projectOutput · values) = .ok path ∧ d.get? root = none ∧
    (d.table.all fun e => e.2.kind != .link) = true)

/-- The build and the generation, when the template that is left awaits the generation. -/
theorem exists_runs_of_awaits {β δ : Type} {now : Timestamp} {built : BuildReport}
    {report : GenerateReport} {path : Path} {values : Values} {root : Location} {f : Disk → β}
    {g : Disk → δ} {b : β} {e : δ} (hsource : w.disk.reach c.sourceRoot = .ok source)
    (hp : w.disk.absolute template = .ok p) (htop : w.disk.AimsAtFree p top)
    (htime : Timestamp.read? now.toText = some now) (hspells : path.Spells root)
    (hapart : ¬ top <+: root)
    (hruns : ((buildTemplate c template now).observeBoth
      (fun d => (awaits template' output path values top root d, f d))
      (generateBy (Metadata.ofConfig c now) template' output resolver config) g).answer? w =
        some ((built, (true, b)), (report, e))) :
    ∃ w₁ w₂, (buildTemplate c template now).run w = .ok built w₁ ∧ f w₁.disk = b ∧
      w₁.disk.find true template' = .ok top ∧
      (w₁.disk.absolute output).map (projectOutput · values) = .ok path ∧
      w₁.disk.Fresh top path root ∧
      (generate template' output resolver config).run w₁ = .ok report w₂ ∧ g w₂.disk = e := by
  obtain ⟨w₁, w₂, hbuild, hseen, hgenerate, hlast⟩ := exists_runs hsource hp
    (htop.cleared_eq.symm ▸ htop) htime hruns
    (fun d h => (of_decide_eq_true (Prod.mk.inj h).1).1)
  obtain ⟨hawaits, hf⟩ := Prod.mk.inj hseen
  obtain ⟨-, hfound, hpath, hnothing, hlinkless⟩ := of_decide_eq_true hawaits
  exact ⟨w₁, w₂, hbuild, hf, hfound, hpath,
    .of_spells hspells ((isLinkless_of_all hlinkless).isPlain _) hnothing hapart, hgenerate, hlast⟩

end Generate

open Build Generate

/-- **A source file on its way through a template into a project.**  Both phases choose whether a file is
    copied or rendered, each by the path and the bytes that it finds: the build in the source tree, the
    generation in the template. -/
theorem file_through_template {template template' output p path : Path} {now : Timestamp}
    {resolver : Variables → Resolution} {values : Values} {config : Option Path} {built : BuildReport}
    {report : GenerateReport} {w₁ w₂ : World} {root : Location} {mode : Mode} {content : Bytes}
    (hsource : w.disk.reach c.sourceRoot = .ok source)
    (hp : w.disk.absolute template = .ok p)
    (htop : (cleared w.disk p).AimsAtFree p top)
    (hbuild : (buildTemplate c template now).run w = .ok built w₁)
    (htemplate : w₁.disk.find true template' = .ok top)
    (hvalues : (resolver c.declared).result = .ok values)
    (hpath : (w₁.disk.absolute output).map (projectOutput · values) = .ok path)
    (hroot : w₁.disk.AimsAtFree path root)
    (hgenerate : (generate template' output resolver config).run w₁ = .ok report w₂)
    (hseparate : c.recipe.Separates source top
      (Build.visitedFiles c (opened w.disk p) source top))
    (hseparate' : (c.projectRecipe values).Separates top root
      (Generate.visitedFiles w₁.disk top root))
    (hx : x ∈ Build.visited c (opened w.disk p) source top)
    (hfile : (opened w.disk p).entry (pathOf x) = .ok (.file mode content)) :
    ∃ relative t, relativePath (pathOf source) (pathOf x) = .ok relative ∧
      c.recipe.target? source top x = some t ∧
      (t ≠ top ++ [Bytes.ofString Defaults.metadataFile] →
        w₁.disk.get? t = some (.file mode (c.recipe.bytes relative content)) ∧
        ∃ relative' y, relativePath (pathOf top) (pathOf t) = .ok relative' ∧
          (c.projectRecipe values).target? top root t = some y ∧
          (copiedTo root config ≠ some y →
            w₂.disk.get? y = some (.file mode
              ((c.projectRecipe values).bytes relative' (c.recipe.bytes relative content))) ∧
            (c.recipe.isRaw relative content = true →
              (c.projectRecipe values).isRaw relative' content = true →
              w₂.disk.get? y = some (.file mode content)) ∧
            (c.recipe.isRaw relative content = false →
              (c.projectRecipe values).isRaw relative'
                (applyReplacements c.rules.replacements content) = false →
              w₂.disk.get? y = some (.file mode (c.delimiters.renderBytes values
                (applyReplacements c.rules.replacements content)))))) := by
  obtain ⟨dirs, products, hdirs, hfollows, hfilled⟩ :=
    follows_of_buildTemplate hsource hp htop hbuild
  obtain ⟨relative, t, hrelative, htarget, hat⟩ := hfollows.fileAt? hseparate hx hfile
  refine ⟨relative, t, hrelative, htarget, fun hother => ?_⟩
  obtain ⟨_, _, _, hbelow⟩ :=
    Recipe.target?_eq_some (isDescent_of_isDirectoryAt hfilled.rooted) htarget
  have hthere : w₁.disk.get? t = some (.file mode (c.recipe.bytes relative content)) := by
    rw [hfilled.inside t hbelow]
    refine image_of_fileAt? ?_
    rw [fileAt?_description hother, Product.fileAt?_append hdirs, hat]
  refine ⟨hthere, ?_⟩
  -- the generation finds the file where the build has put it
  obtain ⟨mode', hsaved⟩ := get?_description hfilled
  have hunlinked : ∀ y target, top <+: y → w₁.disk.get? y ≠ some (.link target) := by
    intro y target hy
    rw [hfilled.inside y hy]
    exact image_ne_link target
  obtain ⟨d, ww, hmade, hfound, hproducts, hconfig⟩ :=
    products_of_generate htemplate hunlinked hsaved hvalues hpath hroot hgenerate
  obtain ⟨products', hproducts', hfilled'⟩ :=
    hproducts _ (filled_of_aimsAtFree hmade hfound hroot.free)
  have hne : t ≠ top := by
    rintro rfl
    obtain ⟨mode, hmode⟩ := isDirectoryAt_iff.mp hfilled.rooted
    rw [hthere] at hmode
    cases hmode
  obtain ⟨relative', y, hrelative', htarget', hy⟩ :=
    get?_of_file (grown_of_makeDirectories_aim hmade).2 (fun q => isFile_of_mem_directoriesBelow)
      hproducts' hfilled' hseparate'
      (mem_visited_of_get? hsaved hroot.free hthere hbelow hne hother) hthere
  refine ⟨relative', y, hrelative', htarget', fun hcopied => ?_⟩
  rw [← hconfig y hcopied] at hy
  refine ⟨hy, fun hraw hraw' => ?_, fun hraw hraw' => ?_⟩
  · have hcopied : c.recipe.bytes relative content = content := if_pos hraw
    have hkept : (c.projectRecipe values).bytes relative' content = content := if_pos hraw'
    rwa [hcopied, hkept] at hy
  · have hreplaced : c.recipe.bytes relative content =
        applyReplacements c.rules.replacements content := if_neg (by simp [hraw])
    rw [hreplaced] at hy
    have hrendered : (c.projectRecipe values).bytes relative'
        (applyReplacements c.rules.replacements content) =
        c.delimiters.renderBytes values (applyReplacements c.rules.replacements content) :=
      if_neg (by simp [hraw'])
    rwa [hrendered] at hy

/-- What the picture holds: a token. -/
def picture : Bytes := Bytes.ofString "\x7b\x7bN\x7d\x7d"

/-- A source tree with one picture in it. -/
def pictured : Disk :=
  (empty.put [Bytes.ofString "s"] (.directory Entry.directoryMode)).put
    [Bytes.ofString "s", Bytes.ofString "a.png"] (.file 0o600 picture)

/-- A configuration by which the picture gets the name of a text, and would get a zero byte if it were
    replaced in. -/
def pictureRenamed : Config where
  sourceRoot := .ofString "/s"
  templateRoot := .ofString "/t"
  rules := { replacements := [⟨"N", "\x00"⟩], renames := [⟨"a.png", "a.txt"⟩] }

/-- A value for the token in the picture. -/
def pictureValues : Values := NameMap.ofList [("N", "v")]

theorem isLinkless_pictured : pictured.IsLinkless := isLinkless_of_all (by decide +kernel)

theorem spells_template : (Path.ofString "/t").Spells [Bytes.ofString "t"] :=
  ⟨by decide +kernel, by decide +kernel, by decide +kernel⟩

theorem spells_project : (Path.ofString "/o").Spells [Bytes.ofString "o"] :=
  ⟨by decide +kernel, by decide +kernel, by decide +kernel⟩

theorem fresh_pictured :
    pictured.Fresh [Bytes.ofString "s"] (.ofString "/t") [Bytes.ofString "t"] :=
  .of_spells spells_template (isLinkless_pictured.isPlain _) (by decide +kernel) (by decide +kernel)

/-- The picture on its ways: straight into a project, and through a template, where it is the one file
    beside the description. -/
structure PictureRuns (w₁ w₂ w₃ : World) : Prop where
  scaffolded : (scaffold pictureRenamed (.ofString "/o/s") (fun _ => ⟨.ok pictureValues, []⟩) none).run
    ⟨pictured, []⟩ = .ok ⟨.ofString "/o/s", 0, 1⟩ w₁
  built : (buildTemplate pictureRenamed (.ofString "/t") default).run ⟨pictured, []⟩ =
    .ok ⟨1, 0, 1⟩ w₂
  generated : (generate (.ofString "/t") (.ofString "/o") (fun _ => ⟨.ok pictureValues, []⟩) none).run
    w₂ = .ok ⟨.ofString "/o", 1, 0⟩ w₃
  found : pictured.reach pictureRenamed.sourceRoot = .ok [Bytes.ofString "s"]
  visited : Build.visited pictureRenamed (opened pictured (.ofString "/t")) [Bytes.ofString "s"]
    [Bytes.ofString "t"] = [[Bytes.ofString "s", Bytes.ofString "a.png"]]
  entries : pictureRenamed.entries pictured [Bytes.ofString "s"] =
    [[Bytes.ofString "s", Bytes.ofString "a.png"]]
  target : pictureRenamed.recipe.target? [Bytes.ofString "s"] [Bytes.ofString "t"]
    [Bytes.ofString "s", Bytes.ofString "a.png"] = some [Bytes.ofString "t", Bytes.ofString "a.txt"]
  raw : pictureRenamed.recipe.isRaw "a.png" picture = true
  rawReplaced : pictureRenamed.recipe.isRaw "a.txt"
    (applyReplacements pictureRenamed.rules.replacements picture) = true
  rendered : (pictureRenamed.projectRecipe pictureValues).bytes "a.txt" picture = Bytes.ofString "v"
  templateFound : w₂.disk.find true (.ofString "/t") = .ok [Bytes.ofString "t"]
  templateFiles : Generate.visitedFiles w₂.disk [Bytes.ofString "t"] [Bytes.ofString "o"] =
    [[Bytes.ofString "t", Bytes.ofString "a.txt"]]
  projectNamed : (w₂.disk.absolute (.ofString "/o")).map (projectOutput · pictureValues) =
    .ok (.ofString "/o")
  projectFresh : w₂.disk.Fresh [Bytes.ofString "t"] (.ofString "/o") [Bytes.ofString "o"]
  copied : w₁.disk.get? [Bytes.ofString "o", Bytes.ofString "s", Bytes.ofString "a.txt"] =
    some (.file 0o600 picture)
  there : w₃.disk.get? [Bytes.ofString "o", Bytes.ofString "a.txt"] =
    some (.file 0o600 (Bytes.ofString "v"))
  nowhere : ∀ y, [Bytes.ofString "o"] <+: y → w₃.disk.get? y ≠ some (.file 0o600 picture)

/-- The three runs succeed on that disk, as their answers show. -/
theorem exists_pictureRuns : ∃ w₁ w₂ w₃, PictureRuns w₁ w₂ w₃ := by
  -- what is asked of the project
  let project (d : Disk) : Bool := d.table.all fun e =>
    e.1.head? != some (Bytes.ofString "o") || e.2 != .file 0o600 picture
  -- all that is evaluated, at once: the parts have much of the work in common
  have hevaluated :
      ((scaffold pictureRenamed (.ofString "/o/s") (fun _ => ⟨.ok pictureValues, []⟩) none).observe
        fun d => d.get? [Bytes.ofString "o", Bytes.ofString "s", Bytes.ofString "a.txt"]).answer?
          ⟨pictured, []⟩ = some (⟨.ofString "/o/s", 0, 1⟩, some (.file 0o600 picture)) ∧
      ((buildTemplate pictureRenamed (.ofString "/t") default).observeBoth
        (fun d => (awaits (.ofString "/t") (.ofString "/o") (.ofString "/o") pictureValues
          [Bytes.ofString "t"] [Bytes.ofString "o"] d,
          Generate.visitedFiles d [Bytes.ofString "t"] [Bytes.ofString "o"] ==
            [[Bytes.ofString "t", Bytes.ofString "a.txt"]]))
        (generateBy (Metadata.ofConfig pictureRenamed default) (.ofString "/t") (.ofString "/o")
          (fun _ => ⟨.ok pictureValues, []⟩) none)
        fun d => (project d, d.get? [Bytes.ofString "o", Bytes.ofString "a.txt"])).answer?
          ⟨pictured, []⟩ = some ((⟨1, 0, 1⟩, (true, true)), (⟨.ofString "/o", 1, 0⟩, true,
            some (.file 0o600 (Bytes.ofString "v")))) ∧
      pictured.reach pictureRenamed.sourceRoot = .ok [Bytes.ofString "s"] ∧
      pictured.absolute (.ofString "/t") = .ok (.ofString "/t") ∧
      Build.visited pictureRenamed (opened pictured (.ofString "/t")) [Bytes.ofString "s"]
        [Bytes.ofString "t"] = [[Bytes.ofString "s", Bytes.ofString "a.png"]] ∧
      pictureRenamed.entries pictured [Bytes.ofString "s"] =
        [[Bytes.ofString "s", Bytes.ofString "a.png"]] ∧
      pictureRenamed.recipe.target? [Bytes.ofString "s"] [Bytes.ofString "t"]
        [Bytes.ofString "s", Bytes.ofString "a.png"] =
          some [Bytes.ofString "t", Bytes.ofString "a.txt"] ∧
      pictureRenamed.recipe.isRaw "a.png" picture = true ∧
      pictureRenamed.recipe.isRaw "a.txt"
        (applyReplacements pictureRenamed.rules.replacements picture) = true ∧
      (pictureRenamed.projectRecipe pictureValues).bytes "a.txt" picture = Bytes.ofString "v" ∧
      Timestamp.read? (default : Timestamp).toText = some default := by
    decide +kernel
  obtain ⟨hscaffolded, hruns, hfound, habsolute, hvisited, hentries, htarget, hraw, hreplaced,
    hrendered, htime⟩ := hevaluated
  obtain ⟨w₁, hobserved⟩ := Task.exists_run_of_answer? hscaffolded
  obtain ⟨hscaffold, hcopied⟩ := Task.observe_eq_ok hobserved
  obtain ⟨w₂, w₃, hbuild, hfiles, htemplate, hpath, hroot, hgenerate, hproject⟩ :=
    exists_runs_of_awaits hfound habsolute fresh_pictured.toAimsAtFree htime spells_project
      (by decide +kernel) hruns
  obtain ⟨hnowhere, hthere⟩ := Prod.mk.inj hproject
  refine ⟨w₁, w₂, w₃, hscaffold, hbuild, hgenerate, hfound, hvisited, hentries, htarget, hraw,
    hreplaced, hrendered, htemplate, beq_iff_eq.mp hfiles, hpath, hroot, hcopied, hthere, ?_⟩
  · rintro y ⟨rest, rfl⟩ hkept
    have hother := of_all_table hnowhere (by simp) hkept
    simp at hother

/-- A picture that is copied into a template under the name of a text is rendered when the project is
    made: nothing in the project is as the picture was. -/
theorem picture_not_kept :
    ∃ w₁ w₂, (buildTemplate pictureRenamed (.ofString "/t") default).run ⟨pictured, []⟩ =
        .ok ⟨1, 0, 1⟩ w₁ ∧
      (generate (.ofString "/t") (.ofString "/o") (fun _ => ⟨.ok pictureValues, []⟩) none).run w₁ =
        .ok ⟨.ofString "/o", 1, 0⟩ w₂ ∧
      Build.visited pictureRenamed (opened pictured (.ofString "/t")) [Bytes.ofString "s"]
        [Bytes.ofString "t"] = [[Bytes.ofString "s", Bytes.ofString "a.png"]] ∧
      pictured.get? [Bytes.ofString "s", Bytes.ofString "a.png"] = some (.file 0o600 picture) ∧
      pictureRenamed.recipe.isRaw "a.png" picture = true ∧
      ∀ y, [Bytes.ofString "o"] <+: y → w₂.disk.get? y ≠ some (.file 0o600 picture) := by
  obtain ⟨_, w₁, w₂, h⟩ := exists_pictureRuns
  exact ⟨w₁, w₂, h.built, h.generated, h.visited, by decide +kernel, h.raw, h.nowhere⟩

/-- The picture with its token replaced. -/
theorem file_through_template_pictured :
    ∃ w₁ w₂, (buildTemplate pictureRenamed (.ofString "/t") default).run ⟨pictured, []⟩ =
        .ok ⟨1, 0, 1⟩ w₁ ∧
      (generate (.ofString "/t") (.ofString "/o") (fun _ => ⟨.ok pictureValues, []⟩) none).run w₁ =
        .ok ⟨.ofString "/o", 1, 0⟩ w₂ ∧
      w₁.disk.get? [Bytes.ofString "t", Bytes.ofString "a.txt"] = some (.file 0o600 picture) ∧
      w₂.disk.get? [Bytes.ofString "o", Bytes.ofString "a.txt"] =
        some (.file 0o600 (Bytes.ofString "v")) := by
  obtain ⟨_, w₁, w₂, h⟩ := exists_pictureRuns
  have habsolute : pictured.absolute (.ofString "/t") = .ok (.ofString "/t") := by decide +kernel
  have hvisited : [Bytes.ofString "s", Bytes.ofString "a.png"] ∈ Build.visited pictureRenamed
      (opened pictured (.ofString "/t")) [Bytes.ofString "s"] [Bytes.ofString "t"] := by
    rw [h.visited]
    exact List.mem_cons_self
  have hseparate : pictureRenamed.recipe.Separates [Bytes.ofString "s"] [Bytes.ofString "t"]
      (Build.visitedFiles pictureRenamed (opened pictured (.ofString "/t")) [Bytes.ofString "s"]
        [Bytes.ofString "t"]) := by
    rw [Build.visitedFiles, h.visited]
    exact Recipe.separates_of_alone fun y hy => List.mem_singleton.mp (List.mem_of_mem_filter hy)
  have hseparate' : (pictureRenamed.projectRecipe pictureValues).Separates [Bytes.ofString "t"]
      [Bytes.ofString "o"]
      (Generate.visitedFiles w₁.disk [Bytes.ofString "t"] [Bytes.ofString "o"]) := by
    rw [h.templateFiles]
    exact Recipe.separates_of_alone fun y hy => List.mem_singleton.mp hy
  have hentry : (opened pictured (.ofString "/t")).entry
      (pathOf [Bytes.ofString "s", Bytes.ofString "a.png"]) = .ok (.file 0o600 picture) := by
    decide +kernel
  obtain ⟨relative, t, hrelative, htarget, hthrough⟩ :=
    file_through_template h.found habsolute
      (fresh_pictured.cleared_eq.symm ▸ fresh_pictured.toAimsAtFree) h.built h.templateFound rfl
      h.projectNamed h.projectFresh.toAimsAtFree h.generated hseparate hseparate' hvisited hentry
  -- where the picture goes, and what becomes of it
  have hrelative₁ : relativePath (pathOf [Bytes.ofString "s"])
      (pathOf [Bytes.ofString "s", Bytes.ofString "a.png"]) = .ok "a.png" := by decide +kernel
  obtain rfl := Except.ok.inj (hrelative₁.symm.trans hrelative)
  obtain rfl := Option.some.inj (h.target.symm.trans htarget)
  obtain ⟨hthere, relative', y, hrelative', htarget', hrendered⟩ := hthrough (by decide +kernel)
  have hrelative₂ : relativePath (pathOf [Bytes.ofString "t"])
      (pathOf [Bytes.ofString "t", Bytes.ofString "a.txt"]) = .ok "a.txt" := by decide +kernel
  have htarget₂ : (pictureRenamed.projectRecipe pictureValues).target? [Bytes.ofString "t"]
      [Bytes.ofString "o"] [Bytes.ofString "t", Bytes.ofString "a.txt"] =
        some [Bytes.ofString "o", Bytes.ofString "a.txt"] := by decide +kernel
  obtain rfl := Except.ok.inj (hrelative₂.symm.trans hrelative')
  obtain rfl := Option.some.inj (htarget₂.symm.trans htarget')
  have hcopied : pictureRenamed.recipe.bytes "a.png" picture = picture := if_pos h.raw
  rw [hcopied] at hthere hrendered
  rw [h.rendered] at hrendered
  exact ⟨w₁, w₂, h.built, h.generated, hthere, (hrendered (Option.some_ne_none _).symm).1⟩

end Stencil
