/-
  The project that a source tree leaves.

  `scaffold_image` puts together what is known of the parts of a generation from a source tree.

  1. **Rules.**  The rules of the configuration and those derived from the two names are merged, longest
     first (`Rules.Merged`).  Their rename rules, and then the values, place an entry; their
     replacements, and then the values, render a file (`Config.scaffoldRecipe`).
  2. **What is visited.**  The walk passes over the project and over the template root, as far as that is
     there once the directory of the project is made.  Both may lie inside the source tree.  So the walk
     sees what lay there before (`Build.tour_eq`).
  3. **The visits.**  Each one adds the product of its entry, as in a generation from a template
     (`Generated.place`), and the walk adds those of its tour (`generated_of_walkSource`).
-/
import Stencil.Proofs.Build.Image
import Stencil.Proofs.Disk.Keep
import Stencil.Proofs.Generate.Image
import Stencil.Proofs.Naming.Merged
import Stencil.Proofs.Phases

namespace Stencil

open Disk Walk

/-- What a generation from a source tree does with an entry, by its merged rules. -/
def Config.scaffoldRecipe (c : Config) (rules : Rules) (values : Values) : Recipe where
  globs := PatternSet.read c.staticGlobs
  place := fun relative => c.delimiters.render values (rename rules.renames relative)
  render := fun content => c.delimiters.renderBytes values (applyReplacements rules.replacements content)

namespace Generate

variable {c : Config} {given derived rules : Rules} {values : Values} {w w₁ w' : World}
  {top source x : Location} {d d' : Disk} {e : Entry} {report report' : GenerateReport}
  {done : List Location}

/-! ## What is visited -/

/-- The location that the path reaches once a directory is made at `top`, if it reaches any. -/
def foundBeside (d : Disk) (top : Location) (p : Path) : List Location :=
  ((d.put top (.directory Entry.directoryMode)).reach p).toOption.toList

/-- The entries of a source tree that a generation visits, in its order: neither the project nor the
    template root, nor what lies in them, nor what is left out. -/
def visitedSource (c : Config) (d : Disk) (source top : Location) : List Location :=
  d.tour (admitsSource d source (top :: foundBeside d top c.templateRoot) (Build.rules c d source))
    source

/-- The disk with an empty directory in a place that was free is the disk with that directory put
    there. -/
theorem get?_of_filled (h : Filled top [] d d') (hfree : d.get? top = none) (x : Location) :
    d'.get? x = (d.put top (.directory Entry.directoryMode)).get? x := by
  have hne : top ≠ [] := by
    rintro rfl
    cases hfree
  obtain ⟨mode, hmode⟩ := isDirectoryAt_iff.mp h.rooted
  have hfits : Fits d.table top (.directory Entry.directoryMode) := by
    refine ⟨hne, isProper_of_get? hmode, ?_, fun _ => rfl⟩
    obtain ⟨mode', hparent⟩ := isDirectoryAt_iff.mp (isDirectoryAt_dropLast hmode)
    have hout : ¬ top <+: top.dropLast := by
      intro hbelow
      have hlength := hbelow.length_le
      have hpos := List.length_pos_iff.mpr hne
      rw [List.length_dropLast] at hlength
      omega
    exact isDirectoryAt_iff.mpr ⟨mode', (h.outside _ hout).symm.trans hparent⟩
  rw [get?_put hfits]
  by_cases hx : x = top
  · rw [if_pos hx, h.inside x (hx ▸ List.prefix_refl top), image_nil, if_pos hx]
  · rw [if_neg hx]
    by_cases hbelow : top <+: x
    · rw [h.inside x hbelow, image_nil, if_neg hx, get?_eq_none_below hfree hbelow]
    · exact h.outside x hbelow

theorem foundBeside_eq (h : Filled top [] d d') (hfree : d.get? top = none)
    (hhere : d'.here = d.here) (p : Path) :
    (d'.reach p).toOption.toList = foundBeside d top p := by
  rw [foundBeside, toOption_reach_congr (hhere.trans (here_put ..).symm) (get?_of_filled h hfree)]

/-- What a generation from a source tree passes over, as locations. -/
theorem skip_eq (d : Disk) (top : Location) (p : Path) :
    pathOf top :: (d.realPath p).toOption.toList =
      (top :: (d.reach p).toOption.toList).map pathOf := by
  rw [List.map_cons, toList_realPath]

theorem isDescent_of_mem_skip {p : Path} {s : Location} (htop : isDirectoryAt d.table top = true)
    (hs : s ∈ top :: (d.reach p).toOption.toList) : IsDescent s := by
  rcases List.mem_cons.mp hs with rfl | hs
  · exact isDescent_of_isDirectoryAt htop
  · obtain ⟨e, he⟩ := exists_get?_of_reach (mem_toList_reach.mp hs)
    exact isDescent_of_get? he

/-- A path that led somewhere before leads there still. -/
theorem foundBeside_of_find {p : Path} {t : Location} (hfree : d.get? top = none)
    (h : d.find true p = .ok t) : foundBeside d top p = [t] := by
  have hkeeps : Keeps d (d.put top (.directory Entry.directoryMode)) := by
    refine ⟨here_put .., fun {x e} he => ⟨e, ?_, .refl e⟩⟩
    by_cases hfits : Fits d.table top (.directory Entry.directoryMode)
    · have hne : x ≠ top := by
        rintro rfl
        rw [hfree] at he
        cases he
      rw [get?_put hfits, if_neg hne, he]
    · rw [put, dif_neg hfits, he]
  rw [foundBeside, hkeeps.reach (reach_of_find h)]
  rfl

/-! ## The visits -/

/-- A visit follows the recipe of the merged rules. -/
theorem visitSourceEntry_eq (hmerged : given.Merged derived rules) (sighting : Sighting)
    (relative : String) :
    visitSourceEntry { c with rules } values (PatternSet.read c.staticGlobs) report sighting relative =
      (do
        let target ← ofExcept (joinUnder report.output
          ((c.scaffoldRecipe rules values).place relative))
        place report sighting relative target (c.scaffoldRecipe rules values).globs
          (c.scaffoldRecipe rules values).render) := by
  unfold visitSourceEntry
  rw [hmerged.sortLongest_renames]
  rfl

/-- What a visit comes to: a step by the recipe of the merged rules. -/
theorem visitSourceEntry_eq_ok {sighting : Sighting} {relative : String}
    (hmerged : given.Merged derived rules) (houtput : report.output = pathOf top)
    (hrun : (visitSourceEntry { c with rules } values (PatternSet.read c.staticGlobs) report sighting
      relative).run w = .ok report' w') :
    report'.output = pathOf top ∧ ∃ target op wo u,
      joinUnder (pathOf top) ((c.scaffoldRecipe rules values).place relative) = .ok target ∧
      ((c.scaffoldRecipe rules values).operation sighting relative target).run w = .ok op wo ∧
      op.execute.run wo = .ok u w' := by
  rw [visitSourceEntry_eq hmerged, houtput] at hrun
  obtain ⟨target, wt, hplaced, h₁⟩ := Task.bind_eq_ok hrun
  obtain ⟨htarget, rfl⟩ := Task.ofExcept_eq_ok hplaced
  rw [place_eq] at h₁
  obtain ⟨op, wo, hoperation, h₂⟩ := Task.bind_eq_ok h₁
  obtain ⟨u, we, hexecute, h₃⟩ := Task.bind_eq_ok h₂
  obtain ⟨rfl, rfl⟩ := Task.pure_eq_ok h₃
  refine ⟨?_, target, op, wo, u, htarget, hoperation, hexecute⟩
  rw [← houtput]
  cases op <;> rfl

/-- The visits lead a walk through the source tree along its tour, if there are no links in it.  It lies
    outside of the project, so it is as it was at the start. -/
theorem guides_visitSourceEntry {before : List Product} {skip : List Location} {ignore : IgnoreRules}
    (hmerged : given.Merged derived rules) (hstart : Filled top before d d)
    (hunlinked : ∀ x target, source <+: x → d.get? x ≠ some (.link target)) (hout : ¬ top <+: source)
    (hskip : ∀ s ∈ skip, IsDescent s) (htop : top ∈ skip) :
    Guides (visitSource (pathOf source) (skip.map pathOf) ignore
      (visitSourceEntry { c with rules } values (PatternSet.read c.staticGlobs))) d
      (admitsSource d source skip ignore) source
      (fun done r w =>
        GeneratedBeside before (c.scaffoldRecipe rules values) d source top done r.1 w) := by
  refine guides_visitSource
    (J := GeneratedBeside before (c.scaffoldRecipe rules values) d source top) hskip ?_ ?_ ?_
  · intro done report w₁ x e relative report' w₂ hgenerated he hx hrelative hvisit
    have hbeside : ¬ top <+: x := Walk.not_below_of_admits hx.self htop
    have hkind : e.kind ≠ .link := kind_ne_link (fun target => hunlinked x target hx.below) he
    -- the report carries the path of the project through the walk
    obtain ⟨products, -, hreport, -⟩ := id hgenerated
    have houtput : report.output = pathOf top := by rw [hreport]; rfl
    rw [visitSourceEntry_eq hmerged, houtput] at hvisit
    obtain ⟨target, wt, hplaced, h₁⟩ := Task.bind_eq_ok hvisit
    obtain ⟨htarget, rfl⟩ := Task.ofExcept_eq_ok hplaced
    exact hgenerated.place hkind he hbeside hrelative htarget h₁
  · intro done report w₁ x target w₂ hgenerated he hx
    exact absurd he (hunlinked x target hx)
  · intro done report w₁ dir listing hgenerated hdir hway hlist
    obtain ⟨products, -, -, hfilled⟩ := hgenerated
    have hbeside : ¬ top <+: dir := by
      rcases hway with rfl | hway
      · exact hout
      · exact Walk.not_below_of_admits hway.self htop
    exact hstart.listing_eq hfilled hdir hbeside hlist

section

variable {before : List Product} {skip : List Location} {ignored : Nat}
  (hmerged : given.Merged derived rules) (hstart : Filled top before w.disk w.disk)
  (hsource : IsDescent source) (hplain : w.disk.IsPlain source)
  (hunlinked : ∀ x target, source <+: x → w.disk.get? x ≠ some (.link target))
  (hout : ¬ top <+: source) (hskip : ∀ s ∈ skip, IsDescent s) (htop : top ∈ skip)
  (hrun : (walkSource (pathOf source) (skip.map pathOf)
    (c.ignoreRules (Config.readIgnoreFile w.disk (pathOf source)))
    (visitSourceEntry { c with rules } values (PatternSet.read c.staticGlobs))
    { output := pathOf top }).run w = .ok (report, ignored) w')

include hmerged hstart hsource hplain hunlinked hout hskip htop hrun

/-- **The walk of a generation from a source tree** leaves the tree of the products of all that it
    visits, besides what was in the place of the project before, if there are no links in the source tree.
    Elsewhere there may be some. -/
theorem generated_of_unlinked_walkSource :
    GeneratedBeside before (c.scaffoldRecipe rules values) w.disk source top
      (w.disk.tour (admitsSource w.disk source skip (Build.rules c w.disk source)) source) report w' :=
  (guides_visitSourceEntry hmerged hstart hunlinked hout hskip htop).walkTree hsource hplain
    ⟨[], rfl, rfl, by rwa [List.append_nil]⟩ hrun

/-- It has read all the directories that it visits. -/
theorem isReadable_of_unlinked_walkSource : (pathOf source).text.length < maxPath ∧ IsReadable w.disk
    (w.disk.tour (admitsSource w.disk source skip (Build.rules c w.disk source)) source) :=
  (guides_visitSourceEntry hmerged hstart hunlinked hout hskip htop).isReadable hsource hplain
    ⟨[], rfl, rfl, by rwa [List.append_nil]⟩ hrun

end

/-- The walk of a generation from a source tree on a disk without links, seen from before the start. -/
theorem generated_of_walkSource {skip : List Location} {ignored : Nat}
    (hmerged : given.Merged derived rules) (hstart : Started top source d w.disk)
    (hlinkless : d.IsLinkless) (hsource : IsDescent source) (hskip : ∀ s ∈ skip, IsDescent s)
    (htop : top ∈ skip)
    (hrun : (walkSource (pathOf source) (skip.map pathOf)
      (c.ignoreRules (Config.readIgnoreFile w.disk (pathOf source)))
      (visitSourceEntry { c with rules } values (PatternSet.read c.staticGlobs))
      { output := pathOf top }).run w = .ok (report, ignored) w') :
    Generated (c.scaffoldRecipe rules values) d source top
      (d.tour (admitsSource d source skip (Build.rules c d source)) source) report w' := by
  have hlinkless' : w.disk.IsLinkless := hstart.filled.isLinkless hlinkless
  have hgenerated := generated_of_unlinked_walkSource hmerged hstart.filled.here hsource
    (hlinkless'.isPlain source) (fun x target _ => hlinkless' x target) hstart.outside hskip htop hrun
  rw [← Build.tour_eq hstart hlinkless hsource htop]
  exact hgenerated.rebase hstart.filled fun x hx =>
    Walk.not_below_of_admits (mem_tour.mp hx).1.self htop

end Generate

open Generate

/-- **The project that a source tree leaves**, where the directory for it is there but nothing in its own
    place, is the tree of the products of all that is visited in the source tree; nothing else has
    changed.  The rules of the configuration and those derived from the names of the source tree and of
    the project are merged, longest first and the former first among equal lengths.  What is passed over
    is the project and the template root; that is where the latter was, if it was there before. -/
theorem scaffold_image {c : Config} {output path : Path} {resolver : Variables → Resolution}
    {values : Values} {report : GenerateReport} {w w' : World} (hlinkless : w.disk.IsLinkless)
    (hvalues : (resolver c.declared).result = .ok values)
    (hpath : (w.disk.absolute output).map (projectOutput · values) = .ok path)
    (hparent : ∀ parent, path.directory? = some parent → w.disk.isThere parent = true)
    (h : (scaffold c output resolver none).run w = .ok report w') :
    ∃ source root rules products, w.disk.reach c.sourceRoot = .ok source ∧
      w.disk.AimsAt path root ∧ report.output = pathOf root ∧ w.disk.get? root = none ∧
      c.rules.Merged (deriveRules (lastName (pathOf source)) (lastName path)) rules ∧
      (∀ t, w.disk.find true c.templateRoot = .ok t →
        foundBeside w.disk root c.templateRoot = [t]) ∧
      (c.scaffoldRecipe rules values).products? w.disk source root
        (visitedSource c w.disk source root) = some products ∧
      Filled root products w.disk w'.disk ∧
      report.templated = products.countP Product.isRendered ∧
      report.static = products.countP Product.isCopied ∧
      report.templated + report.static = (visitedSource c w.disk source root).countP
        (fun x => (w.disk.get? x).map Entry.kind = some .file) := by
  obtain ⟨values', path', source, root, ignored, ws, ww, hfound, hstart, hwalk, hconfig⟩ :=
    scaffold_eq_ok h
  obtain ⟨-, rfl⟩ := Task.pure_eq_ok hconfig
  obtain rfl := Except.ok.inj (hvalues.symm.trans hstart.resolved)
  obtain rfl := Except.ok.inj (hpath.symm.trans hstart.named)
  obtain ⟨e, he⟩ := exists_get?_of_reach hfound
  -- the rules
  have hmerged := c.rules.merged_extend (deriveRules (lastName (pathOf source)) (lastName path))
  -- the directory of the project
  obtain ⟨hfree, hchanged⟩ :=
    changed_of_makeDirectories hstart.missing hparent hstart.made hstart.found
  have hfilled : Filled root [] w.disk ws.disk := .of_changed hchanged hfree
  have hhere : ws.disk.here = w.disk.here := (grown_of_makeDirectories_aim hstart.made).1
  -- the source tree is there, so it does not lie in a directory that is new
  have hout : ¬ root <+: source := by
    intro hbelow
    rw [get?_eq_none_below hfree hbelow] at he
    cases he
  have hstarted : Started root source w.disk ws.disk :=
    ⟨hfilled, hout, fun mode content => by rw [hfree]; exact (Option.some_ne_none _).symm⟩
  -- the walk
  have hskips := skip_eq ws.disk root c.templateRoot
  have hdescents : ∀ s ∈ root :: (ws.disk.reach c.templateRoot).toOption.toList, IsDescent s :=
    fun s => isDescent_of_mem_skip hfilled.rooted
  rw [foundBeside_eq hfilled hfree hhere] at hskips hdescents
  rw [hskips] at hwalk
  have hgenerated : Generated (c.scaffoldRecipe _ values) w.disk source root
      (visitedSource c w.disk source root) report w' :=
    generated_of_walkSource (c := c) hmerged hstarted hlinkless (isDescent_of_get? he) hdescents
      List.mem_cons_self hwalk
  obtain ⟨products, hproducts, rfl, hfilled'⟩ := hgenerated
  refine ⟨source, root, _, products, hfound, aimsAt_of_makeDirectories hstart.made hstart.found, rfl,
    hfree, hmerged, fun t => foundBeside_of_find hfree, hproducts, hfilled', rfl, rfl, ?_⟩
  rw [← Recipe.countP_isFile hproducts, Product.countP_isFile]
  rfl

/-- A source tree with a file of its own name, in which a template lies. -/
def namedTree : Disk :=
  let top : Location := [Bytes.ofString "App"]
  let folder (loc : Location) (d : Disk) : Disk := d.put loc (.directory Entry.directoryMode)
  let file (loc : Location) (text : String) (d : Disk) : Disk :=
    d.put loc (.file 0o600 (Bytes.ofString text))
  file (top ++ [Bytes.ofString "t", Bytes.ofString "x"]) "old"
    (folder (top ++ [Bytes.ofString "t"])
      (file (top ++ [Bytes.ofString "App"]) "App \x7b\x7bN\x7d\x7d" (folder top empty)))

/-- A project inside its source tree, beside a template: the name of the source tree becomes that of the
    project, in the path and in the file. -/
theorem scaffold_namedTree :
    let c : Config := { sourceRoot := .ofString "/App", templateRoot := .ofString "/App/t" }
    let values : Values := NameMap.ofList [("N", "b")]
    let root : Location := [Bytes.ofString "App", Bytes.ofString "Net"]
    let products : List Product :=
      [.rendered (root ++ [Bytes.ofString "Net"]) 0o600 (Bytes.ofString "Net b")]
    ∃ w', (scaffold c (.ofString "/App/Net") (fun _ => ⟨.ok values, []⟩) none).run
        ⟨namedTree, []⟩ = .ok ⟨.ofString "/App/Net", 1, 0⟩ w' ∧
      Filled root products namedTree w'.disk := by
  intro c values root products
  let derived : Rules := c.rules.extend
    (deriveRules (lastName (pathOf [Bytes.ofString "App"])) (lastName (.ofString "/App/Net")))
  -- all that is evaluated, at once: the parts have much of the work in common
  have hevaluated :
      (scaffold c (.ofString "/App/Net") (fun _ => ⟨.ok values, []⟩) none).answer?
        ⟨namedTree, []⟩ = some ⟨.ofString "/App/Net", 1, 0⟩ ∧
      (c.scaffoldRecipe derived values).products? namedTree [Bytes.ofString "App"] root
        (visitedSource c namedTree [Bytes.ofString "App"] root) = some products := by
    decide +kernel
  obtain ⟨hanswer, hmade⟩ := hevaluated
  obtain ⟨w', hrun⟩ := Task.exists_run_of_answer? hanswer
  have hlinkless : namedTree.IsLinkless := isLinkless_of_all (by decide +kernel)
  have hpath : (namedTree.absolute (.ofString "/App/Net")).map (projectOutput · values) =
      .ok (.ofString "/App/Net") := by decide +kernel
  have hparent : ∀ parent, (Path.ofString "/App/Net").directory? = some parent →
      namedTree.isThere parent = true := by
    intro parent hdirectory
    have hsame : (Path.ofString "/App/Net").directory? = some (.ofString "/App") := by
      decide +kernel
    rw [hsame] at hdirectory
    obtain rfl := Option.some.inj hdirectory
    decide +kernel
  have hfind : namedTree.reach c.sourceRoot = .ok [Bytes.ofString "App"] := by decide +kernel
  obtain ⟨source, root', rules, products', hfound, -, hroot, -, hmerged, -, hproducts, hfilled, -⟩ :=
    scaffold_image hlinkless rfl hpath hparent hrun
  obtain rfl := Except.ok.inj (hfind.symm.trans hfound)
  have hsame : root' = root := by
    have hnames : (pathOf root').names = root' :=
      (spells_pathOf (isDescent_of_isDirectoryAt hfilled.rooted)).names
    rw [← hnames, ← hroot]
    decide +kernel
  rw [hsame] at hproducts hfilled
  -- the merged rules are the derived ones, there being no others
  obtain rfl : rules = derived := hmerged.unique (c.rules.merged_extend _)
  obtain rfl := Option.some.inj (hmade.symm.trans hproducts)
  exact ⟨w', hrun, hfilled⟩

end Stencil
