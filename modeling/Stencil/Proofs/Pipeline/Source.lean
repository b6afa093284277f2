/-
  A source tree on its two ways into a project.

  A project is made from a source tree at once, or by way of a template.  On either way the source tree is
  walked through after something was made: the project, or the template.  Where that happened beside the
  source tree, the walk sees all that the rules do not leave out, as it was before (`entries_eq`).  So the
  products of the two walks come of the same entries (`products_of_build`, `products_of_scaffold`).
-/
import Stencil.Proofs.Generate.Scaffold
import Stencil.Proofs.Naming.Derivation
import Stencil.Proofs.Pipeline.Roots

namespace Stencil

open Disk Walk

variable {c : Config} {w w' : World} {d d' : Disk} {p : Path} {source top root x : Location} {e : Entry}

namespace Disk

/-- Neither of the places lies in the other. -/
def Apart (x y : Location) : Prop := ¬ x <+: y ∧ ¬ y <+: x

/-- The tree is as it was, and so is what it lies in. -/
def KeptAround (tree : Location) (d d' : Disk) : Prop :=
  ∀ x, x <+: tree ∨ tree <+: x → d'.get? x = d.get? x

/-- Nothing changes around a tree when a fresh root is made. -/
theorem Fresh.keptAround (h : d.Fresh source p top) (hmade : d.makeDirectories p = (d', .ok ()))
    (he : d.get? source = some e) : KeptAround source d d' := by
  have hgrown := (grown_of_makeDirectories_aim hmade).2
  rintro x (habove | hbelow)
  · -- what the tree lies in is there, and stays there
    by_cases hx : x = source
    · rw [hx, he, hgrown.get?_of_some he]
    · obtain ⟨mode, hmode⟩ := isDirectoryAt_iff.mp (isDirectoryAt_above he habove hx)
      rw [hmode, hgrown.get?_of_some hmode]
  · exact h.get?_eq hmade hbelow

end Disk

/-- The entries of a source tree that the rules of a configuration do not leave out. -/
def Config.entries (c : Config) (d : Disk) (source : Location) : List Location :=
  d.tour (admitsSource d source [] (Build.rules c d source)) source

theorem readIgnoreFile_eq (h : KeptAround source d d') (hsource : IsDescent source)
    (hplain : d.IsPlain source)
    (hunlinked : ∀ x target, source <+: x → d.get? x ≠ some (.link target)) :
    Config.readIgnoreFile d' (pathOf source) = Config.readIgnoreFile d (pathOf source) := by
  let loc : Location := source ++ [Bytes.ofString Defaults.ignoreFile]
  have hplain' : d.IsPlain loc := by
    intro q hq target
    rcases List.prefix_concat_iff.mp hq with rfl | hq
    · exact hunlinked _ target (List.prefix_append source _)
    · exact hplain q hq target
  have hagree : AgreeTo d d' loc := by
    intro q hq
    rcases List.prefix_or_prefix_of_prefix hq (List.prefix_append source _) with hq | hq
    · exact (h q (.inl hq)).symm
    · exact (h q (.inr hq)).symm
  rw [Config.readIgnoreFile, Config.readIgnoreFile, readText, readText,
    (spells_ignoreFile hsource).read_congr hplain' hagree]

/-- **What a walk sees of a source tree** when what it passes over lies beside the tree. -/
theorem entries_eq {skip : List Location} (h : KeptAround source d d') (hsource : IsDescent source)
    (hplain : d.IsPlain source)
    (hunlinked : ∀ x target, source <+: x → d.get? x ≠ some (.link target))
    (hskip : ∀ s ∈ skip, Apart s source) :
    d'.tour (admitsSource d' source skip (Build.rules c d' source)) source = c.entries d source := by
  have hrules : Build.rules c d' source = Build.rules c d source := by
    rw [Build.rules, Build.rules, readIgnoreFile_eq h hsource hplain hunlinked]
  rw [hrules, Config.entries]
  refine tour_congr (fun x hx => ?_) fun x hx => ?_
  · have hnone : skip.any (isBelow · x) = false := by
      refine any_isBelow_eq_false_iff.mpr fun s hs hbelow => ?_
      rcases List.prefix_or_prefix_of_prefix hbelow hx with hin | hin
      · exact (hskip s hs).1 hin
      · exact (hskip s hs).2 hin
    have hkind : isDirectoryAt d'.table x = isDirectoryAt d.table x :=
      congrArg (Option.any _) (h x (.inr hx))
    rw [admitsSource, admitsSource, hnone, hkind, List.any_nil]
  · rw [h x (.inr hx.below)]

theorem below_of_mem_entries (hx : x ∈ c.entries d source) : source <+: x := (mem_tour.mp hx).1.below

/-- The entries that a generation from the source tree meets on a disk with the directory of the project:
    neither the project nor the template root, nor what lies in them, nor what is left out. -/
def Config.met (c : Config) (d : Disk) (source root : Location) : List Location :=
  d.tour (admitsSource d source (root :: (d.reach c.templateRoot).toOption.toList)
    (Build.rules c d source)) source

/-- What a generation does that makes a project with one name from a source tree with another. -/
def Config.recipeBetween (c : Config) (sourceName targetName : String) (values : Values) : Recipe :=
  c.scaffoldRecipe (c.rules.extend (deriveRules sourceName targetName)) values

/-- The source tree, as both ways find it. -/
structure Config.Finds (c : Config) (d : Disk) (source : Location) : Prop where
  found : d.reach c.sourceRoot = .ok source
  unlinked : ∀ x target, source <+: x → d.get? x ≠ some (.link target)

namespace Config.Finds

variable (h : c.Finds w.disk source)

include h

/-- **The template** that is built at a fresh root. -/
theorem products_of_build {template : Path} {now : Timestamp} {report : BuildReport}
    (hp : w.disk.absolute template = .ok p) (htop : w.disk.Fresh source p top)
    (hbuild : (buildTemplate c template now).run w = .ok report w') :
    ∃ products, c.recipe.products? w.disk source top (c.entries w.disk source) = some products ∧
      ∃ d, Filled top (products ++ [Build.description c now top products]) d w'.disk := by
  obtain ⟨source', p', top', ignored, ws, ww, hsource, hstart, hwalk, hsave⟩ :=
    buildTemplate_eq_ok hbuild
  obtain rfl := Except.ok.inj (h.found.symm.trans hsource)
  obtain rfl := Except.ok.inj (hp.symm.trans hstart.named)
  obtain ⟨e, he, hkind⟩ := exists_unlinked_of_reach h.found
  have hmade := hstart.made
  rw [htop.cleared_eq] at hmade
  obtain rfl := (htop.eq_of_made hmade hstart.found).symm
  have hkept := htop.keptAround hmade he
  have hsource := isDescent_of_get? he
  have hplain := isPlain_of_get? he hkind
  obtain ⟨products, hproducts, -, hfilled⟩ :=
    Build.built_of_unlinked_walk (htop.filled hmade hstart.found) hsource
      (isPlain_of_get? ((hkept source (.inl (List.prefix_refl source))).trans he) hkind)
      (fun x target hx => by rw [hkept x (.inr hx)]; exact h.unlinked x target hx)
      (htop.not_below he (List.prefix_refl source)) hwalk
  refine ⟨products, ?_, ws.disk, Build.filled_of_save hfilled hsave⟩
  rw [Build.visited, entries_eq hkept hsource hplain h.unlinked] at hproducts
  · rw [← hproducts]
    exact Recipe.products?_congr fun x hx => (hkept x (.inr (below_of_mem_entries hx))).symm
  · intro s hs
    rw [List.mem_singleton.mp hs]
    exact ⟨htop.not_below he (List.prefix_refl source), htop.apart⟩

/-- **A generation from the source tree** into a new project.  `d` is the disk on which the directory of
    the project was made, with all that had to be made on the way. -/
theorem products_of_source {output : Path} {resolver : Variables → Resolution} {values : Values}
    {config : Option Path} {report : GenerateReport}
    (hvalues : (resolver c.declared).result = .ok values)
    (hpath : (w.disk.absolute output).map (projectOutput · values) = .ok p)
    (hroot : w.disk.AimsAtFree p root)
    (hrun : (scaffold c output resolver config).run w = .ok report w') :
    ∃ d, ∃ ww : World, w.disk.makeDirectories p = (d, .ok ()) ∧ d.find true p = .ok root ∧
      (∀ before, Filled root before d d → ∃ products,
        (c.recipeBetween (Generate.lastName (pathOf source)) (Generate.lastName p) values).products? d
          source root (c.met d source root) = some products ∧
        report = .ofProducts (pathOf root) products ∧ Filled root (before ++ products) d ww.disk) ∧
      ∀ x, copiedTo root config ≠ some x → w'.disk.get? x = ww.disk.get? x := by
  obtain ⟨values', path', source', root', ignored, ws, ww, hsource, hstart, hwalk, hconfig⟩ :=
    scaffold_eq_ok hrun
  obtain rfl := Except.ok.inj (h.found.symm.trans hsource)
  obtain rfl := Except.ok.inj (hvalues.symm.trans hstart.resolved)
  obtain rfl := Except.ok.inj (hpath.symm.trans hstart.named)
  obtain ⟨e, he, hkind⟩ := exists_unlinked_of_reach h.found
  obtain rfl := (hroot.eq_of_made hstart.made hstart.found).symm
  have hgrown := (grown_of_makeDirectories_aim hstart.made).2
  -- the source tree is there, and so outside of the project
  have hout : ¬ root <+: source := not_below_of_free hroot.free he
  have hunlinked : ∀ x target, source <+: x → ws.disk.get? x ≠ some (.link target) :=
    fun x target hx hlink => h.unlinked x target hx (hgrown.of_link hlink)
  have hmade := filled_of_aimsAtFree hstart.made hstart.found hroot.free
  rw [Generate.skip_eq] at hwalk
  have hwalked : ∀ before, Filled root before ws.disk ws.disk →
      Generate.GeneratedBeside before
        (c.recipeBetween (Generate.lastName (pathOf source)) (Generate.lastName p) values) ws.disk
        source root (c.met ws.disk source root) report ww := fun before hbefore =>
    Generate.generated_of_unlinked_walkSource (c.rules.merged_extend _) hbefore (isDescent_of_get? he)
      (isPlain_of_get? (hgrown.get?_of_some he) hkind) hunlinked hout
      (fun s => Generate.isDescent_of_mem_skip hmade.rooted) List.mem_cons_self hwalk
  obtain ⟨_, _, _, hfilled⟩ := hwalked _ hmade
  exact ⟨ws.disk, ww, hstart.made, hstart.found, hwalked, fun x hx =>
    get?_of_copyConfig (isDescent_of_isDirectoryAt hfilled.rooted) (fun y => hfilled.isPlain) hconfig hx⟩

/-- **The project** that is made from the source tree at once, at a fresh root of the same name. -/
theorem products_of_scaffold {output : Path} {resolver : Variables → Resolution} {values : Values}
    {config : Option Path} {report : GenerateReport} (hrules : c.rules.IsSorted)
    (hvalues : (resolver c.declared).result = .ok values)
    (hpath : (w.disk.absolute output).map (projectOutput · values) = .ok p)
    (hname : Generate.lastName (pathOf source) = Generate.lastName p)
    (hroot : w.disk.Fresh source p root)
    (htemplate : ∀ s, w.disk.AimsAt c.templateRoot s → Apart s source)
    (hrun : (scaffold c output resolver config).run w = .ok report w') :
    ∃ products, (c.scaffoldRecipe c.rules values).products? w.disk source root
        (c.entries w.disk source) = some products ∧
      ∃ d, ∃ ww : World, Filled root products d ww.disk ∧
        ∀ x, copiedTo root config ≠ some x → w'.disk.get? x = ww.disk.get? x := by
  obtain ⟨d, ww, hmade, hfound, hwalked, hcopied⟩ :=
    h.products_of_source hvalues hpath hroot.toAimsAtFree hrun
  obtain ⟨e, he, hkind⟩ := exists_unlinked_of_reach h.found
  obtain ⟨hhere, hgrown⟩ := grown_of_makeDirectories_aim hmade
  have hkept := hroot.keptAround hmade he
  obtain ⟨products, hproducts, -, hfilled⟩ := hwalked [] (hroot.filled hmade hfound)
  refine ⟨products, ?_, d, ww, hfilled, hcopied⟩
  -- no rules are derived
  rw [← hname, Config.recipeBetween, deriveRules_self, hrules.extend_nothing, Config.met,
    entries_eq hkept (isDescent_of_get? he) (isPlain_of_get? he hkind) h.unlinked] at hproducts
  · rw [← hproducts]
    exact Recipe.products?_congr fun x hx => (hkept x (.inr (below_of_mem_entries hx))).symm
  · -- the walk passes over the project and over the template root
    intro s hs
    rcases List.mem_cons.mp hs with rfl | hs
    · exact ⟨hroot.not_below he (List.prefix_refl source), hroot.apart⟩
    · have hreach : d.reach c.templateRoot = .ok s := mem_toList_reach.mp hs
      exact htemplate s (aimsAt_of_leadsTo hgrown hhere (leadsTo_of_reach hreach) (.inl rfl))

end Config.Finds

end Stencil
