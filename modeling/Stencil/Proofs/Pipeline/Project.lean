/-
  A project that is generated from a template that was built.

  The generation knows the configuration by the description alone, and that is what the build has saved.
  So its recipe is one of the configuration (`Config.projectRecipe`), and the project is the tree of what
  is visited in the template (`products_of_generate`).  A file of the template that is visited has its
  product, and the product is found at its place if no two files go there (`get?_of_file`).
-/
import Stencil.Proofs.Build.Image
import Stencil.Proofs.Pipeline.Products
import Stencil.Proofs.Pipeline.Roots

namespace Stencil

open Disk Walk

namespace Build

variable {c : Config} {now : Timestamp} {top t : Location} {products : List Product} {d d' : Disk}

/-- The description is in the template, whatever else is. -/
theorem get?_description
    (h : Filled top (products ++ [description c now top products]) d d') :
    ∃ mode, d'.get? (top ++ [Bytes.ofString Defaults.metadataFile]) =
      some (.file mode (Bytes.ofString (Metadata.ofConfig c now).print)) := by
  let loc : Location := top ++ [Bytes.ofString Defaults.metadataFile]
  have hat : Product.fileAt? (products ++ [description c now top products]) loc =
      some (description c now top products).entry := by
    rw [Product.fileAt?_concat, if_pos]
    simp [description, Product.isFile, Product.isCopied, Product.isRendered, Product.location, loc]
  exact ⟨_, (h.inside loc (List.prefix_append top _)).trans (image_of_fileAt? hat)⟩

/-- In any other place of the template there is what was put there before the description. -/
theorem fileAt?_description (ht : t ≠ top ++ [Bytes.ofString Defaults.metadataFile]) :
    Product.fileAt? (products ++ [description c now top products]) t =
      Product.fileAt? products t := by
  rw [Product.fileAt?_concat, if_neg]
  simp [description, Product.location, Ne.symm ht]

end Build

/-- What a generation does with an entry of the template of a configuration. -/
def Config.projectRecipe (c : Config) (values : Values) : Recipe where
  globs := PatternSet.read c.staticGlobs
  place := c.delimiters.render values
  render := c.delimiters.renderBytes values

namespace Generate

variable {c : Config} {now : Timestamp} {values : Values} {w w' : World} {top root t : Location}
  {d d' : Disk} {before products : List Product} {mode : Mode} {content : Bytes} {e : Entry}
  {P : Location → Prop}

theorem recipe_eq {m : Metadata} {time : Timestamp}
    (h : m = { delimiters := c.delimiters.normalized, declared := c.declared,
               staticFiles := c.staticGlobs, generatedAt := time }) :
    m.recipe values = c.projectRecipe values := by
  have hrender : c.delimiters.normalized.render values = c.delimiters.render values := by
    funext text
    rw [Delimiters.render, Delimiters.render, Delimiters.normalized_normalized]
  have hbytes : c.delimiters.normalized.renderBytes values = c.delimiters.renderBytes values := by
    funext text
    rw [Delimiters.renderBytes, Delimiters.renderBytes, Delimiters.normalized_normalized]
  rw [h, Metadata.recipe, Config.projectRecipe, hrender, hbytes]

/-- **The project of a template that was built**, whatever directories were made in its place on the
    way. -/
theorem products_of_generate {template output path : Path} {resolver : Variables → Resolution}
    {config : Option Path} {report : GenerateReport} (hfound : w.disk.find true template = .ok top)
    (hunlinked : ∀ x target, top <+: x → w.disk.get? x ≠ some (.link target))
    (hsaved : w.disk.get? (top ++ [Bytes.ofString Defaults.metadataFile]) =
      some (.file mode (Bytes.ofString (Metadata.ofConfig c now).print)))
    (hvalues : (resolver c.declared).result = .ok values)
    (hpath : (w.disk.absolute output).map (projectOutput · values) = .ok path)
    (hroot : w.disk.AimsAtFree path root)
    (hgenerate : (generate template output resolver config).run w = .ok report w') :
    ∃ d, ∃ ww : World, w.disk.makeDirectories path = (d, .ok ()) ∧ d.find true path = .ok root ∧
      (∀ before, Filled root before d d → ∃ products,
        (c.projectRecipe values).products? d top root (visited d top root) = some products ∧
          Filled root (before ++ products) d ww.disk) ∧
      ∀ x, copiedTo root config ≠ some x → w'.disk.get? x = ww.disk.get? x := by
  obtain ⟨m, values', path', top', root', ws, ww, hload, hfound', hstart, hwalk, hconfig⟩ :=
    generate_eq_ok hgenerate
  rw [hfound] at hfound'
  obtain rfl := Except.ok.inj hfound'
  obtain ⟨time, hm⟩ := eq_of_load hfound hsaved hload
  have hdeclared : m.declared = c.declared := by rw [hm]
  have hstatic : m.staticFiles = c.staticGlobs := by rw [hm]
  have hvalues' := hstart.resolved
  rw [hdeclared, hvalues] at hvalues'
  obtain rfl := Except.ok.inj hvalues'
  have hpath' := hstart.named
  rw [hpath] at hpath'
  obtain rfl := Except.ok.inj hpath'
  obtain rfl := (hroot.eq_of_made hstart.made hstart.found).symm
  have hgrown := (grown_of_makeDirectories_aim hstart.made).2
  -- the template is there, and so outside of the project
  obtain ⟨e, he, hkind⟩ := exists_unlinked_of_find hfound
  have hout : ¬ root <+: top := not_below_of_free hroot.free he
  have hunlinked' : ∀ x target, top <+: x → admits top root x = true →
      ws.disk.get? x ≠ some (.link target) :=
    fun x target hx _ hlink => hunlinked x target hx (hgrown.of_link hlink)
  have hwalked : ∀ before, Filled root before ws.disk ws.disk →
      GeneratedBeside before (c.projectRecipe values) ws.disk top root (visited ws.disk top root)
        report ww := by
    intro before hbefore
    rw [← recipe_eq hm]
    exact generated_of_unlinked_walk hbefore hunlinked' (isDescent_of_get? he)
      (isPlain_of_get? (hgrown.get?_of_some he) hkind) hout hwalk
  obtain ⟨_, _, _, hfilled⟩ :=
    hwalked _ (filled_of_aimsAtFree hstart.made hstart.found hroot.free)
  refine ⟨ws.disk, ww, hstart.made, hstart.found, fun before hbefore => ?_, fun x hx =>
    get?_of_copyConfig (isDescent_of_isDirectoryAt hfilled.rooted) (fun y => hfilled.isPlain) hconfig hx⟩
  obtain ⟨products, hproducts, -, hfilled⟩ := hwalked before hbefore
  exact ⟨products, hproducts, hfilled⟩

/-- Whatever lies in a template is visited, but for its description, when the project is new. -/
theorem mem_visited_of_get? (hdescription :
      d.get? (top ++ [Bytes.ofString Defaults.metadataFile]) = some (.file mode content))
    (hfree : d.get? root = none) (ht : d.get? t = some e) (hbelow : top <+: t) (hne : t ≠ top)
    (hother : t ≠ top ++ [Bytes.ofString Defaults.metadataFile]) : t ∈ visited d top root := by
  refine mem_tour.mpr ⟨⟨hbelow, hne, fun q hq hbetween hqne => ?_⟩, e, ht⟩
  rw [admits, Bool.and_eq_true, bne_iff_ne, Bool.not_eq_true']
  constructor
  · -- nothing lies below the description, which is a file
    rintro rfl
    have hdirectory := isDirectoryAt_above ht hq fun heq => hother heq.symm
    obtain ⟨mode', hmode⟩ := isDirectoryAt_iff.mp hdirectory
    rw [hdescription] at hmode
    cases hmode
  · rw [← Bool.not_eq_true, isBelow_iff]
    exact fun hinside => not_below_of_free hfree ht (hinside.trans hq)

/-- The files of a template that are visited. -/
def visitedFiles (d : Disk) (template top : Location) : List Location :=
  (visited d template top).filter fun x => !isDirectoryAt d.table x

/-- The files that are visited are there before the directories of the project are made. -/
theorem mem_visitedFiles_of_grown (hgrown : Grown P d d') (ht : t ∈ visitedFiles d' top root) :
    t ∈ visitedFiles d top root := by
  obtain ⟨hvisited, hfile⟩ := List.mem_filter.mp ht
  obtain ⟨hadmitted, e, he⟩ := mem_tour.mp hvisited
  rcases hgrown t with hsame | ⟨-, -, hnew⟩
  · have hkind : isDirectoryAt d.table t = isDirectoryAt d'.table t := by
      rw [isDirectoryAt_of_get? he, isDirectoryAt_of_get? (hsame ▸ he)]
    exact List.mem_filter.mpr ⟨mem_tour.mpr ⟨hadmitted, e, hsame ▸ he⟩, by rw [hkind]; exact hfile⟩
  · rw [isDirectoryAt_of_get? hnew] at hfile
    cases hfile

/-- **A file of the template becomes a file of the project**, by the recipe, if no two files go to the
    same place. -/
theorem get?_of_file {r : Recipe} (hgrown : Grown P d d')
    (hdirs : ∀ q ∈ before, q.isFile = false)
    (hproducts : r.products? d' top root (visited d' top root) = some products)
    (hfilled : Filled root (before ++ products) d' w'.disk)
    (hseparates : r.Separates top root (visitedFiles d top root))
    (ht : t ∈ visited d top root) (hfile : d.get? t = some (.file mode content)) :
    ∃ relative y, relativePath (pathOf top) (pathOf t) = .ok relative ∧
      r.target? top root t = some y ∧
      w'.disk.get? y = some (.file mode (r.bytes relative content)) := by
  have hfile' : d'.get? t = some (.file mode content) := hgrown.get?_of_some hfile
  have ht' : t ∈ visited d' top root := mem_tour.mpr ⟨(mem_tour.mp ht).1, _, hfile'⟩
  have hseparates' : r.Separates top root (visitedFiles d' top root) := fun x hx y hy =>
    hseparates x (mem_visitedFiles_of_grown hgrown hx) y (mem_visitedFiles_of_grown hgrown hy)
  obtain ⟨p, -, hproduct⟩ := Recipe.exists_mem_products? hproducts ht'
  obtain ⟨relative, _, hrelative, htarget, -, -⟩ := Recipe.product?_eq_some hproduct
  refine ⟨relative, p.location, hrelative, htarget, ?_⟩
  have hat : Product.fileAt? products p.location = some (.file mode (r.bytes relative content)) :=
    (Recipe.fileAt?_eq_some_iff hproducts hseparates').mpr
      ⟨t, ht', relative, mode, content, hfile', hrelative, htarget, rfl⟩
  obtain ⟨_, _, _, hbelow⟩ :=
    Recipe.target?_eq_some (isDescent_of_isDirectoryAt hfilled.rooted) htarget
  rw [hfilled.inside _ hbelow]
  refine image_of_fileAt? ?_
  rw [Product.fileAt?_append hdirs, hat]

end Generate

end Stencil
