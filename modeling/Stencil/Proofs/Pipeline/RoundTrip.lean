/-
  A source tree that a configuration does not touch.

  Where no rule fits a path, and neither a text to be replaced nor the opening delimiter stands in a path
  or in a file, a source tree comes through a template into the project as it is.

  1. **One walk.**  A recipe that leaves the entries alone (`Recipe.Leaves`) gives each of them its own
     names, so no two go to one place, and what comes of the walk is a copy of them (`image_eq_copyOf`).
  2. **Both phases.**  The recipe of the build leaves the source tree alone (`leaves_source`).  So the
     template is a copy, and what lies in it has the paths and the bytes of the source tree; the recipe of
     the generation leaves them alone as well (`leaves_template`).
  3. **The project** is a copy of a copy, and that is a copy (`project_eq_copyOf`).

  A file is copied with its bytes and permission bits.  Of a directory a copy has that it is one: the
  permission bits are those of a new directory.
-/
import Stencil.Proofs.Pipeline.Agreement
import Stencil.Proofs.Rename.Segments
import Stencil.Proofs.Replacement.Gaps

namespace Stencil

open Disk Walk

/-- An entry as it lies in a copy. -/
def Entry.copied : Entry → Entry
  | .directory _ => .directory Entry.directoryMode
  | e => e

/-- A copy of a copy is the copy: the bits of a directory are those of a new one already. -/
@[simp] theorem Entry.copied_copied (e : Entry) : e.copied.copied = e.copied := by
  cases e <;> rfl

/-- What a copy of the chosen entries has in the place of the entry at a location. -/
def Disk.copyOf (d : Disk) (xs : List Location) (x : Location) : Option Entry :=
  if x ∈ xs then (d.get? x).map Entry.copied else none

variable {c : Config} {values : Values} {now : Timestamp} {d d₂ : Disk} {r : Recipe}
  {source top root x t : Location} {xs : List Location} {products built rendered : List Product}
  {e : Entry} {mode : Mode} {content : Bytes} {relative : String} {steps : List Name}
  {admits : Location → Bool}

namespace Disk

theorem copyOf_of_mem (hx : x ∈ xs) (he : d.get? x = some e) : d.copyOf xs x = some e.copied := by
  rw [copyOf, if_pos hx, he, Option.map_some]

theorem copyOf_of_not_mem (hx : x ∉ xs) : d.copyOf xs x = none := if_neg hx

/-- What lies in a copy is the copy of what lay there. -/
theorem exists_of_copyOf (h : d.copyOf xs x = some e) :
    x ∈ xs ∧ ∃ e', d.get? x = some e' ∧ e'.copied = e := by
  rw [copyOf] at h
  split at h
  · exact ⟨‹_›, Option.map_eq_some_iff.mp h⟩
  · cases h

/-- Copying again changes nothing about a copy. -/
theorem map_copied_copyOf (d : Disk) (xs : List Location) (x : Location) :
    (d.copyOf xs x).map Entry.copied = d.copyOf xs x := by
  rw [copyOf]
  split
  · rw [Option.map_map]
    exact congrArg (Option.map · (d.get? x)) (funext Entry.copied_copied)
  · rfl

/-- Above what a tour visits it visits what lies between. -/
theorem mem_tour_above (hx : x ∈ d.tour admits source) (habove : source ++ steps <+: x)
    (hsteps : steps ≠ []) : source ++ steps ∈ d.tour admits source := by
  obtain ⟨hadmitted, e, he⟩ := mem_tour.mp hx
  refine mem_tour.mpr ⟨⟨List.prefix_append source steps, ?_, fun q hq hbelow hne => ?_⟩, ?_⟩
  · simpa using hsteps
  · exact hadmitted.way q (hq.trans habove) hbelow hne
  · by_cases heq : source ++ steps = x
    · exact ⟨e, heq ▸ he⟩
    · obtain ⟨mode, hmode⟩ := isDirectoryAt_iff.mp (isDirectoryAt_above he habove heq)
      exact ⟨_, hmode⟩

end Disk

/-! ## One walk -/

/-- The recipe changes neither the paths of the entries, which are texts, nor the bytes of the files. -/
structure Recipe.Leaves (r : Recipe) (d : Disk) (source : Location) (xs : List Location) : Prop where
  texts : ∀ steps, source ++ steps ∈ xs → ∀ name ∈ steps, Path.IsText name
  place : ∀ x ∈ xs, ∀ relative, relativePath (pathOf source) (pathOf x) = .ok relative →
    r.place relative = relative
  render : ∀ x ∈ xs, ∀ mode content, d.get? x = some (.file mode content) → r.render content = content

namespace Recipe.Leaves

variable (h : r.Leaves d source (d.tour admits source))

include h

/-- The text of the place of an entry. -/
theorem exists_relativePath (hx : source ++ steps ∈ d.tour admits source) : ∃ relative,
    relativePath (pathOf source) (pathOf (source ++ steps)) = .ok relative ∧
      Bytes.ofString relative = List.intercalate [Bytes.slash] steps ∧ IsDescent steps := by
  obtain ⟨-, e, he⟩ := mem_tour.mp hx
  have hdescent := isDescent_of_get? he
  have hsource : IsDescent source := fun n hn => hdescent n (List.mem_append_left steps hn)
  have hsteps : IsDescent steps := fun n hn => hdescent n (List.mem_append_right source hn)
  obtain ⟨relative, hrelative, hspelled⟩ := relativePath_eq hsource hsteps (h.texts steps hx)
  exact ⟨relative, hrelative, hspelled, hsteps⟩

/-- An entry keeps its names. -/
theorem names_eq (hx : source ++ steps ∈ d.tour admits source)
    (hrelative : relativePath (pathOf source) (pathOf (source ++ steps)) = .ok relative) :
    r.names relative = steps := by
  obtain ⟨relative', hrelative', hspelled, hsteps⟩ := h.exists_relativePath hx
  obtain rfl := Except.ok.inj (hrelative.symm.trans hrelative')
  rw [Recipe.names, h.place _ hx relative hrelative]
  exact names_of_ofString_eq hsteps hspelled

/-- A file keeps its bytes, be it copied or rendered. -/
theorem bytes_eq (hx : x ∈ d.tour admits source) (hfile : d.get? x = some (.file mode content)) :
    r.bytes relative content = content := by
  rw [Recipe.bytes, h.render x hx mode content hfile, ite_self]

/-- An entry of a tour is named by the steps to it. -/
theorem exists_steps (hx : x ∈ d.tour admits source)
    (hrelative : relativePath (pathOf source) (pathOf x) = .ok relative) :
    x = source ++ r.names relative := by
  obtain ⟨steps, rfl⟩ := (mem_tour.mp hx).1.below
  rw [h.names_eq hx hrelative]

variable (htop : IsDescent top)
  (hproducts : r.products? d source top (d.tour admits source) = some products)

include htop hproducts

/-- Where names stay, no two files come to one place. -/
theorem separates : r.Separates source top
    ((d.tour admits source).filter fun x => !isDirectoryAt d.table x) := by
  intro x hx y hy heq
  have hx' := List.mem_of_mem_filter hx
  have hy' := List.mem_of_mem_filter hy
  obtain ⟨p, hp, -, hxt⟩ := Recipe.exists_target? htop hproducts hx'
  obtain ⟨q, hq, -, hyt⟩ := Recipe.exists_target? htop hproducts hy'
  rw [hxt, hyt, Option.some.injEq, List.append_cancel_left_eq] at heq
  rw [h.exists_steps hx' hp, h.exists_steps hy' hq, heq]

/-- The files of the walk are those of the tour. -/
theorem fileAt?_eq_some_iff : Product.fileAt? products (top ++ steps) = some e ↔
    source ++ steps ∈ d.tour admits source ∧ d.get? (source ++ steps) = some e ∧
      ∃ mode content, e = .file mode content := by
  rw [Recipe.fileAt?_append_eq_some_iff htop hproducts (h.separates htop hproducts)]
  constructor
  · rintro ⟨x, hx, relative, mode, content, hfile, hrelative, rfl, rfl⟩
    obtain rfl := h.exists_steps hx hrelative
    rw [h.bytes_eq hx hfile]
    exact ⟨hx, hfile, mode, content, rfl⟩
  · rintro ⟨hx, he, mode, content, rfl⟩
    obtain ⟨relative, hrelative, -⟩ := h.exists_relativePath hx
    refine ⟨_, hx, relative, mode, content, he, hrelative, h.names_eq hx hrelative, ?_⟩
    rw [h.bytes_eq hx he]

/-- Something is put at a place or below where something is met in the tour. -/
theorem exists_below_iff (hsteps : steps ≠ []) :
    (∃ p ∈ products, top ++ steps <+: p.location) ↔ source ++ steps ∈ d.tour admits source := by
  rw [Recipe.exists_below_iff htop hproducts]
  constructor
  · rintro ⟨x, hx, relative, hrelative, hbelow⟩
    refine mem_tour_above hx ?_ hsteps
    rw [h.exists_steps hx hrelative]
    exact (List.prefix_append_right_inj source).mpr hbelow
  · intro hx
    obtain ⟨relative, hrelative, -⟩ := h.exists_relativePath hx
    refine ⟨_, hx, relative, hrelative, ?_⟩
    rw [h.names_eq hx hrelative]

/-- **What comes of a walk that leaves the entries alone is a copy of them.** -/
theorem image_eq_copyOf (hsteps : steps ≠ []) :
    image top products (top ++ steps) = d.copyOf (d.tour admits source) (source ++ steps) := by
  have hthere : (∃ e, image top products (top ++ steps) = some e) ↔ _ := exists_image_iff
  rw [h.exists_below_iff htop hproducts hsteps, List.append_right_eq_self, or_iff_right hsteps] at hthere
  by_cases hx : source ++ steps ∈ d.tour admits source
  · obtain ⟨e', he'⟩ := hthere.mpr hx
    obtain ⟨-, e, he⟩ := mem_tour.mp hx
    rw [copyOf_of_mem hx he]
    cases e with
    | file mode content =>
      exact image_of_fileAt? ((h.fileAt?_eq_some_iff htop hproducts).mpr ⟨hx, he, mode, content, rfl⟩)
    | directory mode =>
      cases e' with
      | directory mode' =>
        rw [he', (mode_of_image he').2]
        rfl
      | file mode' content =>
        obtain ⟨-, he₁, -⟩ := (h.fileAt?_eq_some_iff htop hproducts).mp (fileAt?_of_image he')
        rw [he] at he₁
        cases he₁
      | link target => exact absurd he' (image_ne_link target)
    | link target =>
      obtain ⟨p, -, hproduct⟩ := Recipe.exists_mem_products? hproducts hx
      obtain ⟨_, e, -, -, he₁, hcook⟩ := Recipe.product?_eq_some hproduct
      obtain rfl := Option.some.inj (he.symm.trans he₁)
      cases hcook
  · rw [copyOf_of_not_mem hx, Option.eq_none_iff_forall_ne_some]
    exact fun e he => hx (hthere.mp ⟨e, he⟩)

end Recipe.Leaves

/-! ## Both phases -/

/-- The configuration touches nothing of a source tree whose names are texts, and nothing in the tree has
    the place of the description. -/
structure Config.Spares (c : Config) (d : Disk) (source : Location) : Prop where
  texts : ∀ steps, source ++ steps ∈ c.entries d source → ∀ name ∈ steps, Path.IsText name
  undescribed : source ++ [Bytes.ofString Defaults.metadataFile] ∉ c.entries d source
  unrenamed : ∀ x ∈ c.entries d source, ∀ relative,
    relativePath (pathOf source) (pathOf x) = .ok relative →
      ∀ rule ∈ c.rules.renames, rule.renamed? relative.toList = none
  unmarked : ∀ x ∈ c.entries d source, ∀ relative,
    relativePath (pathOf source) (pathOf x) = .ok relative →
      ¬ Bytes.ofString c.delimiters.normalized.opening <:+: Bytes.ofString relative
  unreplaced : ∀ x ∈ c.entries d source, ∀ mode content, d.get? x = some (.file mode content) →
    ∀ r ∈ c.rules.replacements, r.find ≠ "" → ¬ Bytes.ofString r.find <:+: content
  unrendered : ∀ x ∈ c.entries d source, ∀ mode content, d.get? x = some (.file mode content) →
    ¬ Bytes.ofString c.delimiters.normalized.opening <:+: content

namespace Config.Spares

variable (h : c.Spares d source)

include h

/-- The build leaves the source tree alone. -/
theorem leaves_source : c.recipe.Leaves d source (c.entries d source) where
  texts := h.texts
  place := fun x hx relative hrelative => rename_of_none (h.unrenamed x hx relative hrelative)
  render := fun x hx mode content hfile =>
    Replacement.applyReplacements_of_absent (h.unreplaced x hx mode content hfile)

variable (hpassage : Passage c values now d d₂ source top root built rendered)

include hpassage

/-- **The template is a copy** of the source tree, beside its description. -/
theorem get?_template_eq (hsteps : steps ≠ [])
    (hother : steps ≠ [Bytes.ofString Defaults.metadataFile]) :
    d₂.get? (top ++ steps) = d.copyOf (c.entries d source) (source ++ steps) := by
  have hinside : image top built (top ++ steps) =
      d.copyOf (c.entries d source) (source ++ steps) :=
    h.leaves_source.image_eq_copyOf (isDescent_of_isDirectoryAt hpassage.rooted) hpassage.fromSource
      hsteps
  rw [← hinside]
  refine get?_template hpassage.template (List.prefix_append top steps) (by simpa using hsteps) ?_
  exact fun heq => hother (List.append_cancel_left heq)

/-- What is visited in the template is an entry of the source tree. -/
theorem exists_entry_of_visited (ht : top ++ steps ∈ Generate.visited d₂ top root) :
    source ++ steps ∈ c.entries d source ∧ ∃ e, d.get? (source ++ steps) = some e ∧
      d₂.get? (top ++ steps) = some e.copied := by
  obtain ⟨-, hne, hother, e, he⟩ := (hpassage.visited _).mp ht
  have hsteps : steps ≠ [] := by simpa using hne
  have hcopy := h.get?_template_eq hpassage hsteps fun heq => hother (congrArg (top ++ ·) heq)
  rw [he] at hcopy
  obtain ⟨hx, e', he', rfl⟩ := exists_of_copyOf hcopy.symm
  exact ⟨hx, e', he', he⟩

/-- The generation leaves the template alone: the paths and the bytes there are those of the source
    tree. -/
theorem leaves_template :
    (c.projectRecipe values).Leaves d₂ top (Generate.visited d₂ top root) where
  texts := fun steps ht => h.texts steps (h.exists_entry_of_visited hpassage ht).1
  place := by
    intro t ht relative hrelative
    obtain ⟨steps, rfl⟩ := ((hpassage.visited t).mp ht).1
    obtain ⟨hx, -⟩ := h.exists_entry_of_visited hpassage ht
    obtain ⟨before, hbefore, hspelled, hdescent⟩ := h.leaves_source.exists_relativePath hx
    -- the names of the entry spell the same text in both trees
    obtain ⟨after, hafter, hspelled'⟩ :=
      relativePath_eq (isDescent_of_isDirectoryAt hpassage.rooted) hdescent (h.texts steps hx)
    obtain rfl := Except.ok.inj (hrelative.symm.trans hafter)
    obtain rfl := Bytes.ofString_injective (hspelled.trans hspelled'.symm)
    exact Delimiters.render_of_absent values (h.unmarked _ hx _ hbefore)
  render := by
    intro t ht mode content hfile
    obtain ⟨steps, rfl⟩ := ((hpassage.visited t).mp ht).1
    obtain ⟨hx, e, he, hcopy⟩ := h.exists_entry_of_visited hpassage ht
    rw [hfile] at hcopy
    cases e with
    | file mode' content' =>
      cases hcopy
      exact Delimiters.renderBytes_of_absent values (h.unrendered _ hx mode content he)
    | directory mode' => cases hcopy
    | link target => cases hcopy

/-- **What comes of the template is a copy of the source tree.** -/
theorem image_eq_copyOf (hroot : IsDescent root) (hsteps : steps ≠ []) :
    image root rendered (root ++ steps) = d.copyOf (c.entries d source) (source ++ steps) := by
  have hagain : image root rendered (root ++ steps) =
      d₂.copyOf (Generate.visited d₂ top root) (top ++ steps) :=
    (h.leaves_template hpassage).image_eq_copyOf hroot hpassage.fromTemplate hsteps
  rw [hagain]
  by_cases hother : steps = [Bytes.ofString Defaults.metadataFile]
  · -- the description is not visited, and nothing of the source tree has its place
    subst hother
    rw [copyOf_of_not_mem h.undescribed]
    exact copyOf_of_not_mem fun ht => ((hpassage.visited _).mp ht).2.2.1 rfl
  · have hcopy := h.get?_template_eq hpassage hsteps hother
    by_cases ht : top ++ steps ∈ Generate.visited d₂ top root
    · rw [copyOf, if_pos ht, hcopy, map_copied_copyOf]
    · rw [copyOf_of_not_mem ht, ← hcopy, eq_comm, Option.eq_none_iff_forall_ne_some]
      intro e he
      refine ht ((hpassage.visited _).mpr ⟨List.prefix_append top steps, by simpa using hsteps, ?_, e, he⟩)
      exact fun heq => hother (List.append_cancel_left heq)

end Config.Spares

/-- The copy of the configuration lies in the project. -/
theorem copiedTo_ne_root {config : Option Path} : copiedTo root config ≠ some root := by
  intro heq
  obtain ⟨name, -, hname⟩ := Option.map_eq_some_iff.mp heq
  exact List.cons_ne_nil name [] (List.append_right_eq_self.mp hname)

/-- **A tree that the configuration does not touch goes through both phases unchanged**: the project
    holds a copy of each entry of the source tree that the rules do not leave out, and beside these and
    a copy of the configuration nothing. -/
theorem project_eq_copyOf {template template' output p path : Path} {resolver : Variables → Resolution}
    {config : Option Path} {buildReport : BuildReport} {report : GenerateReport} {w w₁ w₂ : World}
    (hsource : c.Finds w.disk source) (hspares : c.Spares w.disk source)
    (hp : w.disk.absolute template = .ok p) (htop : w.disk.Fresh source p top)
    (hbuild : (buildTemplate c template now).run w = .ok buildReport w₁)
    (hfound : w₁.disk.find true template' = .ok top)
    (hvalues : (resolver c.declared).result = .ok values)
    (hpath : (w₁.disk.absolute output).map (projectOutput · values) = .ok path)
    (hroot : w₁.disk.Fresh top path root)
    (hgenerate : (generate template' output resolver config).run w₁ = .ok report w₂) :
    w₂.disk.get? root = some (.directory Entry.directoryMode) ∧
      ∀ steps, steps ≠ [] → copiedTo root config ≠ some (root ++ steps) →
        w₂.disk.get? (root ++ steps) = w.disk.copyOf (c.entries w.disk source) (source ++ steps) := by
  obtain ⟨built, rendered, d₂, ww, hpassage, hfilled, hcopied⟩ :=
    hsource.exists_passage hp htop hbuild hfound hvalues hpath hroot hgenerate
  have hdescent := isDescent_of_isDirectoryAt hfilled.rooted
  constructor
  · obtain ⟨mode, hmode⟩ := isDirectoryAt_iff.mp hfilled.rooted
    rw [hcopied root copiedTo_ne_root, hmode]
    rw [hfilled.inside root (List.prefix_refl root)] at hmode
    rw [(mode_of_image hmode).2]
  · intro steps hsteps hnot
    rw [hcopied _ hnot, hfilled.inside _ (List.prefix_append root steps)]
    exact hspares.image_eq_copyOf hpassage hdescent hsteps

/-- A source tree with a private directory and a file in it, beside a file that is left out. -/
def shelved : Disk :=
  ((((empty.put [Bytes.ofString "s"] (.directory Entry.directoryMode)).put
    [Bytes.ofString "s", Bytes.ofString "d"] (.directory 0o700)).put
    [Bytes.ofString "s", Bytes.ofString "d", Bytes.ofString "a.txt"]
      (.file 0o600 (Bytes.ofString "old"))).put
    [Bytes.ofString "s", Bytes.ofString "b.tmp"] (.file 0o600 (Bytes.ofString "new"))).put
    [Bytes.ofString "c.json"] (.file Entry.fileMode [])

/-- A configuration whose rules are about the file that is left out. -/
def shelfKept : Config where
  sourceRoot := .ofString "/s"
  templateRoot := .ofString "/t"
  ignoreFiles := ["*.tmp"]
  rules := { replacements := [⟨"new", "x"⟩], renames := [⟨"b.tmp", "x"⟩] }

/-- The shelf through a template, and what the project then has in three places: where the path to the
    template may leave a directory, where the configuration is copied to, and in the place of the private
    directory. -/
def shelfAnswer (template : Path) (config : Option Path) :
    Option ((BuildReport × Bool × Unit) × (GenerateReport × List (Option Entry))) :=
  ((buildTemplate shelfKept template default).observeBoth
    (fun d => (Generate.awaits (.ofString "/t") (.ofString "/o") (.ofString "/o") ∅
      [Bytes.ofString "t"] [Bytes.ofString "o"] d, ()))
    (Generate.generateBy (Metadata.ofConfig shelfKept default) (.ofString "/t") (.ofString "/o")
      (fun _ => ⟨.ok ∅, []⟩) config)
    fun d => [d.get? [Bytes.ofString "o", Bytes.ofString "sub"],
      d.get? [Bytes.ofString "o", Bytes.ofString "c.json"],
      d.get? [Bytes.ofString "o", Bytes.ofString "d"]]).answer? ⟨shelved, []⟩

-- The answers below are compared by this; as a part of their comparison the search for it is too long.
instance : DecidableEq (GenerateReport × List (Option Entry)) := inferInstance

/-- All that is evaluated, at once: the runs have much of their work in common. -/
theorem evaluated_shelved :
    shelfKept.entries shelved [Bytes.ofString "s"] =
      [[Bytes.ofString "s", Bytes.ofString "d"],
       [Bytes.ofString "s", Bytes.ofString "d", Bytes.ofString "a.txt"]] ∧
    shelfAnswer (.ofString "/t") none =
      some ((⟨1, 1, 0⟩, (true, ())), (⟨.ofString "/o", 1, 0⟩,
        [none, none, some (.directory 0o755)])) ∧
    shelfAnswer (.ofString "/t/sub/..") (some (.ofString "/c.json")) =
      some ((⟨1, 1, 0⟩, (true, ())), (⟨.ofString "/o", 1, 0⟩,
        [some (.directory Entry.directoryMode), some (.file Entry.fileMode []),
          some (.directory 0o755)])) ∧
    Timestamp.read? (default : Timestamp).toText = some default := by
  decide +kernel

theorem entries_shelved : shelfKept.entries shelved [Bytes.ofString "s"] =
    [[Bytes.ofString "s", Bytes.ofString "d"],
     [Bytes.ofString "s", Bytes.ofString "d", Bytes.ofString "a.txt"]] :=
  evaluated_shelved.1

theorem isLinkless_shelved : shelved.IsLinkless := isLinkless_of_all (by decide +kernel)

theorem finds_shelved : shelfKept.Finds shelved [Bytes.ofString "s"] :=
  ⟨by decide +kernel, fun x target _ => isLinkless_shelved x target⟩

theorem spares_shelved : shelfKept.Spares shelved [Bytes.ofString "s"] := by
  have hentries : ∀ x ∈ shelfKept.entries shelved [Bytes.ofString "s"],
      x = [Bytes.ofString "s", Bytes.ofString "d"] ∨
        x = [Bytes.ofString "s", Bytes.ofString "d", Bytes.ofString "a.txt"] := by
    rw [entries_shelved]
    simp
  have hrelative : ∀ x ∈ shelfKept.entries shelved [Bytes.ofString "s"], ∀ relative,
      relativePath (pathOf [Bytes.ofString "s"]) (pathOf x) = .ok relative →
        relative = "d" ∨ relative = "d/a.txt" := by
    have hdirectory : relativePath (pathOf [Bytes.ofString "s"])
        (pathOf [Bytes.ofString "s", Bytes.ofString "d"]) = .ok "d" := by decide +kernel
    have hfile : relativePath (pathOf [Bytes.ofString "s"])
        (pathOf [Bytes.ofString "s", Bytes.ofString "d", Bytes.ofString "a.txt"]) =
          .ok "d/a.txt" := by decide +kernel
    intro x hx relative hrelative
    rcases hentries x hx with rfl | rfl
    · exact .inl (Except.ok.inj (hrelative.symm.trans hdirectory))
    · exact .inr (Except.ok.inj (hrelative.symm.trans hfile))
  have hcontent : ∀ x ∈ shelfKept.entries shelved [Bytes.ofString "s"], ∀ mode content,
      shelved.get? x = some (.file mode content) → content = Bytes.ofString "old" := by
    have hdirectory : shelved.get? [Bytes.ofString "s", Bytes.ofString "d"] =
        some (.directory 0o700) := by decide +kernel
    have hfile : shelved.get? [Bytes.ofString "s", Bytes.ofString "d", Bytes.ofString "a.txt"] =
        some (.file 0o600 (Bytes.ofString "old")) := by decide +kernel
    intro x hx mode content he
    rcases hentries x hx with rfl | rfl
    · cases hdirectory.symm.trans he
    · cases hfile.symm.trans he
      rfl
  constructor
  · intro steps hsteps name hname
    rcases hentries _ hsteps with heq | heq
    · cases heq
      exact ⟨"d", List.mem_singleton.mp hname⟩
    · cases heq
      rcases List.mem_cons.mp hname with rfl | hname
      · exact ⟨"d", rfl⟩
      · exact ⟨"a.txt", List.mem_singleton.mp hname⟩
  · rw [entries_shelved]
    decide +kernel
  · intro x hx relative hok
    rcases hrelative x hx relative hok with rfl | rfl
    · decide +kernel
    · decide +kernel
  · intro x hx relative hok
    rcases hrelative x hx relative hok with rfl | rfl
    · decide +kernel
    · decide +kernel
  · intro x hx mode content he
    rw [hcontent x hx mode content he]
    decide +kernel
  · intro x hx mode content he
    rw [hcontent x hx mode content he]
    decide +kernel

/-- The private directory and its file come through. -/
theorem project_eq_copyOf_shelved :
    ∃ w₁ w₂, (buildTemplate shelfKept (.ofString "/t") default).run ⟨shelved, []⟩ = .ok ⟨1, 1, 0⟩ w₁ ∧
      (generate (.ofString "/t") (.ofString "/o") (fun _ => ⟨.ok ∅, []⟩) none).run w₁ =
        .ok ⟨.ofString "/o", 1, 0⟩ w₂ ∧
      w₂.disk.get? [Bytes.ofString "o"] = some (.directory Entry.directoryMode) ∧
      ∀ steps, steps ≠ [] → w₂.disk.get? ([Bytes.ofString "o"] ++ steps) =
        shelved.copyOf [[Bytes.ofString "s", Bytes.ofString "d"],
          [Bytes.ofString "s", Bytes.ofString "d", Bytes.ofString "a.txt"]]
          ([Bytes.ofString "s"] ++ steps) := by
  obtain ⟨-, hruns, -, htime⟩ := evaluated_shelved
  have habsolute : shelved.absolute (.ofString "/t") = .ok (.ofString "/t") := by decide +kernel
  have htop : shelved.Fresh [Bytes.ofString "s"] (.ofString "/t") [Bytes.ofString "t"] :=
    .of_spells spells_template (isLinkless_shelved.isPlain _) (by decide +kernel) (by decide +kernel)
  obtain ⟨w₁, w₂, hbuild, -, hfound, hpath, hroot, hgenerate, -⟩ :=
    Generate.exists_runs_of_awaits finds_shelved.found habsolute htop.toAimsAtFree htime spells_project
      (by decide +kernel) hruns
  obtain ⟨hthere, hcopy⟩ := project_eq_copyOf finds_shelved spares_shelved habsolute htop hbuild hfound
    rfl hpath hroot hgenerate
  refine ⟨w₁, w₂, hbuild, hgenerate, hthere, fun steps hsteps => ?_⟩
  rw [← entries_shelved]
  exact hcopy steps hsteps (Option.some_ne_none _).symm

/-- A new template root with a step back in its path leaves a directory in the template, and from there it
    comes into the project.  Beside it there are the copy of the configuration and, for the private
    directory, one with the permission bits of a new directory. -/
theorem project_not_copy_stepBack :
    ∃ w₁ w₂, (buildTemplate shelfKept (.ofString "/t/sub/..") default).run ⟨shelved, []⟩ =
        .ok ⟨1, 1, 0⟩ w₁ ∧
      (generate (.ofString "/t") (.ofString "/o") (fun _ => ⟨.ok ∅, []⟩) (some (.ofString "/c.json"))).run
        w₁ = .ok ⟨.ofString "/o", 1, 0⟩ w₂ ∧
      -- nothing in the source tree is touched
      shelfKept.Finds shelved [Bytes.ofString "s"] ∧ shelfKept.Spares shelved [Bytes.ofString "s"] ∧
      -- the roots are new and lie apart
      shelved.AimsAtFree (.ofString "/t/sub/..") [Bytes.ofString "t"] ∧
      w₁.disk.AimsAtFree (.ofString "/o") [Bytes.ofString "o"] ∧
      Apart [Bytes.ofString "t"] [Bytes.ofString "s"] ∧
      Apart [Bytes.ofString "o"] [Bytes.ofString "s"] ∧
      Apart [Bytes.ofString "o"] [Bytes.ofString "t"] ∧
      -- but something is added
      [Bytes.ofString "s", Bytes.ofString "sub"] ∉ shelfKept.entries shelved [Bytes.ofString "s"] ∧
      w₂.disk.get? [Bytes.ofString "o", Bytes.ofString "sub"] =
        some (.directory Entry.directoryMode) ∧
      [Bytes.ofString "s", Bytes.ofString "c.json"] ∉ shelfKept.entries shelved [Bytes.ofString "s"] ∧
      w₂.disk.get? [Bytes.ofString "o", Bytes.ofString "c.json"] = some (.file Entry.fileMode []) ∧
      -- and the permission bits of a directory are others
      [Bytes.ofString "s", Bytes.ofString "d"] ∈ shelfKept.entries shelved [Bytes.ofString "s"] ∧
      shelved.get? [Bytes.ofString "s", Bytes.ofString "d"] = some (.directory 0o700) ∧
      w₂.disk.get? [Bytes.ofString "o", Bytes.ofString "d"] = some (.directory 0o755) := by
  obtain ⟨-, -, hruns, htime⟩ := evaluated_shelved
  have habsolute : shelved.absolute (.ofString "/t/sub/..") = .ok (.ofString "/t/sub/..") := by
    decide +kernel
  have hpieces : Path.pieces (Path.ofString "/t/sub/..").text =
      [[], Bytes.ofString "t", Bytes.ofString "sub", Path.back] := by decide +kernel
  have hlinked := isLinkless_shelved
  have haims : shelved.AimsAt (.ofString "/t/sub/..") [Bytes.ofString "t"] := by
    rw [AimsAt, hpieces]
    refine .idle (by decide) (.down (by decide +kernel) (by decide +kernel) (hlinked _) ?_)
    exact .down (by decide +kernel) (by decide +kernel) (hlinked _) (.up (.here _))
  have htop : shelved.AimsAtFree (.ofString "/t/sub/..") [Bytes.ofString "t"] :=
    ⟨haims, by decide +kernel⟩
  obtain ⟨w₁, w₂, hbuild, -, -, -, hroot, hgenerate, hproject⟩ :=
    Generate.exists_runs_of_awaits finds_shelved.found habsolute htop htime spells_project
      (by decide +kernel) hruns
  simp only [List.cons.injEq] at hproject
  obtain ⟨hadded, hcopied, hmode, -⟩ := hproject
  refine ⟨w₁, w₂, hbuild, hgenerate, finds_shelved, spares_shelved, htop, hroot.toAimsAtFree, ?_, ?_, ?_,
    ?_, hadded, ?_, hcopied, ?_, by decide +kernel, hmode⟩
  · exact ⟨by decide +kernel, by decide +kernel⟩
  · exact ⟨by decide +kernel, by decide +kernel⟩
  · exact ⟨by decide +kernel, by decide +kernel⟩
  · rw [entries_shelved]
    decide +kernel
  · rw [entries_shelved]
    decide +kernel
  · rw [entries_shelved]
    exact List.mem_cons_self

end Stencil
