/-
  What becomes of a token in a project that is made straight from a source tree.

  Before the tokens of a file are replaced by their values, the spellings of the name of the source tree
  are replaced by those of the name of the project.  The replacements are plain texts and know nothing of
  tokens, so they can hit one.

  1. **A token alone.** If no spelling of the source name occurs in the token, it becomes its value
     (`render_token`).
  2. **A token in a text.** If moreover no spelling can reach into the token from outside, and no other
     token can, the token becomes its value and what is around it is rewritten and rendered for itself
     (`render_around`).
  3. **A token in a project.** So every file of the project that comes of a file with such a token holds
     the value in its place.

  `token_becomes_value` puts the three together.  The conditions are needed, be it for a token alone or
  for one in a text (`token_lost`).
-/
import Stencil.Proofs.Naming.Respelling
import Stencil.Proofs.Pipeline.Classes
import Stencil.Proofs.Token.Around

namespace Stencil

open Disk Generate Replacement Token

variable {c : Config} {values : Values} {name value sourceName targetName : String}

/-- The bytes of the token of a name. -/
def Config.tokenBytes (c : Config) (name : String) : Bytes :=
  Bytes.ofString (c.delimiters.normalized.token name)

theorem Config.tokenBytes_eq (c : Config) (name : String) : c.tokenBytes name =
    Bytes.ofString c.delimiters.normalized.opening ++ Bytes.ofString name ++
      Bytes.ofString c.delimiters.normalized.closing := by
  simp only [tokenBytes, Delimiters.token, Bytes.ofString_append]

namespace Delimiters

/-- A lone token becomes its value: no longer one fits into it. -/
theorem renderBytes_token {d : Delimiters} (hvalue : values.get? name = some value) :
    d.renderBytes values (Bytes.ofString (d.normalized.token name)) = Bytes.ofString value := by
  let opening := Bytes.ofString d.normalized.opening
  let closing := Bytes.ofString d.normalized.closing
  have hname : name ∈ values.names := NameMap.get?_isSome_iff.mp (by rw [hvalue]; rfl)
  have hlongest : ∀ other ∈ values.names,
      StartsToken opening closing (opening ++ Bytes.ofString name ++ closing ++ []) other →
        (Bytes.ofString other).length ≤ (Bytes.ofString name).length := by
    intro other _ hstarts
    have hle := hstarts.length_le
    simp only [List.length_append, List.length_nil] at hle
    omega
  have hscan : Scan values.names opening closing (Bytes.ofString (d.normalized.token name))
      [.token name] := by
    simpa [token, opening, closing] using Scan.token hname hlongest .done
  rw [renderBytes, substituteBytes_eq_of_scan d.opening_ne_empty hscan]
  simp [Piece.written, hvalue]

end Delimiters

namespace Config

/-! ## The token and the replacements -/

/-- Without replacements of its own, a configuration gets the derived ones. -/
theorem mem_extend_deriveRules (hgiven : c.rules.replacements = []) {r : Replacement}
    (h : r ∈ (c.rules.extend (deriveRules sourceName targetName)).replacements) :
    r ∈ (deriveRules sourceName targetName).replacements := by
  have hperm := (c.rules.merged_extend (deriveRules sourceName targetName)).replacements.perm
  rw [hgiven, List.nil_append] at hperm
  exact hperm.mem_iff.mp h

theorem render_token (hgiven : c.rules.replacements = []) (hvalue : values.get? name = some value)
    (habsent : ∀ r ∈ (deriveRules sourceName targetName).replacements,
      ¬ Bytes.ofString r.find <:+: c.tokenBytes name) :
    (c.recipeBetween sourceName targetName values).render (c.tokenBytes name) =
      Bytes.ofString value := by
  have hkept : applyReplacements (c.rules.extend (deriveRules sourceName targetName)).replacements
      (c.tokenBytes name) = c.tokenBytes name :=
    applyReplacements_of_absent fun r hr _ => habsent r (mem_extend_deriveRules hgiven hr)
  simp only [recipeBetween, scaffoldRecipe, hkept]
  exact Delimiters.renderBytes_token hvalue

/-- All that can come near the token stands beside it: the spellings that are replaced and the declared
    tokens. -/
structure Clears (c : Config) (sourceName targetName : String) (values : Values) (name : String) :
    Prop where
  spellings : ∀ r ∈ (deriveRules sourceName targetName).replacements,
    Beside (Bytes.ofString r.find) (c.tokenBytes name)
  tokens : ∀ other ∈ values.names, Beside (c.tokenBytes other) (c.tokenBytes name)

/-- It does so when the delimiters share no byte with each other or with a name, and no spelling holds
    the first byte of the one or the last byte of the other. -/
theorem clears_of_apart (hvalue : values.get? name = some value)
    (hapart : c.delimiters.normalized.Apart values)
    (hdistinct : ∀ b ∈ Bytes.ofString c.delimiters.normalized.closing,
      b ∉ Bytes.ofString c.delimiters.normalized.opening)
    (hspellings : ∀ r ∈ (deriveRules sourceName targetName).replacements,
      (∀ b ∈ (c.tokenBytes name).head?, b ∉ Bytes.ofString r.find) ∧
      (∀ b ∈ (c.tokenBytes name).getLast?, b ∉ Bytes.ofString r.find) ∧
      ¬ Bytes.ofString r.find <:+: c.tokenBytes name) :
    c.Clears sourceName targetName values name where
  spellings := by
    intro r hr
    obtain ⟨hfirst, hlast, habsent⟩ := hspellings r hr
    refine beside_of_not_mem ?_ hfirst hlast habsent
    rw [tokenBytes_eq]
    simp [Bytes.ofString_ne_nil c.delimiters.opening_ne_empty]
  tokens := fun other hother => beside_token hapart hdistinct hother
    (NameMap.get?_isSome_iff.mp (by rw [hvalue]; rfl))

theorem render_around (hgiven : c.rules.replacements = []) (hvalue : values.get? name = some value)
    (habsent : ∀ r ∈ (deriveRules sourceName targetName).replacements,
      ¬ Bytes.ofString r.find <:+: c.tokenBytes name)
    (hclears : c.Clears sourceName targetName values name) (before after : Bytes) :
    (c.recipeBetween sourceName targetName values).render (before ++ c.tokenBytes name ++ after) =
      (c.recipeBetween sourceName targetName values).render before ++ Bytes.ofString value ++
        (c.recipeBetween sourceName targetName values).render after := by
  simp only [recipeBetween, scaffoldRecipe]
  rw [applyReplacements_around
    (fun r hr => hclears.spellings r (mem_extend_deriveRules hgiven hr))
    (fun r hr => habsent r (mem_extend_deriveRules hgiven hr)), tokenBytes,
    Delimiters.renderBytes_around hvalue hclears.tokens]

end Config

/-! ## The token in a project -/

/-- A run that makes a new project at `root` straight from the source tree at `source`. -/
structure SourceRun (c : Config) (values : Values) (config : Option Path) (w w' : World)
    (source root : Location) (path : Path) : Prop where
  found : w.disk.reach c.sourceRoot = .ok source
  free : w.disk.AimsAtFree path root
  runs : ∃ output resolver report, (resolver c.declared).result = .ok values ∧
    (w.disk.absolute output).map (projectOutput · values) = .ok path ∧
    (scaffold c output resolver config).run w = .ok report w'

namespace SourceRun

variable {config : Option Path} {w w' : World} {source root : Location} {path : Path}

/-- The entries that the run visits. -/
def visited (_ : SourceRun c values config w w' source root path) : List Location :=
  c.met (prepared w.disk path) source root

/-- What the run does with them. -/
def recipe (_ : SourceRun c values config w w' source root path) : Recipe :=
  c.recipeBetween (lastName (pathOf source)) (lastName path) values

/-- A file becomes a file of the project, if no other file goes to its place and the configuration is
    not copied there. -/
theorem get?_of_file (h : SourceRun c values config w w' source root path) {x : Location}
    {mode : Mode} {content : Bytes} (hx : x ∈ h.visited)
    (hfile : (prepared w.disk path).entry (pathOf x) = .ok (.file mode content))
    (halone : ∀ y ∈ h.visited, (prepared w.disk path).isDirectory (pathOf y) = false →
      h.recipe.target? source root y = h.recipe.target? source root x → y = x) :
    ∃ relative y, relativePath (pathOf source) (pathOf x) = .ok relative ∧
      h.recipe.target? source root x = some y ∧ (copiedTo root config ≠ some y →
        w'.disk.get? y = some (.file mode (h.recipe.bytes relative content))) := by
  obtain ⟨output, resolver, report, hvalues, hpath, hrun⟩ := h.runs
  obtain ⟨dirs, products, hdirs, hfollows, d, hfilled, hcopied⟩ :=
    follows_of_scaffold h.found hvalues hpath h.free hrun
  obtain ⟨relative, y, hrelative, htarget, hat⟩ := hfollows.fileAt?_of_alone halone hx hfile
  refine ⟨relative, y, hrelative, htarget, fun hother => ?_⟩
  obtain ⟨_, _, _, hbelow⟩ :=
    Recipe.target?_eq_some (isDescent_of_isDirectoryAt hfilled.rooted) htarget
  rw [hcopied y hother, hfilled.inside y hbelow]
  refine image_of_fileAt? ?_
  rw [Product.fileAt?_append hdirs, hat]
  rfl

end SourceRun

/-- **A declared token becomes its value** in a project that is made straight from a source tree, if no
    spelling of the source name occurs in the token.  In a file it does so together with what is around
    it, if the spellings and the other tokens do not run into it either.  The file is met by the walk,
    is not copied as it is, and is the only one that goes to its place. -/
theorem token_becomes_value (hgiven : c.rules.replacements = [])
    (hvalue : values.get? name = some value)
    (habsent : ∀ r ∈ (deriveRules sourceName targetName).replacements,
      ¬ Bytes.ofString r.find <:+: c.tokenBytes name) :
    c.delimiters.renderBytes values
        (applyReplacements (c.rules.extend (deriveRules sourceName targetName)).replacements
          (c.tokenBytes name)) = Bytes.ofString value ∧
      (c.Clears sourceName targetName values name →
        ∀ {config : Option Path} {w w' : World} {source root : Location} {path : Path}
          (run : SourceRun c values config w w' source root path),
        lastName (pathOf source) = sourceName → lastName path = targetName →
        ∀ {x : Location} {mode : Mode} {relative : String} {before after : Bytes},
        x ∈ run.visited →
        (prepared w.disk path).entry (pathOf x) =
          .ok (.file mode (before ++ c.tokenBytes name ++ after)) →
        relativePath (pathOf source) (pathOf x) = .ok relative →
        run.recipe.isRaw relative (before ++ c.tokenBytes name ++ after) = false →
        (∀ y ∈ run.visited, (prepared w.disk path).isDirectory (pathOf y) = false →
          run.recipe.target? source root y = run.recipe.target? source root x → y = x) →
        ∃ y, run.recipe.target? source root x = some y ∧ (copiedTo root config ≠ some y →
          w'.disk.get? y = some (.file mode
            (run.recipe.render before ++ Bytes.ofString value ++ run.recipe.render after)))) := by
  refine ⟨Config.render_token hgiven hvalue habsent, ?_⟩
  rintro hclears config w w' source root path run rfl rfl x mode relative before after hx hfile
    hrelative hraw halone
  obtain ⟨relative', y, hrelative', htarget, hthere⟩ := run.get?_of_file hx hfile halone
  obtain rfl := Except.ok.inj (hrelative.symm.trans hrelative')
  refine ⟨y, htarget, fun hother => ?_⟩
  have hrendered : run.recipe.bytes relative (before ++ c.tokenBytes name ++ after) =
      run.recipe.render before ++ Bytes.ofString value ++ run.recipe.render after := by
    rw [Recipe.bytes, hraw, if_neg Bool.false_ne_true]
    exact Config.render_around hgiven hvalue habsent hclears before after
  rw [hthere hother, hrendered]

/-- A source tree with one file in it. -/
def sourceWith (tree content : String) : Disk :=
  (empty.put [Bytes.ofString tree] (.directory Entry.directoryMode)).put
    [Bytes.ofString tree, Bytes.ofString "a"] (.file 0o600 (Bytes.ofString content))

/-- The token of the name of the project, in a source tree that is called otherwise. -/
theorem token_becomes_value_newApp :
    let c : Config := { sourceRoot := .ofString "/MyBank", templateRoot := .ofString "/t" }
    let values : Values := NameMap.ofList [("NAME", "v")]
    c.delimiters.renderBytes values
        (applyReplacements (c.rules.extend (deriveRules "MyBank" "NewApp")).replacements
          (c.tokenBytes "NAME")) = Bytes.ofString "v" ∧
      ∃ w', (scaffold c (.ofString "/NewApp") (fun _ => ⟨.ok values, []⟩) none).run
          ⟨sourceWith "MyBank" "MyBank \x7b\x7bNAME\x7d\x7d.", []⟩ =
            .ok ⟨.ofString "/NewApp", 1, 0⟩ w' ∧
        w'.disk.get? [Bytes.ofString "NewApp", Bytes.ofString "a"] =
          some (.file 0o600 (Bytes.ofString "NewApp v.")) := by
  intro c values
  let disk := sourceWith "MyBank" "MyBank \x7b\x7bNAME\x7d\x7d."
  let source : Location := [Bytes.ofString "MyBank"]
  let root : Location := [Bytes.ofString "NewApp"]
  let path : Path := .ofString "/NewApp"
  -- all that is evaluated, at once: the parts have much of the work in common
  have hevaluated :
      (scaffold c path (fun _ => ⟨.ok values, []⟩) none).answer? ⟨disk, []⟩ =
        some ⟨.ofString "/NewApp", 1, 0⟩ ∧
      disk.reach c.sourceRoot = .ok source ∧
      (disk.absolute path).map (projectOutput · values) = .ok path ∧
      c.met (prepared disk path) source root = [source ++ [Bytes.ofString "a"]] ∧
      (prepared disk path).entry (pathOf (source ++ [Bytes.ofString "a"])) =
        .ok (.file 0o600 (Bytes.ofString "MyBank " ++ c.tokenBytes "NAME" ++ Bytes.ofString ".")) ∧
      relativePath (pathOf source) (pathOf (source ++ [Bytes.ofString "a"])) = .ok "a" ∧
      lastName (pathOf source) = "MyBank" ∧ lastName path = "NewApp" ∧
      (c.recipeBetween "MyBank" "NewApp" values).isRaw "a"
        (Bytes.ofString "MyBank " ++ c.tokenBytes "NAME" ++ Bytes.ofString ".") = false ∧
      (c.recipeBetween "MyBank" "NewApp" values).target? source root
        (source ++ [Bytes.ofString "a"]) = some (root ++ [Bytes.ofString "a"]) ∧
      (c.recipeBetween "MyBank" "NewApp" values).render (Bytes.ofString "MyBank ") ++
        Bytes.ofString "v" ++ (c.recipeBetween "MyBank" "NewApp" values).render (Bytes.ofString ".") =
          Bytes.ofString "NewApp v." ∧
      (∀ r ∈ (deriveRules "MyBank" "NewApp").replacements,
        (∀ b ∈ (c.tokenBytes "NAME").head?, b ∉ Bytes.ofString r.find) ∧
        (∀ b ∈ (c.tokenBytes "NAME").getLast?, b ∉ Bytes.ofString r.find) ∧
        ¬ Bytes.ofString r.find <:+: c.tokenBytes "NAME") := by
    decide +kernel
  obtain ⟨hanswer, hfound, hpath, hvisited, hfile, hrelative, hsource, htarget, hraw, hplace,
    hrendered, hspellings⟩ := hevaluated
  obtain ⟨w', hrun⟩ := Task.exists_run_of_answer? hanswer
  have hlinkless : disk.IsLinkless := isLinkless_of_all (by decide +kernel)
  have hfree : disk.AimsAtFree path root :=
    .of_spells ⟨by decide +kernel, by decide +kernel, by decide +kernel⟩ (hlinkless.isPlain _)
      (by decide +kernel)
  have hvalue : values.get? "NAME" = some "v" := rfl
  have hapart : c.delimiters.normalized.Apart values := by constructor <;> decide +kernel
  have hclears : c.Clears "MyBank" "NewApp" values "NAME" :=
    Config.clears_of_apart hvalue hapart (by decide +kernel) hspellings
  have run : SourceRun c values none ⟨disk, []⟩ w' source root path :=
    ⟨hfound, hfree, _, _, _, rfl, hpath, hrun⟩
  have halone : ∀ y ∈ c.met (prepared disk path) source root, y = source ++ [Bytes.ofString "a"] := by
    rw [hvisited]
    exact fun y hy => List.mem_singleton.mp hy
  have hgiven : c.rules.replacements = [] := rfl
  obtain ⟨hlone, hrun'⟩ := token_becomes_value hgiven hvalue fun r hr => (hspellings r hr).2.2
  obtain ⟨y, hy, hthere⟩ := hrun' hclears run hsource htarget
    (by rw [SourceRun.visited, hvisited]; exact List.mem_cons_self) hfile hrelative
    (by rw [SourceRun.recipe, hsource, htarget]; exact hraw) (fun y hy _ _ => halone y hy)
  rw [SourceRun.recipe, hsource, htarget, hplace] at hy
  obtain rfl := Option.some.inj hy
  rw [SourceRun.recipe, hsource, htarget, hrendered] at hthere
  exact ⟨hlone, w', hrun, hthere (Option.some_ne_none _).symm⟩

/-- Three ways to lose a token.  The source tree has the name of a variable; a spelling of its name runs
    into a token from outside; one token runs into another. -/
theorem token_lost :
    let c : Config := { sourceRoot := .ofString "/name", templateRoot := .ofString "/t" }
    let values : Values := NameMap.ofList [("NAME", "v")]
    let percent : Config := { delimiters := ⟨"%", "%"⟩ }
    (c.delimiters.renderBytes values
        (applyReplacements (c.rules.extend (deriveRules "name" "app")).replacements
          (c.tokenBytes "NAME")) = Bytes.ofString "\x7b\x7bAPP\x7d\x7d" ∧
      ∃ w', (scaffold c (.ofString "/app") (fun _ => ⟨.ok values, []⟩) none).run
          ⟨sourceWith "name" "\x7b\x7bNAME\x7d\x7d", []⟩ = .ok ⟨.ofString "/app", 1, 0⟩ w' ∧
        w'.disk.get? [Bytes.ofString "app", Bytes.ofString "a"] =
          some (.file 0o600 (Bytes.ofString "\x7b\x7bAPP\x7d\x7d"))) ∧
    (c.recipeBetween "x\x7b" "app" values).render (Bytes.ofString "x" ++ c.tokenBytes "NAME") =
      Bytes.ofString "app\x7bNAME\x7d\x7d" ∧
    (percent.recipeBetween "name" "app" (NameMap.ofList [("A", "v"), ("B", "w")])).render
      (Bytes.ofString "%A" ++ percent.tokenBytes "B") = Bytes.ofString "vB%" := by
  intro c values percent
  have hrun : ((scaffold c (.ofString "/app") (fun _ => ⟨.ok values, []⟩) none).observe
      fun d => d.get? [Bytes.ofString "app", Bytes.ofString "a"]).answer?
        ⟨sourceWith "name" "\x7b\x7bNAME\x7d\x7d", []⟩ = some (⟨.ofString "/app", 1, 0⟩,
          some (.file 0o600 (Bytes.ofString "\x7b\x7bAPP\x7d\x7d"))) := by decide +kernel
  obtain ⟨w', hobserved⟩ := Task.exists_run_of_answer? hrun
  obtain ⟨hscaffold, hseen⟩ := Task.observe_eq_ok hobserved
  exact ⟨⟨by decide +kernel, w', hscaffold, hseen⟩, by decide +kernel, by decide +kernel⟩

end Stencil
