/-
  How a project comes about, step by step.

  A project is made from a template or from a source tree (`Origin`).  Either way its variables are
  resolved, an output path is derived and its directory, the output root, is made (`Origin.start`).
  From there on `Material.fill` is all that happens (`Origin.run_generate`): the entries of the template
  or the source tree are written below the output root, and the configuration may be copied there.

  So a property of disks that is kept by every operation below the output root, and by the copying of a
  file into it, is kept by the filling, whatever comes of it (`keeps_fill`).
-/
import Stencil.Generate
import Stencil.Proofs.Build.Start

namespace Stencil

open Generate

/-! ## Origins -/

/-- What a project is made from. -/
inductive Origin where
  | template (root : Path)
  | source (config : Config)

/-- What an output root is filled with. -/
inductive Material where
  | template (root : Path) (metadata : Metadata) (values : Values)
  | source (root : Path) (config : Config) (values : Values)

/-- The configuration of a project that is made from a source tree: with the rules derived from the
    names of the source and of the output path. -/
def Config.derived (c : Config) (source path : Path) : Config :=
  { c with rules := c.rules.extend (deriveRules (lastName source) (lastName path)) }

namespace Origin

/-- Makes a project. -/
def generate (o : Origin) (output : Path) (resolver : Variables → Resolution)
    (config : Option Path) : Task GenerateReport :=
  match o with
  | template root => Stencil.generate root output resolver config
  | source c => scaffold c output resolver config

/-- The variables of a project, and what it is filled with once these are resolved and its output path
    is known. -/
def opened : Origin → Task (Variables × (Values → Path → Material))
  | template root => do
    let metadata ← Metadata.load root
    let root ← Task.query (·.canonical root)
    return (metadata.declared, fun values _ => .template root metadata values)
  | source c => do
    let source ← c.canonicalSource
    return (c.declared, fun values path => .source source (c.derived source path) values)

/-- The making of a project up to its output root: the derived output path and the root. -/
def start (o : Origin) (output : Path) (resolver : Variables → Resolution) : Task (Path × Path) := do
  let (declared, _) ← o.opened
  let (_, path) ← prepare resolver declared output
  let root ← makeOutput path
  return (path, root)

end Origin

namespace Material

/-- What is let seen before the output root is made. -/
def announce (m : Material) (path : Path) : Task Unit :=
  match m with
  | template _ _ _ => return ()
  | source root _ _ => Task.emit (.info .generator
      ("Detecting variations: " ++ lastName root ++ " -> " ++ lastName path))

/-- Fills an output root. -/
def fill (m : Material) (output : Path) (config : Option Path) : Task GenerateReport :=
  match m with
  | template root metadata values => do
    Task.emit (.info .generator
      ("Generating " ++ output.display ++ " from template " ++ root.display))
    let globs := PatternSet.read metadata.staticFiles
    let report ← walkTree root (visitTemplate root metadata values globs) (fun _ e => throw e)
      { output }
    copyConfig output config
    return report
  | source root c values => do
    Task.emit (.info .generator ("Scaffolding from " ++ root.display ++ " to " ++ output.display))
    let template ← Task.look (·.realPath c.templateRoot)
    let skip := output :: template.toOption.toList
    let extra ← Task.look (Config.readIgnoreFile · root)
    let globs := PatternSet.read c.staticGlobs
    let (report, _) ← walkSource root skip (c.ignoreRules extra) (visitSourceEntry c values globs)
      { output }
    copyConfig output config
    return report

end Material

variable {o : Origin} {m : Material} {output path root : Path} {resolver : Variables → Resolution}
  {config : Option Path} {w w₁ w₂ : World}

/-- How a project is made, from either origin. -/
theorem Origin.generate_eq (o : Origin) : o.generate output resolver config = (do
    let (declared, material) ← o.opened
    let (values, path) ← prepare resolver declared output
    (material values path).announce path
    let root ← makeOutput path
    (material values path).fill root config) := by
  cases o with
  | template template =>
    simp only [opened, bind_assoc, pure_bind]
    rfl
  | source c =>
    simp only [opened, bind_assoc, pure_bind]
    rfl

/-- What is let seen beforehand always succeeds and leaves the disk alone. -/
theorem Material.run_announce (m : Material) (path : Path) (w : World) :
    ∃ events, (m.announce path).run w = .ok () { w with events } := by
  cases m with
  | template => exact ⟨w.events, rfl⟩
  | source => exact ⟨_, rfl⟩

/-- The output root is made, then its canonical path is asked for; what was made stays when that fails. -/
theorem run_makeOutput (path : Path) (w : World) :
    (makeOutput path).run w = match w.disk.makeDirectories path with
      | (d, .error fault) => .error (.io fault) { w with disk := d }
      | (d, .ok ()) =>
        match d.canonical path with
        | .ok root => .ok root { w with disk := d }
        | .error fault => .error (.io fault) { w with disk := d } := by
  rw [makeOutput, EStateM.run_bind, Task.run_makeDirectories]
  cases w.disk.makeDirectories path with
  | mk d result =>
    cases result with
    | error fault => rfl
    | ok _ =>
      simp only [Task.run_query]
      cases d.canonical path <;> rfl

/-- What was let seen before makes no difference to the output root. -/
theorem run_makeOutput_events (path : Path) (w : World) (events : List Event) :
    (makeOutput path).run { w with events } = match (makeOutput path).run w with
      | .ok root w₁ => .ok root { w₁ with events }
      | .error e w₁ => .error e { w₁ with events } := by
  rw [run_makeOutput, run_makeOutput]
  cases w.disk.makeDirectories path with
  | mk d result =>
    cases result with
    | error fault => rfl
    | ok _ => cases hroot : d.canonical path <;> simp only [hroot]

/-- An output root that was made is the canonical path of the place that was made for it. -/
theorem makeOutput_eq_ok (h : (makeOutput path).run w = .ok root w₁) :
    w.disk.makeDirectories path = (w₁.disk, .ok ()) ∧ w₁.disk.canonical path = .ok root := by
  rw [run_makeOutput] at h
  cases hmade : w.disk.makeDirectories path with
  | mk d result =>
    rw [hmade] at h
    cases result with
    | error fault => cases h
    | ok _ =>
      cases hroot : d.canonical path with
      | error fault =>
        simp only [hroot] at h
        cases h
      | ok root' =>
        simp only [hroot] at h
        cases h
        exact ⟨rfl, hroot⟩

/-- What was found when a generation is prepared: the values, and a path at which nothing lies. -/
theorem prepare_eq_ok {declared : Variables} {values : Values}
    (h : (prepare resolver declared output).run w = .ok (values, path) w₁) :
    w₁.disk = w.disk ∧ (resolver declared).result = .ok values ∧
      (w.disk.absolute output).map (projectOutput · values) = .ok path ∧
      ∃ fault, w.disk.entryItself path = .error fault := by
  obtain ⟨u, wu, hmodify, h₁⟩ := Task.bind_eq_ok h
  have hdisk : wu.disk = w.disk := by
    cases hmodify
    rfl
  obtain ⟨values', wv, hresolved, h₂⟩ := Task.bind_eq_ok h₁
  obtain ⟨hvalues, rfl⟩ := Task.ofExcept_eq_ok hresolved
  obtain ⟨absolute, wa, hlooked, h₃⟩ := Task.bind_eq_ok h₂
  obtain ⟨habsolute, rfl⟩ := Task.query_eq_ok hlooked
  obtain ⟨u, wf, hfree, h₄⟩ := Task.bind_eq_ok h₃
  obtain ⟨hpair, rfl⟩ := Task.pure_eq_ok h₄
  obtain ⟨rfl, rfl⟩ := Prod.mk.inj hpair
  obtain ⟨there, wl, hthere, hanswer⟩ := Task.bind_eq_ok hfree
  obtain ⟨rfl, rfl⟩ := Task.look_eq_ok hthere
  cases hentry : wl.disk.entryItself (projectOutput absolute values) with
  | ok e =>
    rw [hentry] at hanswer
    cases hanswer
  | error fault =>
    rw [hentry] at hanswer
    obtain ⟨-, rfl⟩ := Task.pure_eq_ok hanswer
    rw [hdisk] at hentry habsolute
    refine ⟨hdisk, hvalues, ?_, fault, hentry⟩
    rw [habsolute]
    rfl

/-- Opening an origin changes nothing. -/
theorem Origin.opened_eq_ok {found : Variables × (Values → Path → Material)}
    (h : o.opened.run w = .ok found w₁) : w₁ = w := by
  cases o with
  | template template =>
    obtain ⟨metadata, wm, hload, h₁⟩ := Task.bind_eq_ok h
    obtain ⟨canonical, wc, hcanonical, h₂⟩ := Task.bind_eq_ok h₁
    obtain ⟨-, rfl⟩ := Task.pure_eq_ok h₂
    rw [(Task.query_eq_ok hcanonical).2, (load_eq_ok hload).1]
  | source c =>
    obtain ⟨source, ws, hsource, h₁⟩ := Task.bind_eq_ok h
    obtain ⟨-, rfl⟩ := Task.pure_eq_ok h₁
    exact (canonicalSource_eq_ok hsource).1

/-- A start that succeeds opens the origin, prepares and makes the output root. -/
theorem Origin.start_steps (h : (o.start output resolver).run w = .ok (path, root) w₁) :
    ∃ declared material values wp, o.opened.run w = .ok (declared, material) w ∧
      (prepare resolver declared output).run w = .ok (values, path) wp ∧
      (makeOutput path).run wp = .ok root w₁ := by
  obtain ⟨⟨declared, material⟩, wd, hopened, h₁⟩ := Task.bind_eq_ok h
  obtain rfl := Origin.opened_eq_ok hopened
  obtain ⟨⟨values, path'⟩, wp, hprepare, h₂⟩ := Task.bind_eq_ok h₁
  obtain ⟨root', wo, hmake, h₃⟩ := Task.bind_eq_ok h₂
  obtain ⟨hpair, rfl⟩ := Task.pure_eq_ok h₃
  obtain ⟨rfl, rfl⟩ := Prod.mk.inj hpair
  exact ⟨declared, material, values, wp, hopened, hprepare, hmake⟩

/-- What is known once the output root is made: nothing lay at the output path as it is spelled, and the
    root is where that path leads after directories were made. -/
theorem Origin.start_eq_ok (h : (o.start output resolver).run w = .ok (path, root) w₁) :
    (∃ fault, w.disk.entryItself path = .error fault) ∧
      w.disk.makeDirectories path = (w₁.disk, .ok ()) ∧
      w₁.disk.find true path = .ok root.names ∧ root = Disk.pathOf root.names := by
  obtain ⟨declared, material, values, wp, -, hprepare, hmake⟩ := Origin.start_steps h
  obtain ⟨hdisk, -, -, hfree⟩ := prepare_eq_ok hprepare
  obtain ⟨hmade, hroot⟩ := makeOutput_eq_ok hmake
  rw [hdisk] at hmade
  obtain ⟨loc, hfound, rfl⟩ := Disk.canonical_eq_ok hroot
  obtain ⟨e, he⟩ := Disk.exists_get?_of_find hfound
  have hnames : (Disk.pathOf loc).names = loc := (Disk.spells_of_get? he).names
  rw [hnames]
  exact ⟨hfree, hmade, hfound, rfl⟩

/-- Once the output root is made, the rest of the making is the filling. -/
theorem Origin.run_generate (h : (o.start output resolver).run w = .ok (path, root) w₁) :
    ∃ (m : Material) (w₂ : World), w₂.disk = w₁.disk ∧
      ∀ config, (o.generate output resolver config).run w = (m.fill root config).run w₂ := by
  obtain ⟨declared, material, values, wp, hopened, hprepare, hmake⟩ := Origin.start_steps h
  -- the announcement comes between the two, and adds no more than an event
  obtain ⟨events, hannounce⟩ := (material values path).run_announce path wp
  refine ⟨material values path, { w₁ with events }, rfl, fun config => ?_⟩
  rw [Origin.generate_eq]
  simp only [EStateM.run_bind, hopened, hprepare, hannounce, run_makeOutput_events, hmake]

/-- When no output root is made, nothing more happens. -/
theorem Origin.run_generate_of_error {e : Error} (h : (o.start output resolver).run w = .error e w₁) :
    ∃ w₂ : World, w₂.disk = w₁.disk ∧
      ∀ config, (o.generate output resolver config).run w = .error e w₂ := by
  -- whichever step fails, it is the same step in both
  rcases Task.bind_eq_error h with hopened | ⟨⟨declared, material⟩, wd, hopened, h₁⟩
  · refine ⟨w₁, rfl, fun config => ?_⟩
    simp only [Origin.generate_eq, EStateM.run_bind, hopened]
  rcases Task.bind_eq_error h₁ with hprepare | ⟨⟨values, path⟩, wp, hprepare, h₂⟩
  · refine ⟨w₁, rfl, fun config => ?_⟩
    simp only [Origin.generate_eq, EStateM.run_bind, hopened, hprepare]
  rcases Task.bind_eq_error h₂ with hmake | ⟨root, wo, hmake, h₃⟩
  · obtain ⟨events, hannounce⟩ := (material values path).run_announce path wp
    refine ⟨{ w₁ with events }, rfl, fun config => ?_⟩
    simp only [Origin.generate_eq, EStateM.run_bind, hopened, hprepare, hannounce,
      run_makeOutput_events, hmake]
  · cases h₃

/-- The configuration is copied last. -/
theorem Material.fill_eq (m : Material) (root : Path) (config : Option Path) :
    m.fill root config = (do
      let report ← m.fill root none
      copyConfig root config
      return report) := by
  cases m with
  | template template metadata values =>
    simp only [Material.fill, copyConfig, bind_assoc, pure_bind]
  | source source c values =>
    simp only [Material.fill, copyConfig, bind_assoc, pure_bind]

/-! ## What a start and a filling keep -/

namespace Task

variable {α β : Type} {P : Disk → Prop} {R : β → Prop}

theorem keeps_descend {visit : β → Sighting → Task (β × Bool)} {unread : β → Error → Task β}
    (hvisit : ∀ b s, R b → Keeps P (visit b s) fun r => R r.1)
    (hunread : ∀ b e, R b → Keeps P (unread b e) R) (fuel : Nat) (directory : Path)
    (listing : List (Name × Kind)) {b : β} (hb : R b) :
    Keeps P (Walk.descend visit unread fuel directory listing b) R := by
  induction fuel generalizing directory listing b with
  | zero => exact Keeps.pure hb
  | succ fuel ih =>
    refine Keeps.foldlM ?_ listing hb
    intro b child hb
    refine (Keeps.look _).bind fun inside _ => ?_
    refine (hvisit b _ hb).bind ?_
    rintro ⟨value, enter⟩ hvalue
    dsimp only
    split
    · cases inside with
      | ok listing => exact ih _ listing hvalue
      | error fault => exact hunread value _ hvalue
    · exact Keeps.pure hvalue

/-- **A walk keeps what its visitor keeps**, about the disk and about the value it carries. -/
theorem keeps_walkTree {visit : β → Sighting → Task (β × Bool)} {unread : β → Error → Task β}
    (hvisit : ∀ b s, R b → Keeps P (visit b s) fun r => R r.1)
    (hunread : ∀ b e, R b → Keeps P (unread b e) R) (root : Path) {b : β} (hb : R b) :
    Keeps P (walkTree root visit unread b) R := by
  refine (Keeps.look _).bind fun listing _ => ?_
  split
  · exact keeps_descend hvisit hunread _ _ _ hb
  · exact Keeps.pure hb
  · exact hunread _ _ hb

theorem keeps_walkSource {visit : β → Sighting → String → Task β} (root : Path) (skip : List Path)
    (rules : IgnoreRules) (hvisit : ∀ b s relative, R b → Keeps P (visit b s relative) R) {b : β}
    (hb : R b) : Keeps P (walkSource root skip rules visit b) fun r => R r.1 := by
  refine keeps_walkTree (R := fun r : β × Nat => R r.1) ?_ (fun _ e _ => Keeps.throw e) root hb
  rintro ⟨b, ignored⟩ s hb
  unfold visitSource
  dsimp only
  split
  · exact Keeps.pure hb
  · refine (Keeps.look _).bind fun isDirectory _ => ?_
    split
    · exact (Keeps.emit _).bind fun _ _ => Keeps.pure hb
    · refine (Keeps.ofExcept _).bind fun relative _ => ?_
      split
      · exact Keeps.pure hb
      · exact (hvisit b s relative hb).bind fun value hvalue => Keeps.pure hvalue

end Task

variable {P : Disk → Prop}

/-- Opening an origin changes nothing. -/
theorem keeps_opened (o : Origin) : Task.Keeps P o.opened fun _ => True := by
  cases o with
  | template template =>
    have hload : Task.Keeps P (Metadata.load template) fun _ => True := by
      refine (Task.Keeps.look _).bind fun text _ => ?_
      split
      · exact Task.Keeps.throw _
      · split
        · exact Task.Keeps.pure trivial
        · exact Task.Keeps.throw _
    refine hload.bind fun metadata _ => ?_
    exact (Task.Keeps.query _).bind fun _ _ => Task.Keeps.pure trivial
  | source c =>
    have hsource : Task.Keeps P c.canonicalSource fun _ => True := by
      refine (Task.Keeps.look _).bind fun found _ => ?_
      split
      · exact Task.Keeps.pure trivial
      · exact Task.Keeps.throw _
    exact hsource.bind fun _ _ => Task.Keeps.pure trivial

/-- Nor does the search for an output path. -/
theorem keeps_prepare (resolver : Variables → Resolution) (declared : Variables) (output : Path) :
    Task.Keeps P (prepare resolver declared output) fun _ => True := by
  have hevents : Task.Keeps P
      (modify fun w => { w with events := w.events ++ (resolver declared).events })
      fun _ => True := fun _ hw => ⟨hw, fun _ _ _ => trivial⟩
  refine hevents.bind fun _ _ => ?_
  refine (Task.Keeps.ofExcept _).bind fun values _ => ?_
  refine (Task.Keeps.query _).bind fun absolute _ => ?_
  have hfree : Task.Keeps P (ensureFree (projectOutput absolute values)) fun _ => True := by
    refine (Task.Keeps.look _).bind fun there _ => ?_
    split
    · exact Task.Keeps.throw _
    · exact Task.Keeps.pure trivial
  exact hfree.bind fun _ _ => Task.Keeps.pure trivial

/-- **What the start keeps**: whatever is kept by the making of directories. -/
theorem keeps_start (o : Origin) (output : Path) (resolver : Variables → Resolution)
    (hP : ∀ d p, P d → P (d.makeDirectories p).1) :
    Task.Keeps P (o.start output resolver) fun _ => True := by
  refine (keeps_opened o).bind fun found _ => ?_
  refine (keeps_prepare resolver found.1 output).bind ?_
  rintro ⟨values, path⟩ -
  have hmake : Task.Keeps P (makeOutput path) fun _ => True :=
    (Task.Keeps.makeDirectories fun d => hP d path).bind fun _ _ => Task.Keeps.query _
  exact hmake.bind fun _ _ => Task.Keeps.pure trivial

/-- Every operation at a place below the output root keeps the property. -/
def KeptBelow (P : Disk → Prop) (output : Path) : Prop :=
  ∀ (operation : FileOperation) (relative : String),
    joinUnder output relative = .ok operation.target → Task.Keeps P operation.execute fun _ => True

theorem keeps_forFile {source target : Path} {static : Bool} {render : Bytes → Bytes} :
    Task.Keeps P (FileOperation.forFile source target static render)
      fun operation => operation.target = target := by
  unfold FileOperation.forFile
  split
  · exact Task.Keeps.pure rfl
  · exact (Task.Keeps.query _).bind fun _ _ => Task.Keeps.pure rfl

/-- Placing an entry below the output root keeps what is kept below it. -/
theorem keeps_place {report : GenerateReport} {sighting : Sighting} {relative place : String}
    {target : Path} {globs : PatternSet} {render : Bytes → Bytes} (hP : KeptBelow P report.output)
    (htarget : joinUnder report.output place = .ok target) :
    Task.Keeps P (Generate.place report sighting relative target globs render)
      fun r => r.output = report.output := by
  have hcarry : ∀ operation : FileOperation, operation.target = target →
      Task.Keeps P (do operation.execute; return report.count operation)
        fun r => r.output = report.output := by
    intro operation hoperation
    refine (hP operation place (hoperation ▸ htarget)).bind fun _ _ => Task.Keeps.pure ?_
    cases operation <;> rfl
  unfold Generate.place
  dsimp only
  split
  · exact hcarry _ rfl
  · refine (Task.Keeps.query _).bind fun static _ => ?_
    exact keeps_forFile.bind fun operation hoperation => hcarry operation hoperation

/-- So does a visit in a template. -/
theorem keeps_visitTemplate {template : Path} {metadata : Metadata} {values : Values}
    {globs : PatternSet} (hP : KeptBelow P output) (report : GenerateReport) (sighting : Sighting)
    (hreport : report.output = output) :
    Task.Keeps P (visitTemplate template metadata values globs report sighting)
      fun r => r.1.output = output := by
  subst hreport
  unfold visitTemplate
  split
  · exact Task.Keeps.pure rfl
  · split
    · exact Task.Keeps.pure rfl
    · refine (Task.Keeps.ofExcept _).bind fun relative _ => ?_
      refine (Task.Keeps.ofExcept _).bind fun target htarget => ?_
      exact (keeps_place hP htarget).bind fun r hr => Task.Keeps.pure hr

/-- So does one in a source tree. -/
theorem keeps_visitSourceEntry {c : Config} {values : Values} {globs : PatternSet}
    (hP : KeptBelow P output) (report : GenerateReport) (sighting : Sighting) (relative : String)
    (hreport : report.output = output) :
    Task.Keeps P (visitSourceEntry c values globs report sighting relative)
      fun r => r.output = output := by
  subst hreport
  unfold visitSourceEntry
  exact (Task.Keeps.ofExcept _).bind fun target htarget => keeps_place hP htarget

/-- The copying of the configuration keeps what the copying of a file to the root keeps. -/
theorem keeps_copyConfig (hcopy : ∀ source name d d', config = some source →
    source.fileName? = some name → P d → d.copy source (output.join ⟨name⟩) = .ok d' → P d') :
    Task.Keeps P (copyConfig output config) fun _ => True := by
  unfold copyConfig
  split
  · exact Task.Keeps.pure trivial
  · rename_i source
    dsimp only
    split
    · exact Task.Keeps.emit _
    · rename_i name hname
      intro w hw
      refine ⟨?_, fun _ _ _ => trivial⟩
      rw [Task.diskAfter, EStateM.run_bind, EStateM.run_get]
      dsimp only
      cases hd : w.disk.copy source (output.join ⟨name⟩) with
      | error fault => exact hw
      | ok d => exact hcopy source name w.disk d rfl hname hw hd

/-- **What the filling of an output root keeps**: whatever is kept by every operation at a place below
    the root, and by the copying of a file to the root under its own name. -/
theorem keeps_fill (m : Material) (hP : KeptBelow P output)
    (hcopy : ∀ source name d d', config = some source →
      source.fileName? = some name → P d → d.copy source (output.join ⟨name⟩) = .ok d' → P d') :
    Task.Keeps P (m.fill output config) fun r => r.output = output := by
  cases m with
  | template template metadata values =>
    refine (Task.Keeps.emit _).bind fun _ _ => ?_
    refine (Task.keeps_walkTree (keeps_visitTemplate hP) (fun _ e _ => Task.Keeps.throw e) template
      rfl).bind fun report hreport => ?_
    exact (keeps_copyConfig hcopy).bind fun _ _ => Task.Keeps.pure hreport
  | source source c values =>
    refine (Task.Keeps.emit _).bind fun _ _ => ?_
    refine (Task.Keeps.look _).bind fun template _ => ?_
    refine (Task.Keeps.look _).bind fun extra _ => ?_
    refine (Task.keeps_walkSource source _ _ (keeps_visitSourceEntry hP) rfl).bind ?_
    rintro ⟨report, ignored⟩ hreport
    exact (keeps_copyConfig hcopy).bind fun _ _ => Task.Keeps.pure hreport

end Stencil
