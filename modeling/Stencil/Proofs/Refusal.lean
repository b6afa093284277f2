/-
  Refused calls leave the disk alone.

  A refusal is an error about what a command is asked to do, not about the work: a configuration or a
  description that is no good, a variable without a value, an output path that is taken.  Every command
  begins with steps that change nothing (`ReadsOnly`) and goes on with steps that can fail but never
  refuse (`NeverRefuses`).  Both are closed under sequence, and a command of that shape that refuses
  has done nothing yet (`RefusesFirst`).

  The second half is the longer one.  A walk, the operations below the output root and the copying of the
  configuration fail through the same type of errors as the first steps do, so each of them is gone
  through once.
-/
import Stencil.Proofs.Generate.Confinement

namespace Stencil

open Disk Generate

/-- Is the command itself refused, be it for its configuration, the description of its template, a
    value or its output path? -/
def Error.isRefusal : Error → Bool
  | config _ | metadata _ _ | missingValue _ | unknownSource _ _ | outputExists _ | prompt _ => true
  | io _ | walk _ _ | json | yaml | invalidPath _ => false

namespace Task

variable {α β : Type} {x : Task α} {f : α → Task β} {w w' : World} {e : Error}

/-- What a task fails with, if it fails. -/
def failure? (x : Task α) (w : World) : Option Error :=
  match x.run w with
  | .ok _ _ => none
  | .error e _ => some e

/-- What a task is seen to fail with is what its run fails with. -/
theorem exists_run_of_failure? (h : x.failure? w = some e) : ∃ w', x.run w = .error e w' := by
  rw [failure?] at h
  cases hx : x.run w with
  | ok a w' =>
    rw [hx] at h
    cases h
  | error e' w' =>
    rw [hx] at h
    obtain rfl := Option.some.inj h
    exact ⟨w', rfl⟩

/-! ## Reading, working and refusing -/

/-- The task changes nothing on the disk, however it ends. -/
def ReadsOnly (x : Task α) : Prop := ∀ P : Disk → Prop, Keeps P x fun _ => True

/-- Whatever the task fails with, it is no refusal. -/
def NeverRefuses (x : Task α) : Prop :=
  ∀ w e w', x.run w = .error e w' → e.isRefusal = false

/-- A refusal of the task finds the disk as it was. -/
def RefusesFirst (x : Task α) : Prop :=
  ∀ w e w', x.run w = .error e w' → e.isRefusal = true → w'.disk = w.disk

/-- The disk that a task leaves which only reads: keeping every property, it keeps the one to be the
    disk before. -/
theorem ReadsOnly.disk_of_ok {a : α} (hx : ReadsOnly x) (h : x.run w = .ok a w') :
    w'.disk = w.disk :=
  (hx (· = w.disk)).of_ok rfl h

/-- What only reads may refuse at any time. -/
theorem ReadsOnly.refusesFirst (hx : ReadsOnly x) : RefusesFirst x :=
  fun w _ _ h _ => (hx (· = w.disk)).of_error rfl h

/-- What never refuses may do anything. -/
theorem NeverRefuses.refusesFirst (hx : NeverRefuses x) : RefusesFirst x := by
  intro w e w' h hrefusal
  rw [hx w e w' h] at hrefusal
  cases hrefusal

namespace RefusesFirst

/-- What reads only can be done before. -/
theorem after_reading (hx : ReadsOnly x) (hf : ∀ a, RefusesFirst (f a)) : RefusesFirst (x >>= f) := by
  intro w e w' h hrefusal
  rcases bind_eq_error h with hfirst | ⟨a, w₁, hfirst, hnext⟩
  · exact hx.refusesFirst w e w' hfirst hrefusal
  · rw [hf a w₁ e w' hnext hrefusal, hx.disk_of_ok hfirst]

/-- What never refuses can be done behind. -/
theorem before_working (hx : RefusesFirst x) (hf : ∀ a, NeverRefuses (f a)) :
    RefusesFirst (x >>= f) := by
  intro w e w' h hrefusal
  rcases bind_eq_error h with hfirst | ⟨a, w₁, -, hnext⟩
  · exact hx w e w' hfirst hrefusal
  · rw [hf a w₁ e w' hnext] at hrefusal
    cases hrefusal

end RefusesFirst

/-! ## Steps that never refuse -/

namespace NeverRefuses

theorem pure (a : α) : NeverRefuses (pure a) := fun _ _ _ h => by cases h

/-- An error that is no refusal may be raised. -/
theorem throw (he : e.isRefusal = false) : NeverRefuses (throw e : Task α) := by
  intro w e' w' h
  cases h
  exact he

/-- **Two steps that never refuse never do together.** -/
theorem bind (hx : NeverRefuses x) (hf : ∀ a, NeverRefuses (f a)) : NeverRefuses (x >>= f) := by
  intro w e w' h
  rcases bind_eq_error h with hfirst | ⟨a, w₁, -, hnext⟩
  · exact hx w e w' hfirst
  · exact hf a w₁ e w' hnext

/-- A result that is taken over is no refusal unless it was one before. -/
theorem ofExcept {r : Except Error α} (hr : ∀ e, r = .error e → e.isRefusal = false) :
    NeverRefuses (ofExcept r) := by
  cases r with
  | error e => exact throw (hr e rfl)
  | ok a => exact pure a

theorem look (f : Disk → α) : NeverRefuses (look f) := fun _ _ _ h => by cases h

theorem emit (event : Event) : NeverRefuses (emit event) := fun _ _ _ h => by cases h

/-- A query fails as an error of the system only. -/
theorem query (f : Disk → Except Fault α) : NeverRefuses (query f) := by
  intro w e w' h
  rw [run_query] at h
  cases hf : f w.disk with
  | ok a =>
    rw [hf] at h
    cases h
  | error fault =>
    rw [hf] at h
    cases h
    rfl

/-- So does a change, on which all the work on the disk rests. -/
theorem change (f : Disk → Except Fault Disk) : NeverRefuses (change f) := by
  intro w e w' h
  rw [run_change] at h
  cases hf : f w.disk with
  | ok d =>
    rw [hf] at h
    cases h
  | error fault =>
    rw [hf] at h
    cases h
    rfl

/-- So does the making of directories, be it half-way. -/
theorem makeDirectories (p : Path) : NeverRefuses (makeDirectories p) := by
  intro w e w' h
  rw [run_makeDirectories] at h
  cases hmade : (w.disk.makeDirectories p).2 with
  | ok _ =>
    rw [hmade] at h
    cases h
  | error fault =>
    rw [hmade] at h
    cases h
    rfl

/-- A loop refuses only in one of its rounds. -/
theorem foldlM {γ : Type} {step : β → γ → Task β} (hstep : ∀ b c, NeverRefuses (step b c))
    (cs : List γ) (b : β) : NeverRefuses (cs.foldlM step b) := by
  induction cs generalizing b with
  | nil => exact pure b
  | cons c cs ih =>
    rw [List.foldlM_cons]
    exact (hstep b c).bind ih

/-! ## Walks -/

/-- A walk refuses only if its visitor does. -/
theorem descend {visit : β → Sighting → Task (β × Bool)} {unread : β → Error → Task β}
    (hvisit : ∀ b s, NeverRefuses (visit b s))
    (hunread : ∀ b path fault, NeverRefuses (unread b (.walk path fault))) (fuel : Nat)
    (directory : Path) (listing : List (Name × Kind)) (b : β) :
    NeverRefuses (Walk.descend visit unread fuel directory listing b) := by
  induction fuel generalizing directory listing b with
  | zero => exact pure b
  | succ fuel ih =>
    refine foldlM (fun b child => ?_) listing b
    refine (look _).bind fun inside => ?_
    refine (hvisit b _).bind ?_
    rintro ⟨value, enter⟩
    dsimp only
    split
    · cases inside with
      | ok listing => exact ih _ listing value
      | error fault => exact hunread value _ fault
    · exact pure value

/-- A walk through a whole tree; the root that cannot be listed is an error of the walk. -/
theorem walkTree {visit : β → Sighting → Task (β × Bool)} (hvisit : ∀ b s, NeverRefuses (visit b s))
    (root : Path) (b : β) :
    NeverRefuses (walkTree root visit (fun _ e => MonadExcept.throw e) b) := by
  refine (look _).bind fun listing => ?_
  split
  · exact descend hvisit (fun _ _ _ => throw rfl) _ _ _ b
  · exact pure b
  · exact throw rfl

/-- What may be refused in a path is its place, not the command. -/
theorem relativePath (root path : Path) :
    NeverRefuses (MonadExcept.ofExcept (relativePath root path)) := by
  refine ofExcept fun e h => ?_
  rw [Stencil.relativePath] at h
  split at h
  · cases h
    rfl
  · split at h
    · cases h
      rfl
    · cases h

/-- A name that leads out of the root is an invalid path, by induction on the components that are
    placed. -/
theorem joinUnder (root : Path) (relative : String) :
    NeverRefuses (MonadExcept.ofExcept (joinUnder root relative)) := by
  have hplace : ∀ relative target cs e, placeUnder relative root target cs = .error e →
      e.isRefusal = false := by
    intro relative target cs e h
    induction cs generalizing target with
    | nil => cases h
    | cons c cs ih =>
      cases c with
      | normal name => exact ih _ h
      | current => exact ih _ h
      | parent =>
        cases h
        rfl
      | root =>
        cases h
        rfl
  exact ofExcept fun e h => hplace _ _ _ e h

/-- What is passed over or left out is never visited, so that a walk through a source tree refuses only
    if its visitor does. -/
theorem walkSource {visit : β → Sighting → String → Task β}
    (hvisit : ∀ b s relative, NeverRefuses (visit b s relative)) (root : Path) (skip : List Path)
    (rules : IgnoreRules) (b : β) : NeverRefuses (walkSource root skip rules visit b) := by
  refine walkTree ?_ root (b, 0)
  rintro ⟨b, ignored⟩ s
  unfold visitSource
  dsimp only
  split
  · exact pure _
  · refine (look _).bind fun isDirectory => ?_
    split
    · exact (emit _).bind fun _ => pure _
    · refine (relativePath root s.path).bind fun relative => ?_
      split
      · exact pure _
      · exact (hvisit b s relative).bind fun _ => pure _

/-! ## Operations -/

/-- The directory for a target is made, or there is none to make. -/
theorem makeParent (p : Path) : NeverRefuses (FileOperation.makeParent p) := by
  unfold FileOperation.makeParent
  split
  · exact makeDirectories _
  · exact pure _

/-- **Operations work and never refuse**: a directory, a copy, or a file with its permission bits. -/
theorem execute (operation : FileOperation) : NeverRefuses operation.execute := by
  cases operation with
  | directory target => exact makeDirectories target
  | copy source target => exact (makeParent target).bind fun _ => change _
  | write source target content =>
    refine (makeParent target).bind fun _ => ?_
    exact (change _).bind fun _ => change _

/-- The choice of an operation asks for no more than the content of the file. -/
theorem forFile (source target : Path) (static : Bool) (render : Bytes → Bytes) :
    NeverRefuses (FileOperation.forFile source target static render) := by
  unfold FileOperation.forFile
  split
  · exact pure _
  · exact (query _).bind fun _ => pure _

/-- An entry is placed by one operation, which is counted then. -/
theorem place (report : GenerateReport) (sighting : Sighting) (relative : String) (target : Path)
    (globs : PatternSet) (render : Bytes → Bytes) :
    NeverRefuses (Generate.place report sighting relative target globs render) := by
  have hcarry : ∀ operation : FileOperation,
      NeverRefuses (do operation.execute; return report.count operation) :=
    fun operation => (execute operation).bind fun _ => pure _
  unfold Generate.place
  dsimp only
  split
  · exact hcarry _
  · refine (query _).bind fun static => ?_
    exact (forFile _ _ _ _).bind hcarry

/-- A visit in a template passes over its description, and places everything else. -/
theorem visitTemplate (template : Path) (metadata : Metadata) (values : Values) (globs : PatternSet)
    (report : GenerateReport) (sighting : Sighting) :
    NeverRefuses (visitTemplate template metadata values globs report sighting) := by
  unfold Generate.visitTemplate
  split
  · exact pure _
  · split
    · exact pure _
    · refine (relativePath _ _).bind fun relative => ?_
      refine (joinUnder _ _).bind fun target => ?_
      exact (place _ _ _ _ _ _).bind fun _ => pure _

theorem visitSourceEntry (c : Config) (values : Values) (globs : PatternSet) (report : GenerateReport)
    (sighting : Sighting) (relative : String) :
    NeverRefuses (visitSourceEntry c values globs report sighting relative) :=
  (joinUnder _ _).bind fun _ => place _ _ _ _ _ _

/-- A configuration that cannot be copied is told about, not refused. -/
theorem copyConfig (output : Path) (config : Option Path) :
    NeverRefuses (copyConfig output config) := by
  unfold Generate.copyConfig
  split
  · exact pure _
  · dsimp only
    split
    · exact emit _
    · have hget : NeverRefuses (get : Task World) := fun _ _ _ h => by cases h
      refine hget.bind fun w => ?_
      split
      · rename_i d _
        have hput : NeverRefuses (modify fun w => { w with disk := d } : Task PUnit) :=
          fun _ _ _ h => by cases h
        exact hput.bind fun _ => emit _
      · exact emit _

/-- A visit of a build places an entry in the template, and counts files only. -/
theorem visit (c : Config) (template : Path) (globs : PatternSet) (report : BuildReport)
    (sighting : Sighting) (relative : String) :
    NeverRefuses (Build.visit c template globs report sighting relative) := by
  refine (joinUnder _ _).bind fun target => ?_
  split
  · exact (execute _).bind fun _ => pure _
  · refine (query _).bind fun static => ?_
    refine (forFile _ _ _ _).bind fun operation => ?_
    exact (execute operation).bind fun _ => pure _

/-- Making the output root can fail in the system, but whether it is taken was asked before. -/
theorem makeOutput (output : Path) : NeverRefuses (makeOutput output) :=
  (makeDirectories output).bind fun _ => query _

/-- **All that follows the making of the output root never refuses**, whichever the project is made
    from. -/
theorem fill (m : Material) (output : Path) (config : Option Path) :
    NeverRefuses (m.fill output config) := by
  cases m with
  | template template metadata values =>
    refine (emit _).bind fun _ => ?_
    refine (walkTree (visitTemplate template metadata values _) template _).bind fun report => ?_
    exact (copyConfig _ _).bind fun _ => pure _
  | source source c values =>
    refine (emit _).bind fun _ => ?_
    refine (look _).bind fun template => ?_
    refine (look _).bind fun extra => ?_
    refine (walkSource (visitSourceEntry c values _) source _ _ _).bind ?_
    rintro ⟨report, ignored⟩
    exact (copyConfig _ _).bind fun _ => pure _

end NeverRefuses

end Task

/-! ## The commands -/

open Stencil.Task Origin

variable {c : Config} {template output : Path} {resolver : Variables → Resolution}
  {config : Option Path} {now : Timestamp} {w w' : World} {e : Error}

/-- A source root that is not there refuses a command, which has only looked then. -/
theorem readsOnly_canonicalSource (c : Config) : ReadsOnly c.canonicalSource := by
  intro P
  refine (Keeps.look _).bind fun found _ => ?_
  split
  · exact Keeps.pure trivial
  · exact Keeps.throw _

theorem readsOnly_announce (m : Material) (path : Path) : ReadsOnly (m.announce path) := by
  intro P
  cases m with
  | template => exact Keeps.pure trivial
  | source => exact Keeps.emit _

/-- A generation refuses before it makes the output root. -/
theorem Origin.refusesFirst_generate (o : Origin) :
    RefusesFirst (o.generate output resolver config) := by
  rw [Origin.generate_eq]
  refine RefusesFirst.after_reading (fun _ => keeps_opened o) ?_
  rintro ⟨declared, material⟩
  refine RefusesFirst.after_reading (fun _ => keeps_prepare resolver declared output) ?_
  rintro ⟨values, path⟩
  refine RefusesFirst.after_reading (readsOnly_announce _ path) fun _ => ?_
  have hwork : NeverRefuses (do
      let root ← makeOutput path
      (material values path).fill root config) :=
    (NeverRefuses.makeOutput path).bind fun root => NeverRefuses.fill _ root config
  exact hwork.refusesFirst

/-- An earlier template is taken away after the last refusal. -/
theorem Build.refusesFirst_removeExisting (source template : Path) :
    RefusesFirst (Build.removeExisting source template) := by
  refine RefusesFirst.after_reading (fun _ => Keeps.look _) fun there => ?_
  split
  · refine RefusesFirst.after_reading (fun _ => Keeps.query _) fun existing => ?_
    have hchange : NeverRefuses (Task.change (·.removeTree existing)) := NeverRefuses.change _
    split
    · exact RefusesFirst.after_reading (fun _ => Keeps.throw _) fun _ => hchange.refusesFirst
    · exact hchange.refusesFirst
  · exact (NeverRefuses.pure _).refusesFirst

/-- A build once an earlier template is taken away. -/
def Build.refill (c : Config) (source template : Path) (now : Timestamp) : Task BuildReport := do
  Task.makeDirectories template
  let template ← Task.query (·.canonical template)
  let extra ← Task.look (Config.readIgnoreFile · source)
  let globs := PatternSet.read c.staticGlobs
  let (report, _) ←
    walkSource source [template] (c.ignoreRules extra) (Build.visit c template globs) {}
  (Metadata.ofConfig c now).save template
  return report

/-- Once an earlier template is gone, a build refuses no more. -/
theorem Build.neverRefuses_refill (c : Config) (source template : Path) (now : Timestamp) :
    NeverRefuses (Build.refill c source template now) := by
  refine (NeverRefuses.makeDirectories template).bind fun _ => ?_
  refine (NeverRefuses.query _).bind fun template => ?_
  refine (NeverRefuses.look _).bind fun extra => ?_
  refine (NeverRefuses.walkSource (NeverRefuses.visit c template _) source _ _ _).bind ?_
  rintro ⟨report, ignored⟩
  exact (NeverRefuses.change _).bind fun _ => NeverRefuses.pure _

/-- A build refuses before it takes an earlier template away. -/
theorem refusesFirst_buildTemplate : RefusesFirst (buildTemplate c template now) := by
  refine RefusesFirst.after_reading (readsOnly_canonicalSource c) fun source => ?_
  refine RefusesFirst.after_reading (fun _ => Keeps.query _) fun template => ?_
  exact (Build.refusesFirst_removeExisting source template).before_working fun _ =>
    Build.neverRefuses_refill c source template now

/-- **A refused call leaves the disk as it was**: a generation from a template, one from a source tree
    and a build, whatever they are given and whatever the disk. -/
theorem disk_eq_of_refusal (c : Config) (template output : Path) (resolver : Variables → Resolution)
    (config : Option Path) (now : Timestamp) (hrefusal : e.isRefusal = true) :
    ((generate template output resolver config).run w = .error e w' → w'.disk = w.disk) ∧
    ((scaffold c output resolver config).run w = .error e w' → w'.disk = w.disk) ∧
    ((buildTemplate c template now).run w = .error e w' → w'.disk = w.disk) := by
  refine ⟨fun h => ?_, fun h => ?_, fun h => ?_⟩
  · exact (Origin.template template).refusesFirst_generate w e w' h hrefusal
  · exact (Origin.source c).refusesFirst_generate w e w' h hrefusal
  · exact refusesFirst_buildTemplate w e w' h hrefusal

/-- A template without a description, an output path that is taken, and a template root with the source
    tree in it. -/
theorem refused_twoFolders :
    let c : Config := { sourceRoot := .ofString "/src" }
    let root : Path := .ofString "/"
    let old : Path := .ofString "/old"
    (∃ w', (generate old (.ofString "/new") nothingAsked none).run ⟨twoFolders, []⟩ =
        .error (.metadata old (.unreadable .notFound)) w' ∧ w'.disk = twoFolders) ∧
      (∃ w', (scaffold c old nothingAsked none).run ⟨twoFolders, []⟩ =
        .error (.outputExists old) w' ∧ w'.disk = twoFolders) ∧
      ∃ w', (buildTemplate c root default).run ⟨twoFolders, []⟩ =
        .error (.config (.templateHoldsSource root)) w' ∧ w'.disk = twoFolders := by
  intro c root old
  have hmetadata : (generate old (.ofString "/new") nothingAsked none).failure? ⟨twoFolders, []⟩ =
      some (.metadata old (.unreadable .notFound)) := by decide +kernel
  have htaken : (scaffold c old nothingAsked none).failure? ⟨twoFolders, []⟩ =
      some (.outputExists old) := by decide +kernel
  have hholds : (buildTemplate c root default).failure? ⟨twoFolders, []⟩ =
      some (.config (.templateHoldsSource root)) := by decide +kernel
  obtain ⟨w₁, hgenerate⟩ := exists_run_of_failure? hmetadata
  obtain ⟨w₂, hscaffold⟩ := exists_run_of_failure? htaken
  obtain ⟨w₃, hbuild⟩ := exists_run_of_failure? hholds
  have hfirst : (Error.metadata old (.unreadable .notFound)).isRefusal = true := rfl
  have hsecond : (Error.outputExists old).isRefusal = true := rfl
  have hthird : (Error.config (.templateHoldsSource root)).isRefusal = true := rfl
  have hgenerated :=
    (disk_eq_of_refusal c old (.ofString "/new") nothingAsked none default hfirst).1 hgenerate
  have hscaffolded := (disk_eq_of_refusal c old old nothingAsked none default hsecond).2.1 hscaffold
  have hbuilt := (disk_eq_of_refusal c root old nothingAsked none default hthird).2.2 hbuild
  exact ⟨⟨w₁, hgenerate, hgenerated⟩, ⟨w₂, hscaffold, hscaffolded⟩, ⟨w₃, hbuild, hbuilt⟩⟩

end Stencil
