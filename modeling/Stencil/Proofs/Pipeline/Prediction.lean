/-
  A survey predicts the pipelines.

  A survey counts what a build or a generation from the source tree will take up, but it looks at another
  disk: the build has replaced the template before it walks, the generation has made the project.  And
  each passes over something else, the survey over the template root if that is there, the build over the
  new one, the generation over the project too.

  1. **The sights.**  What was on the disk before is passed over by both or by neither, it is the same
     where it is not, and what is there only afterwards are directories (`SameSights`).  So the two walks
     meet the same files (`SameSights.countFiles_eq`), and where one can read the other can.
  2. **The build** keeps to that: at the template root there was nothing, or an earlier template that the
     survey passes over (`Build.sameSights`).
  3. **The generation** does too: nothing was in the place of the project, and if the path of the template
     root leads somewhere only afterwards, it leads to a new directory (`Generate.sameSights`).

  Both roots are spelled without a step back; with one, making them can bring the path of a template root
  to lead to what was there before.
-/
import Stencil.Proofs.Build.Root
import Stencil.Proofs.Pipeline.Source
import Stencil.Proofs.Survey

namespace Stencil

open Disk Walk

variable {c : Config} {w w' : World} {d d' : Disk} {p : Path} {source top root x : Location} {e : Entry}

/-! ## Two walks -/

/-- One walk passes over `skip` on the disk `d`, the other over `skip'` on the disk `d'`.  What lies on the
    first disk is passed over by both or by neither, and if not, it is there on both.  Anything else on the
    second disk is a directory. -/
structure SameSights (d d' : Disk) (skip skip' : List Location) : Prop where
  passed : ∀ {x e}, d.get? x = some e → ((∃ s ∈ skip, s <+: x) ↔ ∃ s ∈ skip', s <+: x)
  same : ∀ {x e}, (∀ s ∈ skip', ¬ s <+: x) → d.get? x = some e → d'.get? x = some e
  new : ∀ {x e}, (∀ s ∈ skip', ¬ s <+: x) → d.get? x = none → d'.get? x = some e →
    e = .directory Entry.directoryMode

namespace SameSights

variable {skip skip' : List Location} {rules : IgnoreRules}

/-- Directories that were made make no difference to what is not passed over. -/
theorem of_grown {P : Location → Prop} (h : Grown P d d')
    (hpassed : ∀ {x e}, d.get? x = some e → ((∃ s ∈ skip, s <+: x) ↔ ∃ s ∈ skip', s <+: x)) :
    SameSights d d' skip skip' where
  passed := hpassed
  same := fun _ he => h.get?_of_some he
  new := fun _ hnone he => h.eq_directory hnone he

section

variable (h : SameSights d d' skip skip')

include h

/-- The files that are not passed over are the same. -/
theorem get?_file_iff {mode : Mode} {content : Bytes} (hx : ∀ s ∈ skip', ¬ s <+: x) :
    d.get? x = some (.file mode content) ↔ d'.get? x = some (.file mode content) := by
  refine ⟨h.same hx, fun hfile => ?_⟩
  cases hthere : d.get? x with
  | none => cases h.new hx hthere hfile
  | some e => rw [← hfile, h.same hx hthere]

/-- What lies on the first disk is admitted by both walks or by neither. -/
theorem admits_eq (he : d.get? x = some e) :
    admitsSource d source skip rules x = admitsSource d' source skip' rules x := by
  have hskip : skip.any (isBelow · x) = skip'.any (isBelow · x) := by
    rw [Bool.eq_iff_iff, any_isBelow_iff, any_isBelow_iff]
    exact h.passed he
  rw [admitsSource, admitsSource, hskip]
  cases hover : skip'.any (isBelow · x) with
  | true => rfl
  | false =>
    have hthere := h.same (any_isBelow_eq_false_iff.mp hover) he
    rw [isDirectoryAt_of_get? he, isDirectoryAt_of_get? hthere]

theorem admitted_iff (he : d.get? x = some e) :
    Admitted (admitsSource d source skip rules) source x ↔
      Admitted (admitsSource d' source skip' rules) source x := by
  -- what lies above is on the first disk too
  have habove : ∀ q, q <+: x →
      admitsSource d source skip rules q = admitsSource d' source skip' rules q := by
    intro q hq
    by_cases hx : q = x
    · exact h.admits_eq (hx ▸ he)
    · obtain ⟨mode, hmode⟩ := isDirectoryAt_iff.mp (isDirectoryAt_above he hq hx)
      exact h.admits_eq hmode
  constructor
  · rintro ⟨hbelow, hne, hway⟩
    exact ⟨hbelow, hne, fun q hq htop hq' => habove q hq ▸ hway q hq htop hq'⟩
  · rintro ⟨hbelow, hne, hway⟩
    exact ⟨hbelow, hne, fun q hq htop hq' => (habove q hq).symm ▸ hway q hq htop hq'⟩

/-- **The two walks meet the same files.** -/
theorem countFiles_eq : countFiles d (d.tour (admitsSource d source skip rules) source) =
    countFiles d' (d'.tour (admitsSource d' source skip' rules) source) := by
  have hfiles : (d.tour (admitsSource d source skip rules) source).filter
        (fun x => (d.get? x).map Entry.kind = some .file) =
      (d'.tour (admitsSource d' source skip' rules) source).filter
        (fun x => (d'.get? x).map Entry.kind = some .file) := by
    refine eq_of_mem_iff ((pairwise_tour ..).filter _) ((pairwise_tour ..).filter _) fun x => ?_
    simp only [List.mem_filter, mem_tour, decide_eq_true_eq, Option.map_eq_some_iff]
    constructor
    · rintro ⟨⟨hx, e, he⟩, e', he', hkind⟩
      have hx' := (h.admitted_iff he).mp hx
      have hthere := h.same (fun s hs => not_below_of_admits hx'.self hs) he'
      exact ⟨⟨hx', e', hthere⟩, e', hthere, hkind⟩
    · rintro ⟨⟨hx, e, he⟩, e', he', hkind⟩
      have hout : ∀ s ∈ skip', ¬ s <+: x := fun s hs => not_below_of_admits hx.self hs
      cases hthere : d.get? x with
      | none =>
        rw [h.new hout hthere he'] at hkind
        cases hkind
      | some e'' =>
        have hsame : e'' = e' := Option.some.inj ((h.same hout hthere).symm.trans he')
        exact ⟨⟨(h.admitted_iff hthere).mpr hx, e'', rfl⟩, e'', rfl, hsame ▸ hkind⟩
  rw [countFiles, countFiles, List.countP_eq_length_filter, List.countP_eq_length_filter, hfiles]

/-- The ignore file says the same on both disks, if it is not passed over. -/
theorem rules_eq (hlinkless : d.IsLinkless) (hlinkless' : d'.IsLinkless) (he : d.get? source = some e)
    (hout : ∀ s ∈ skip', ¬ s <+: source ++ [Bytes.ofString Defaults.ignoreFile]) :
    Build.rules c d' source = Build.rules c d source := by
  have hagree : AgreeTo d d' source := by
    intro q hq
    have hout' : ∀ s ∈ skip', ¬ s <+: q := fun s hs hbelow =>
      hout s hs ((hbelow.trans hq).trans (List.prefix_append source _))
    by_cases hx : q = source
    · rw [hx, he, h.same (hx ▸ hout') he]
    · obtain ⟨mode, hmode⟩ := isDirectoryAt_iff.mp (isDirectoryAt_above he hq hx)
      rw [hmode, h.same hout' hmode]
  rw [Build.rules, Build.rules, readIgnoreFile_congr hlinkless hlinkless' (isDescent_of_get? he) hagree
    fun mode content => h.get?_file_iff hout]

/-- Where the second walk can read, the first can. -/
theorem isReadable (hread : IsReadable d' (d'.tour (admitsSource d' source skip' rules) source)) :
    IsReadable d (d.tour (admitsSource d source skip rules) source) := by
  intro x hx hdir
  obtain ⟨hadmitted, e, he⟩ := mem_tour.mp hx
  have hadmitted' := (h.admitted_iff he).mp hadmitted
  have hthere := h.same (fun s hs => not_below_of_admits hadmitted'.self hs) he
  rw [isDirectoryAt_of_get? he, ← isDirectoryAt_of_get? hthere] at hdir
  exact hread x (mem_tour.mpr ⟨hadmitted', e, hthere⟩) hdir

end

end SameSights

/-- What a survey comes to, if another walk has met what it meets. -/
theorem run_survey_of_sights {skip' : List Location} (hlinkless : w.disk.IsLinkless)
    (htexts : w.disk.IsTextual) (hfound : w.disk.reach c.sourceRoot = .ok source)
    (h : SameSights w.disk d' (Survey.skip c w.disk) skip')
    (hrules : Build.rules c d' source = Build.rules c w.disk source)
    (hread : (pathOf source).text.length < maxPath ∧
      IsReadable d' (d'.tour (admitsSource d' source skip' (Build.rules c d' source)) source)) :
    ∃ s, (survey c).run w = .ok s w ∧ s.files =
      countFiles d' (d'.tour (admitsSource d' source skip' (Build.rules c d' source)) source) := by
  rw [hrules] at hread ⊢
  rw [← h.countFiles_eq]
  exact run_survey hlinkless htexts hfound hread.1 (h.isReadable hread.2)

/-! ## Paths without a step back -/

namespace Disk

/-- Without links and steps back, a path reaches the place that it spells. -/
theorem eq_spelled_of_reach (hlinkless : d.IsLinkless) (hback : Path.back ∉ p.names)
    (h : d.reach p = .ok x) : x = d.spelled p :=
  Leads.location_eq (leadsTo_of_reach h) (Path.back_not_mem_pieces hback) (hlinkless.isPlain _)

/-- A path without a step back reaches the directory that it spells. -/
theorem reach_spelled (hback : Path.back ∉ p.names) (hnul : p.text.contains 0 = false)
    (hnonempty : p.text ≠ []) (hdir : isDirectoryAt d.table (d.spelled p) = true) :
    d.reach p = .ok (d.spelled p) := by
  have hwalk : resolve d true maxLinks (startOf p.text d.here) (Path.pieces p.text) =
      .ok (.found (d.spelled p)) := by
    rw [← List.append_nil (Path.pieces p.text), resolve_append (Path.back_not_mem_pieces hback) hdir]
    exact resolve_nil _
  exact reach_eq_ok_iff.mpr ⟨hnul, by simpa using hnonempty, hwalk⟩

/-- A path without a step back reaches the same where the same lies on its way. -/
theorem reach_congr (hlinkless : d.IsLinkless) (hback : Path.back ∉ p.names) (hhere : d'.here = d.here)
    (hagree : AgreeTo d d' (d.spelled p)) : d.reach p = d'.reach p := by
  have hresolve : resolve d true maxLinks (startOf p.text d.here) (Path.pieces p.text) =
      resolve d' true maxLinks (startOf p.text d.here) (Path.pieces p.text) :=
    advance_congr (Path.back_not_mem_pieces hback) (hlinkless.isPlain _) hagree
  rw [reach, reach, hhere, hresolve]

end Disk

/-! ## The build -/

namespace Build

variable {template : Path} {now : Timestamp} {report : BuildReport}

section

variable (h : TemplateStart template d source p top d') (hlinkless : d.IsLinkless)
  (hback : Path.back ∉ template.names)

include h hlinkless

theorem TemplateStart.isLinkless_cleared : (cleared d p).IsLinkless := fun x target hlink =>
  hlinkless x target (get?_of_get?_cleared h.outside hlink)

theorem TemplateStart.isLinkless : d'.IsLinkless :=
  (grown_of_makeDirectories_aim h.made).2.isLinkless (h.isLinkless_cleared hlinkless)

include hback

/-- The new template lies where its path is spelled. -/
theorem TemplateStart.eq_spelled : top = d.spelled template :=
  (spells_absolute hback h.named).eq_of_find ((h.isLinkless hlinkless).isPlain _) h.found

omit hlinkless in
/-- Nothing is at the place of a new template when it is made. -/
theorem TemplateStart.free : (cleared d p).get? top = none :=
  free_of_makeDirectories (spells_absolute hback h.named).back_not_mem_names
    (find_cleared_ne_ok h.outside) h.made h.found

/-- A new template is empty. -/
theorem TemplateStart.filled : Filled top [] d' d' := by
  have hp := spells_absolute hback h.named
  refine filled_of_tidy h.made h.found (h.free hback) fun x hway _ hbelow => ?_
  have habove := hway.isPrefix hp ((h.isLinkless_cleared hlinkless).isPlain _)
  rw [← h.eq_spelled hlinkless hback] at habove
  exact habove.eq_of_length_le hbelow.length_le

/-- What was there is there still outside of the template. -/
theorem TemplateStart.get?_of_some (hout : ¬ top <+: x) (he : d.get? x = some e) :
    d'.get? x = some e := by
  refine (grown_of_makeDirectories_aim h.made).2.get?_of_some ?_
  rw [get?_cleared fun loc hloc => ?_, he]
  have hp := spells_absolute hback h.named
  rwa [hp.eq_of_find (hlinkless.isPlain _) hloc, ← h.eq_spelled hlinkless hback]

end

/-- What was there in the place of a template lay in an earlier template. -/
theorem TemplateStart.find_eq_ok (h : TemplateStart template d source p top d') (hlinkless : d.IsLinkless)
    (hback : Path.back ∉ template.names) (he : d.get? x = some e) (hbelow : top <+: x) :
    d.find true p = .ok top := by
  have hfree := h.free hback
  rw [cleared] at hfree
  cases hfind : d.find true p with
  | error fault =>
    rw [hfind] at hfree
    exact absurd hbelow (not_below_of_free hfree he)
  | ok loc =>
    rw [(spells_absolute hback h.named).eq_of_find (hlinkless.isPlain _) hfind,
      h.eq_spelled hlinkless hback]

section

variable (h : TemplateStart c.templateRoot d source p top d') (hlinkless : d.IsLinkless)
  (hback : Path.back ∉ c.templateRoot.names)

include h hlinkless hback

/-- **A survey passes over an earlier template** as the build does over the new one. -/
theorem TemplateStart.sameSights : SameSights d d' (Survey.skip c d) [top] where
  passed := by
    intro x e he
    have htop := h.eq_spelled hlinkless hback
    simp only [List.mem_singleton, exists_eq_left]
    constructor
    · rintro ⟨s, hs, hbelow⟩
      rwa [eq_spelled_of_reach hlinkless hback (mem_toList_reach.mp hs), ← htop] at hbelow
    · intro hbelow
      have hdir := h.replaced top (h.find_eq_ok hlinkless hback he hbelow)
      have hreach : d.reach c.templateRoot = .ok (d.spelled c.templateRoot) :=
        reach_spelled hback (noNul_of_absolute h.named (Path.admissible_of_find h.found).noNul)
          (text_ne_nil_of_absolute h.named) (htop ▸ hdir)
      exact ⟨top, mem_toList_reach.mpr (htop ▸ hreach), hbelow⟩
  same := fun hout he => h.get?_of_some hlinkless hback (hout top List.mem_cons_self) he
  new := by
    intro x e _ hnone he
    have hcleared : (cleared d p).get? x = none :=
      Option.eq_none_iff_forall_ne_some.mpr fun e' hthere =>
        Option.some_ne_none e' ((get?_of_get?_cleared h.outside hthere).symm.trans hnone)
    exact (grown_of_makeDirectories_aim h.made).2.eq_directory hcleared he

omit hlinkless in
/-- The source tree is there, and so outside of the template. -/
theorem TemplateStart.not_below (he : d.get? source = some e) : ¬ top <+: source :=
  not_below_of_free (h.free hback) ((get?_cleared h.outside).trans he)

/-- The start of a build changes nothing about what is left out. -/
theorem TemplateStart.rules_eq (he : d.get? source = some e) : rules c d' source = rules c d source := by
  by_cases hbelow : top <+: source ++ [Bytes.ofString Defaults.ignoreFile]
  · -- a template in the place of the ignore file has a directory there, before and after
    have htop := (List.prefix_concat_iff.mp hbelow).resolve_right (h.not_below hback he)
    have hspells := spells_ignoreFile (isDescent_of_get? he)
    rw [← htop] at hspells
    rw [rules, rules, readIgnoreFile_of_no_file hspells ((h.isLinkless hlinkless).isPlain _),
      readIgnoreFile_of_no_file hspells (hlinkless.isPlain _)]
    · intro mode content hfile
      have hdir := h.replaced top (h.find_eq_ok hlinkless hback hfile (List.prefix_refl top))
      rw [isDirectoryAt_of_get? hfile] at hdir
      cases hdir
    · intro mode content hfile
      have hdir := (h.filled hlinkless hback).rooted
      rw [isDirectoryAt_of_get? hfile] at hdir
      cases hdir
  · exact (h.sameSights hlinkless hback).rules_eq hlinkless (h.isLinkless hlinkless) he
      (List.forall_mem_singleton.mpr hbelow)

end

/-- **A survey predicts the build** into the template root of the configuration. -/
theorem run_survey_of_build {now : Timestamp} {report : BuildReport} (hlinkless : w.disk.IsLinkless)
    (htexts : w.disk.IsTextual) (hback : Path.back ∉ c.templateRoot.names)
    (hbuild : (buildTemplate c c.templateRoot now).run w = .ok report w') :
    ∃ s, (survey c).run w = .ok s w ∧ s.files = report.files := by
  obtain ⟨source, p, top, ignored, ws, ww, hfound, hstart, hwalk, -⟩ := buildTemplate_eq_ok hbuild
  obtain ⟨e, he⟩ := exists_get?_of_reach hfound
  have hsource : IsDescent source := isDescent_of_get? he
  have hlinkless' : ws.disk.IsLinkless := hstart.isLinkless hlinkless
  have hfilled : Filled top [] ws.disk ws.disk := hstart.filled hlinkless hback
  have hguides := guides_visit (c := c) hfilled (fun x target _ => hlinkless' x target)
    (hstart.not_below hback he)
  have hread := hguides.isReadable hsource (hlinkless'.isPlain source) ⟨[], rfl, rfl, hfilled⟩ hwalk
  obtain ⟨products, hproducts, rfl, -⟩ : Built c ws.disk source top _ report ww :=
    hguides.walkTree hsource (hlinkless'.isPlain source) ⟨[], rfl, rfl, hfilled⟩ hwalk
  obtain ⟨s, hsurvey, hfiles⟩ := run_survey_of_sights hlinkless htexts hfound
    (hstart.sameSights hlinkless hback) (hstart.rules_eq hlinkless hback he) hread
  exact ⟨s, hsurvey, hfiles.trans (Recipe.countP_isFile hproducts).symm⟩

end Build

/-! ## The generation -/

namespace Generate

variable {output : Path} {resolver : Variables → Resolution} {values : Values} {config : Option Path}
  {report : GenerateReport}

/-- What was there before a project was made is passed over afterwards, if it is passed over before, and
    not otherwise. -/
theorem mem_skip_iff (hmade : d.makeDirectories p = (d', .ok ())) (hlinkless : d.IsLinkless)
    (hback : Path.back ∉ c.templateRoot.names) (hfree : d.get? root = none) (he : d.get? x = some e) :
    (∃ s ∈ Survey.skip c d, s <+: x) ↔ ∃ s ∈ root :: Survey.skip c d', s <+: x := by
  obtain ⟨hhere, hgrown⟩ := grown_of_makeDirectories_aim hmade
  have hkeeps : Keeps d d' := by
    have hmade' := keeps_makeDirectories d p
    rwa [hmade] at hmade'
  constructor
  · rintro ⟨s, hs, hbelow⟩
    have hreach : d'.reach c.templateRoot = .ok s := hkeeps.reach (mem_toList_reach.mp hs)
    exact ⟨s, List.mem_cons_of_mem root (mem_toList_reach.mpr hreach), hbelow⟩
  · rintro ⟨s, hs, hbelow⟩
    rcases List.mem_cons.mp hs with rfl | hs
    · exact absurd hbelow (not_below_of_free hfree he)
    · -- the template root was there, since something below it was
      have hreach : d'.reach c.templateRoot = .ok s := mem_toList_reach.mp hs
      have hlinkless' : d'.IsLinkless := hgrown.isLinkless hlinkless
      have hspelled : s = d.spelled c.templateRoot := by
        rw [eq_spelled_of_reach hlinkless' hback hreach, spelled, spelled, hhere]
      have hagree : AgreeTo d d' (d.spelled c.templateRoot) := by
        intro q hq
        rw [← hspelled] at hq
        obtain ⟨e', hthere⟩ := exists_get?_above he (hq.trans hbelow)
        rw [hgrown.get?_of_some hthere, hthere]
      refine ⟨s, mem_toList_reach.mpr ?_, hbelow⟩
      rw [reach_congr hlinkless hback hhere hagree, hreach]

/-- **A survey predicts the generation** from the source tree. -/
theorem run_survey_of_scaffold (hlinkless : w.disk.IsLinkless) (htexts : w.disk.IsTextual)
    (hback : Path.back ∉ c.templateRoot.names) (hvalues : (resolver c.declared).result = .ok values)
    (hpath : (w.disk.absolute output).map (projectOutput · values) = .ok p)
    (hstraight : Path.back ∉ p.names)
    (hrun : (scaffold c output resolver config).run w = .ok report w') :
    ∃ s, (survey c).run w = .ok s w ∧ s.files = report.templated + report.static := by
  obtain ⟨values', path', source, root, ignored, ws, ww, hfound, hstart, hwalk, -⟩ := scaffold_eq_ok hrun
  obtain rfl := Except.ok.inj (hvalues.symm.trans hstart.resolved)
  obtain rfl := Except.ok.inj (hpath.symm.trans hstart.named)
  obtain ⟨e, he⟩ := exists_get?_of_reach hfound
  have hsource : IsDescent source := isDescent_of_get? he
  have hgrown := (grown_of_makeDirectories_aim hstart.made).2
  have hlinkless' : ws.disk.IsLinkless := hgrown.isLinkless hlinkless
  have hfree : w.disk.get? root = none :=
    free_of_makeDirectories hstraight hstart.missing hstart.made hstart.found
  have hout : ¬ root <+: source := not_below_of_free hfree he
  have hfilled := filled_of_aimsAtFree hstart.made hstart.found hfree
  -- the walk of the generation
  rw [skip_eq] at hwalk
  have hmerged := c.rules.merged_extend (deriveRules (lastName (pathOf source)) (lastName p))
  have hunlinked : ∀ x target, source <+: x → ws.disk.get? x ≠ some (.link target) :=
    fun x target _ => hlinkless' x target
  have hskip : ∀ s ∈ root :: Survey.skip c ws.disk, IsDescent s :=
    fun s => isDescent_of_mem_skip hfilled.rooted
  obtain ⟨products, hproducts, rfl, -⟩ := generated_of_unlinked_walkSource hmerged hfilled hsource
    (hlinkless'.isPlain source) hunlinked hout hskip List.mem_cons_self hwalk
  have hread := isReadable_of_unlinked_walkSource hmerged hfilled hsource (hlinkless'.isPlain source)
    hunlinked hout hskip List.mem_cons_self hwalk
  -- what the survey meets
  have hgrown' : SameSights w.disk ws.disk [] [] := .of_grown hgrown fun _ => Iff.rfl
  have hrules : Build.rules c ws.disk source = Build.rules c w.disk source :=
    hgrown'.rules_eq hlinkless hlinkless' he (List.forall_mem_nil _)
  obtain ⟨s, hsurvey, hfiles⟩ := run_survey_of_sights hlinkless htexts hfound
    (.of_grown hgrown fun he => mem_skip_iff hstart.made hlinkless hback hfree he) hrules hread
  refine ⟨s, hsurvey, hfiles.trans ((Recipe.countP_isFile hproducts).symm.trans ?_)⟩
  rw [Product.countP_isFile]
  rfl

end Generate

/-- **A survey predicts the pipelines**, on a disk without links whose names are texts, for a template
    root and a path of the project without a step back.  When a build into the template root of the
    configuration succeeds, so does the survey of the disk before it, and it counts the files of the
    build.  When a generation from the source tree succeeds, so does the survey of the disk before it, and
    it counts the files of the project. -/
theorem survey_predicts (hlinkless : w.disk.IsLinkless) (htexts : w.disk.IsTextual)
    (htemplate : Path.back ∉ c.templateRoot.names) :
    (∀ now report w', (buildTemplate c c.templateRoot now).run w = .ok report w' →
      ∃ s, (survey c).run w = .ok s w ∧ s.files = report.files) ∧
    ∀ output resolver config values p report w', (resolver c.declared).result = .ok values →
      (w.disk.absolute output).map (projectOutput · values) = .ok p → Path.back ∉ p.names →
      (scaffold c output resolver config).run w = .ok report w' →
      ∃ s, (survey c).run w = .ok s w ∧ s.files = report.templated + report.static :=
  ⟨fun _ _ _ => Build.run_survey_of_build hlinkless htexts htemplate,
    fun _ _ _ _ _ _ _ hvalues hpath hstraight =>
      Generate.run_survey_of_scaffold hlinkless htexts htemplate hvalues hpath hstraight⟩

/-- A template root in the source tree that is there already, and a project with a new directory above
    it. -/
theorem survey_predicts_namedTree :
    let c : Config := { sourceRoot := .ofString "/App", templateRoot := .ofString "/App/t" }
    let output : Path := .ofString "/App/new/Net"
    let w : World := ⟨namedTree, []⟩
    ∃ s, (survey c).run w = .ok s w ∧
      (∃ w', (buildTemplate c c.templateRoot default).run w = .ok ⟨1, 1, 0⟩ w' ∧ s.files = 1) ∧
      ∃ w', (scaffold c output (fun _ => ⟨.ok ∅, []⟩) none).run w = .ok ⟨output, 1, 0⟩ w' ∧
        s.files = 1 + 0 := by
  intro c output w
  have hlinkless : namedTree.IsLinkless := isLinkless_of_all (by decide +kernel)
  have htexts : namedTree.IsTextual := isTextual_of_all ["App", "t", "x"] (by decide +kernel)
  have hbuilt : (buildTemplate c c.templateRoot default).answer? w = some ⟨1, 1, 0⟩ := by
    decide +kernel
  have hmade : (scaffold c output (fun _ => ⟨.ok ∅, []⟩) none).answer? w = some ⟨output, 1, 0⟩ := by
    decide +kernel
  have hpath : (w.disk.absolute output).map (projectOutput · ∅) = .ok output := by decide +kernel
  obtain ⟨wb, hbuild⟩ := Task.exists_run_of_answer? hbuilt
  obtain ⟨ws, hscaffold⟩ := Task.exists_run_of_answer? hmade
  obtain ⟨hbuilds, hgenerates⟩ := survey_predicts (c := c) (w := w) hlinkless htexts (by decide +kernel)
  obtain ⟨s, hsurvey, hfiles⟩ := hbuilds _ _ _ hbuild
  obtain ⟨s', hsurvey', hfiles'⟩ := hgenerates _ _ _ _ _ _ _ rfl hpath (by decide +kernel) hscaffold
  -- it is one survey that predicts both
  cases hsurvey.symm.trans hsurvey'
  exact ⟨s, hsurvey, ⟨wb, hbuild, hfiles⟩, ws, hscaffold, hfiles'⟩

end Stencil
