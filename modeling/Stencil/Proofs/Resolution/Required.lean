/-
  Values of required variables.

  A value comes from an override, an answer, a default or a transform, and each way but the last one
  leaves a required variable with a value that is not blank, or with none at all.  A transform can
  turn a value into the empty text (`isBlank_transform_iff`), and the result is not looked at again.

  So a required variable ends up blank exactly if a slug erases the value of its source
  (`Final.isBlank_iff`), and the values found fill all required variables exactly if that happens to
  none of them.
-/
import Stencil.Proofs.Resolution.Outcome
import Stencil.Proofs.Transform.Blank

namespace Stencil.Resolution

variable {o : Overrides} {declared : Variables} {exchanges : List (Question × Reply)}
  {name x : String} {v : Variable}

/-- Every required variable has a value that is not blank. -/
def RequiredFilled (declared : Variables) (values : Values) : Prop :=
  ∀ name v, declared.get? name = some v → v.required = true →
    ∃ x, values.get? name = some x ∧ isBlank x = false

instance (declared : Variables) (values : Values) : Decidable (RequiredFilled declared values) :=
  decidable_of_iff
    (∀ e ∈ declared.entries, e.2.required = true → ∃ x ∈ values.get? e.1, isBlank x = false) <| by
      constructor
      · exact fun h name v hv => h (name, v) (NameMap.get?_eq_some_iff.mp hv)
      · exact fun h e he => h e.1 e.2 (NameMap.get?_eq_some_iff.mpr he)

/-- A required variable that is the slug of a text without letters and digits, though that text is not
    blank. -/
def Erased (o : Overrides) (declared : Variables) (exchanges : List (Question × Reply))
    (name : String) : Prop :=
  ∃ v source y, Derives o declared name v source ∧ v.required = true ∧ ¬ Forced o declared name ∧
    Final o declared exchanges (Forced o declared) source y ∧ isBlank y = false ∧
    (∃ separator, Transform.named (v.transform.getD "") = .slug separator) ∧
    ∀ c ∈ y.toList, isAlphanumeric c = false

/-- The fallback of a required variable is its default, which is not blank. -/
theorem isBlank_of_fallback (h : fallback name v = .ok x) (hrequired : v.required = true) :
    isBlank x = false := by
  rcases fallback_eq_ok_iff.mp h with hdefault | ⟨-, hoptional, -⟩
  · exact Variable.isBlank_of_filled? hdefault
  · exact absurd hrequired (Bool.eq_false_iff.mp hoptional)

/-- What is entered for a required variable is not blank, by induction on the answers. -/
theorem Answered.isBlank_of_required {replies : List Reply}
    (h : Answered name v replies (.ok x)) (hrequired : v.required = true) : isBlank x = false := by
  generalize houtcome : Except.ok x = outcome at h
  induction h with
  | entered ht =>
    obtain rfl := Except.ok.inj houtcome
    exact isBlank_trim ht
  | default _ hd =>
    obtain rfl := Except.ok.inj houtcome
    exact Variable.isBlank_of_filled? hd
  | closedDefault hd =>
    obtain rfl := Except.ok.inj houtcome
    exact Variable.isBlank_of_filled? hd
  | again _ _ _ _ ih => exact ih houtcome
  | left _ _ hv => exact absurd hrequired (Bool.eq_false_iff.mp hv)
  | closedBlank _ hv => exact absurd hrequired (Bool.eq_false_iff.mp hv)
  | closedMissing => cases houtcome
  | failed => cases houtcome

theorem Given.isBlank_of_required (h : Given o exchanges name v x) (hrequired : v.required = true) :
    isBlank x = false := by
  rcases h with hoverride | ⟨-, -, hanswered⟩
  · exact Variable.isBlank_of_filled? hoverride
  · exact hanswered.isBlank_of_required hrequired

/-- **When a required variable ends up blank.** -/
theorem Final.isBlank_iff (h : Final o declared exchanges (Forced o declared) name x)
    (hv : declared.get? name = some v) (hrequired : v.required = true) :
    isBlank x = true ↔ Erased o declared exchanges name := by
  constructor
  · intro hblank
    cases h with
    | given hv' hx =>
      obtain rfl := Option.some.inj (hv.symm.trans hv')
      exact absurd hblank (Bool.eq_false_iff.mp (hx.isBlank_of_required hrequired))
    | derived h hlate hsource hy =>
      obtain rfl := Option.some.inj (hv.symm.trans h.declares)
      exact ⟨v, _, _, h, hrequired, hlate, hsource, hy, (isBlank_transform_iff hy).mp hblank⟩
    | filled h _ _ _ hx =>
      obtain rfl := Option.some.inj (hv.symm.trans h.declares)
      exact absurd hblank (Bool.eq_false_iff.mp (isBlank_of_fallback hx hrequired))
    | taken h _ hx =>
      obtain rfl := Option.some.inj (hv.symm.trans h.declares)
      exact absurd hblank (Bool.eq_false_iff.mp (isBlank_of_fallback hx hrequired))
  · rintro ⟨w, source, y, hderives, -, hlate, hsource, hy, herased⟩
    rw [h.unique (.derived hderives hlate hsource hy)]
    exact (isBlank_transform_iff hy).mpr herased

/-- The values found fill the required variables if none of these is erased. -/
theorem Outcome.filled_iff_not_erased {values : Values}
    (h : Outcome o declared exchanges (.ok values)) :
    RequiredFilled declared values ↔ ∀ name, ¬ Erased o declared exchanges name := by
  cases h with
  | found _ hnames _ hfinal =>
    constructor
    · intro hfilled name herased
      obtain ⟨v, source, y, hderives, hrequired, -⟩ := id herased
      obtain ⟨x, hx, hshows⟩ := hfilled name v hderives.declares hrequired
      have hblank := ((hfinal name x hx).isBlank_iff hderives.declares hrequired).mpr herased
      exact absurd hblank (Bool.eq_false_iff.mp hshows)
    · intro hnone name v hv hrequired
      obtain ⟨x, hx⟩ := NameMap.exists_get?_of_names_perm hnames hv
      refine ⟨x, hx, ?_⟩
      rw [← Bool.not_eq_true, (hfinal name x hx).isBlank_iff hv hrequired]
      exact hnone name

/-- A run fails by a failure of the respondent, or because a required variable has no value. -/
theorem Outcome.missing_of_error {e : Error} (h : Outcome o declared exchanges (.error e)) :
    Reply.failed e ∈ exchanges.map Prod.snd ∨
      ∃ name v, declared.get? name = some v ∧ override? o name = none ∧ v.required = true ∧
        v.default? = none ∧ e = .missingValue name := by
  rcases h.of_error with ⟨name, v, hv, hplain, -, hanswered⟩ | ⟨-, name, source, v, hlacks, rfl⟩
  · rcases hanswered.mem_of_error with hfailed | ⟨rfl, hdefault, hrequired⟩
    · exact .inl (mem_of_mem_answersTo hfailed)
    · exact .inr ⟨name, v, hv, hplain, hrequired, hdefault, rfl⟩
  · exact .inr ⟨name, v, hlacks.derives.declares, hlacks.derives.plain, hlacks.required,
      hlacks.noDefault, rfl⟩

/-- **When the required variables are filled**, and why a resolution fails otherwise: for a source that
    is not declared, by a failure of the respondent, or because a required variable has no value. -/
theorem requiredFilled_iff {σ : Type} {patience : σ → Nat} {r : Respondent σ} {state : σ}
    {res : Resolution} (hres : resolveWithin patience o r state declared = some res) :
    ∃ exchanges last, Conversation r state exchanges last ∧
      Event.questions res.events = exchanges.map Prod.fst ∧
      (∀ values, res.result = .ok values →
        (RequiredFilled declared values ↔ ∀ name, ¬ Erased o declared exchanges name)) ∧
      ∀ e, res.result = .error e → (∃ name source, e = .unknownSource name source) ∨
        Reply.failed e ∈ exchanges.map Prod.snd ∨
        ∃ name v, declared.get? name = some v ∧ override? o name = none ∧ v.required = true ∧
          v.default? = none ∧ e = .missingValue name := by
  cases hunknown : unknownSource? declared with
  | some pair =>
    rw [resolveWithin, hunknown] at hres
    obtain rfl := Option.some.inj hres
    refine ⟨[], state, .nil state, rfl, ?_, ?_⟩
    · intro values hvalues
      cases hvalues
    · intro e he
      exact .inl ⟨pair.1, pair.2, (Except.error.inj he).symm⟩
  | none =>
    have hsources := unknownSource?_eq_none_iff.mp hunknown
    obtain ⟨exchanges, last, hconversation, hquestions, houtcome⟩ := resolveWithin_spec hsources hres
    refine ⟨exchanges, last, hconversation, hquestions, ?_, ?_⟩
    · intro values hvalues
      rw [hvalues] at houtcome
      exact houtcome.filled_iff_not_erased
    · intro e he
      rw [he] at houtcome
      exact .inr houtcome.missing_of_error

/-- A name and its slug, both required. -/
def nameAndSlug : Variables :=
  .ofList [
    ("NAME", { required := true }),
    ("SLUG", { required := true, derivedFrom := some "NAME", transform := some "slug-kebab" })]

/-- The name given beforehand. -/
def named (name : String) : Overrides := .ofMap (.ofList [("NAME", name)])

/-- A name with letters is not erased. -/
theorem not_erased_nameAndSlug :
    RequiredFilled nameAndSlug (.ofList [("NAME", "My App"), ("SLUG", "my-app")]) ∧
      ∃ exchanges, ∀ name, ¬ Erased (named "My App") nameAndSlug exchanges name := by
  have hresult : (resolve (named "My App") .silent () nameAndSlug).result =
      .ok (.ofList [("NAME", "My App"), ("SLUG", "my-app")]) := by decide +kernel
  have hfilled : RequiredFilled nameAndSlug (.ofList [("NAME", "My App"), ("SLUG", "my-app")]) := by
    decide +kernel
  obtain ⟨exchanges, -, -, -, hiff, -⟩ :=
    requiredFilled_iff (resolveWithin_eq_some_resolve (named "My App") .silent () nameAndSlug)
  exact ⟨hfilled, exchanges, (hiff _ hresult).mp hfilled⟩

/-- A name without letters and digits leaves the required slug blank. -/
theorem not_requiredFilled_nameAndSlug :
    (resolve (named "!!!") .silent () nameAndSlug).result =
      .ok (.ofList [("NAME", "!!!"), ("SLUG", "")]) ∧
      ¬ RequiredFilled nameAndSlug (.ofList [("NAME", "!!!"), ("SLUG", "")]) := by
  decide +kernel

end Stencil.Resolution
