/-
  Resolution without cycles.

  Where the sources of derived variables are declared and form no cycle, the order of the rounds
  does not show: every derived variable has the transform of its source's final value, however deep
  the chain and wherever an override cuts it.  This holds because no variable is forced then
  (`not_forced_of_acyclic`), so in `Final` none is taken before its source.

  `Resolved` is what the values found are, read off one variable at a time.  The resolution fails
  after the asking only where it must: a variable is `Starved` when it needs a value, and neither
  its source nor a default has one.
-/
import Stencil.Proofs.Resolution.Outcome

namespace Stencil.Resolution

variable {o : Overrides} {declared : Variables} {exchanges : List (Question × Reply)}

/-- The values of all variables, each from its override, from what was entered, or from its source. -/
structure Resolved (o : Overrides) (declared : Variables) (exchanges : List (Question × Reply))
    (values : Values) : Prop where
  names : values.names.Perm declared.names
  sorted : values.names.Pairwise fun a b => Bytes.ofString a < Bytes.ofString b
  overridden : ∀ name v x, declared.get? name = some v → override? o name = some x →
    values.get? name = some x
  entered : ∀ name v, declared.get? name = some v → override? o name = none → v.source? = none →
    ∃ x, values.get? name = some x ∧ Answered name v (answersTo name exchanges) (.ok x)
  derived : ∀ name v source, Derives o declared name v source →
    ∃ y, values.get? source = some y ∧ values.get? name =
      some (if isBlank y then v.default?.getD "" else transform (v.transform.getD "") y)

/-- A derived variable that needs a value, has no default, and whose source ends up blank. -/
def Starved (o : Overrides) (declared : Variables) (exchanges : List (Question × Reply))
    (name : String) : Prop :=
  ∃ v source y, Derives o declared name v source ∧ v.required = true ∧ v.default? = none ∧
    Final o declared exchanges (fun _ => False) source y ∧ isBlank y = true

theorem starved_iff {name : String} : Starved o declared exchanges name ↔
    ∃ source v, Lacks o declared exchanges (fun _ => False) name source v := by
  constructor
  · rintro ⟨v, source, y, h, hrequired, hdefault, hy, hblank⟩
    exact ⟨source, v, h, hrequired, hdefault, .inr ⟨y, hy, hblank⟩⟩
  · rintro ⟨source, v, h, hrequired, hdefault, hearly | ⟨y, hy, hblank⟩⟩
    · exact hearly.elim
    · exact ⟨v, source, y, h, hrequired, hdefault, hy, hblank⟩

/-- Final values of all declared names, with no variable taken early, are resolved ones. -/
theorem Resolved.of_final {values : Values} (hsources : SourcesDeclared declared)
    (hentered : Entered o declared exchanges) (hnames : values.names.Perm declared.names)
    (hsorted : values.names.Pairwise fun a b => Bytes.ofString a < Bytes.ofString b)
    (hfinal : ∀ name x, values.get? name = some x →
      Final o declared exchanges (fun _ => False) name x) :
    Resolved o declared exchanges values := by
  have hvalue : ∀ name v, declared.get? name = some v → ∃ x, values.get? name = some x :=
    fun _ _ hv => NameMap.exists_get?_of_names_perm hnames hv
  refine ⟨hnames, hsorted, ?_, ?_, ?_⟩
  · intro name v x hv hx
    obtain ⟨y, hy⟩ := hvalue name v hv
    rw [hy, (hfinal name y hy).unique (.given hv (.inl hx))]
  · intro name v hv hplain hsource
    obtain ⟨x, hx⟩ := hentered name v hv hplain hsource
    obtain ⟨y, hy⟩ := hvalue name v hv
    rw [(hfinal name y hy).unique (.given hv (.inr ⟨hplain, hsource, hx⟩))] at hy
    exact ⟨x, hy, hx⟩
  · intro name v source h
    obtain ⟨x, hx⟩ := hvalue name v h.declares
    obtain ⟨w, hw⟩ := NameMap.has_eq_true_iff_exists.mp (hsources name v source h.declares h.source)
    obtain ⟨y, hy⟩ := hvalue source w hw
    refine ⟨y, hy, hx.trans (congrArg some ?_)⟩
    rcases h.final_iff.mp (hfinal name x hx) with ⟨hearly, -⟩ | ⟨-, y', hy', hcases⟩
    · exact hearly.elim
    · obtain rfl := (hfinal source y hy).unique hy'
      rcases hcases with ⟨hblank, hfallback⟩ | ⟨hblank, htransform⟩
      · rw [if_pos hblank]
        rcases fallback_eq_ok_iff.mp hfallback with hdefault | ⟨hdefault, -, rfl⟩
        · rw [hdefault, Option.getD_some]
        · rw [hdefault, Option.getD_none]
      · rw [if_neg (Bool.eq_false_iff.mp hblank), htransform]

theorem forced_eq_false (hacyclic : ∀ a, ¬ OnCycle o declared a) :
    Forced o declared = fun _ => False := by
  funext a
  exact eq_false (not_forced_of_acyclic hacyclic a)

/-- Values that were found are resolved. -/
theorem Outcome.resolved {values : Values} (hsources : SourcesDeclared declared)
    (hacyclic : ∀ a, ¬ OnCycle o declared a) (h : Outcome o declared exchanges (.ok values)) :
    Resolved o declared exchanges values := by
  cases h with
  | found hentered hnames hsorted hfinal =>
    rw [forced_eq_false hacyclic] at hfinal
    exact .of_final hsources hentered hnames hsorted hfinal

/-- Where values were found, no variable is starved: each one has a final value. -/
theorem Outcome.not_starved {values : Values} (hacyclic : ∀ a, ¬ OnCycle o declared a)
    (h : Outcome o declared exchanges (.ok values)) (name : String) :
    ¬ Starved o declared exchanges name := by
  cases h with
  | found _ hnames _ hfinal =>
    rw [forced_eq_false hacyclic] at hfinal
    intro hstarved
    obtain ⟨source, v, hlacks⟩ := starved_iff.mp hstarved
    obtain ⟨x, hx⟩ := NameMap.exists_get?_of_names_perm hnames hlacks.derives.declares
    exact hlacks.not_final (hfinal name x hx)

/-- Once all that was asked for is entered, a failure names a starved variable. -/
theorem Outcome.starved_of_error {e : Error} (hacyclic : ∀ a, ¬ OnCycle o declared a)
    (hentered : Entered o declared exchanges) (h : Outcome o declared exchanges (.error e)) :
    ∃ name, Starved o declared exchanges name ∧ e = .missingValue name := by
  rcases h.of_error with ⟨name, v, hv, hplain, hsource, he⟩ | ⟨-, name, source, v, hlacks, hname⟩
  · -- an asking cannot have failed
    obtain ⟨x, hx⟩ := hentered name v hv hplain hsource
    have heq := he.unique hx
    cases heq
  · rw [forced_eq_false hacyclic] at hlacks
    exact ⟨name, starved_iff.mpr ⟨source, v, hlacks⟩, hname⟩

/-- **Resolution without cycles.**  The values found are resolved; and once all that was asked for
    is entered, the resolution fails exactly if a variable is starved, and names such a variable. -/
theorem resolveWithin_acyclic {σ : Type} {patience : σ → Nat} {r : Respondent σ} {state : σ}
    {res : Resolution} (hsources : SourcesDeclared declared)
    (hacyclic : ∀ a, ¬ OnCycle o declared a)
    (hres : resolveWithin patience o r state declared = some res) :
    ∃ exchanges last, Conversation r state exchanges last ∧
      Event.questions res.events = exchanges.map Prod.fst ∧
      (∀ values, res.result = .ok values → Resolved o declared exchanges values) ∧
      (Entered o declared exchanges →
        ((∃ e, res.result = .error e) ↔ ∃ name, Starved o declared exchanges name) ∧
        ∀ e, res.result = .error e →
          ∃ name, Starved o declared exchanges name ∧ e = .missingValue name) := by
  obtain ⟨exchanges, last, hconversation, hquestions, houtcome⟩ := resolveWithin_spec hsources hres
  refine ⟨exchanges, last, hconversation, hquestions, ?_, ?_⟩
  · intro values hvalues
    rw [hvalues] at houtcome
    exact houtcome.resolved hsources hacyclic
  · intro hentered
    have herror : ∀ e, res.result = .error e →
        ∃ name, Starved o declared exchanges name ∧ e = .missingValue name := by
      intro e he
      rw [he] at houtcome
      exact houtcome.starved_of_error hacyclic hentered
    refine ⟨⟨?_, ?_⟩, herror⟩
    · rintro ⟨e, he⟩
      obtain ⟨name, hstarved, -⟩ := herror e he
      exact ⟨name, hstarved⟩
    · rintro ⟨name, hstarved⟩
      cases hresult : res.result with
      | error e => exact ⟨e, rfl⟩
      | ok values =>
        rw [hresult] at houtcome
        exact absurd hstarved (houtcome.not_starved hacyclic name)

/-- A chain of two derived variables, in which the names are not in the order of the sources. -/
def slugChain : Variables :=
  .ofList [
    ("ALPHA", { required := true, derivedFrom := some "SLUG", transform := some "upper" }),
    ("SLUG", { required := true, derivedFrom := some "NAME", transform := some "slug-snake" }),
    ("NAME", { required := true })]

/-- What is entered after a blank answer reaches the end of the chain. -/
theorem resolved_slugChain : ∃ exchanges, Resolved (fun _ => none) slugChain exchanges
    (.ofList [("ALPHA", "MY_APP"), ("NAME", "My App"), ("SLUG", "my_app")]) := by
  have hresult : (resolve (fun _ => none) .scripted [.text " ", .text " My App"] slugChain).result =
      .ok (.ofList [("ALPHA", "MY_APP"), ("NAME", "My App"), ("SLUG", "my_app")]) := by decide +kernel
  obtain ⟨exchanges, -, -, -, hresolved, -⟩ := resolveWithin_acyclic
    (unknownSource?_eq_none_iff.mp (by decide +kernel))
    (acyclic_of_rank (fun a => ["NAME", "SLUG", "ALPHA"].idxOf a) (by decide))
    (resolveWithin_eq_some_resolve (fun _ => none) .scripted [.text " ", .text " My App"] slugChain)
  exact ⟨exchanges, hresolved _ hresult⟩

end Stencil.Resolution
