/-
  What a resolution comes to.

  The two passes are put together here.  Whatever the respondent does, a run that is not broken off
  has one of three outcomes (`Outcome`): an asking failed; all that was asked for was entered, but a
  derived variable lacks a value; or every variable has its final value.

  Which of them it is depends on the answers alone, so the outcome is stated over the exchanges with
  the respondent, and those are what could be seen.
-/
import Stencil.Proofs.Resolution.Settling

namespace Stencil.Resolution

variable {o : Overrides} {declared : Variables} {exchanges : List (Question × Reply)}

/-- Every variable that was asked for has a value. -/
def Entered (o : Overrides) (declared : Variables) (exchanges : List (Question × Reply)) : Prop :=
  ∀ name v, declared.get? name = some v → override? o name = none → v.source? = none →
    ∃ x, Answered name v (answersTo name exchanges) (.ok x)

/-- What a run comes to when all sources are declared. -/
inductive Outcome (o : Overrides) (declared : Variables) (exchanges : List (Question × Reply)) :
    Except Error Values → Prop where
  /-- The asking for a variable failed. -/
  | unanswered {name : String} {v : Variable} {e : Error} (hv : declared.get? name = some v)
      (hplain : override? o name = none) (hsource : v.source? = none)
      (he : Answered name v (answersTo name exchanges) (.error e)) :
      Outcome o declared exchanges (.error e)
  /-- A derived variable lacks a value. -/
  | lacking {name source : String} {v : Variable} (hentered : Entered o declared exchanges)
      (hlacks : Lacks o declared exchanges (Forced o declared) name source v) :
      Outcome o declared exchanges (.error (.missingValue name))
  /-- Every variable has its final value. -/
  | found {values : Values} (hentered : Entered o declared exchanges)
      (hnames : values.names.Perm declared.names)
      (hsorted : values.names.Pairwise fun a b => Bytes.ofString a < Bytes.ofString b)
      (hfinal : ∀ name x, values.get? name = some x →
        Final o declared exchanges (Forced o declared) name x) :
      Outcome o declared exchanges (.ok values)

/-- Why a run fails. -/
theorem Outcome.of_error {e : Error} (h : Outcome o declared exchanges (.error e)) :
    (∃ name v, declared.get? name = some v ∧ override? o name = none ∧ v.source? = none ∧
      Answered name v (answersTo name exchanges) (.error e)) ∨
    Entered o declared exchanges ∧ ∃ name source v,
      Lacks o declared exchanges (Forced o declared) name source v ∧ e = .missingValue name := by
  cases h with
  | unanswered hv hplain hsource he => exact .inl ⟨_, _, hv, hplain, hsource, he⟩
  | lacking hentered hlacks => exact .inr ⟨hentered, _, _, _, hlacks, rfl⟩

/-- Sorted by name, values with distinct names are a map whose names increase. -/
theorem names_ofList_sortByName {values : List (String × String)} (h : (values.map Prod.fst).Nodup) :
    (NameMap.ofList (sortByName values)).entries = sortByName values ∧
    (NameMap.ofList (sortByName values)).names.Pairwise fun a b =>
      Bytes.ofString a < Bytes.ofString b := by
  have hnodup : ((sortByName values).map Prod.fst).Nodup :=
    ((sortByName_perm values).map Prod.fst).nodup_iff.mpr h
  have hentries := NameMap.entries_ofList hnodup
  refine ⟨hentries, ?_⟩
  rw [NameMap.names, hentries]
  refine List.pairwise_map.mpr ?_
  refine List.Pairwise.imp₂ ?_ (pairwise_sortByName values) (List.pairwise_map.mp hnodup)
  exact fun a b hle hne => nameLt_of_ne hle hne

variable {σ : Type} {r : Respondent σ} {d d' : Dialogue σ} {values : List (String × String)}

/-- After a first pass without failure, all that is asked for was entered. -/
theorem Pass.entered (h : Pass o r (sortByName declared.entries) d (.ok values, d') exchanges) :
    Entered o declared exchanges := by
  intro name v hv hplain hsource
  have hentry : (name, v) ∈ (sortByName declared.entries).filter (isGiven o) := by
    refine List.mem_filter.mpr ⟨?_, by simp [isGiven, hsource]⟩
    exact (sortByName_perm declared.entries).mem_iff.mpr (NameMap.get?_eq_some_iff.mp hv)
  have hmem : name ∈ values.map Prod.fst := by
    rw [h.names values rfl]
    exact List.mem_map_of_mem hentry
  obtain ⟨⟨n, x⟩, hx, rfl⟩ := List.mem_map.mp hmem
  obtain ⟨w, hw, hgiven⟩ := h.given values rfl n x hx
  rw [(sortByName_perm declared.entries).mem_iff, ← NameMap.get?_eq_some_iff] at hw
  obtain rfl := Option.some.inj (hv.symm.trans hw)
  rcases hgiven with hoverride | ⟨-, -, hanswered⟩
  · simp [hoverride] at hplain
  · exact ⟨x, hanswered⟩

/-- The variables without value after the first pass are those that it leaves. -/
theorem Pass.leftOver_eq (h : Pass o r (sortByName declared.entries) d (.ok values, d') exchanges) :
    ((sortByName declared.entries).filter fun e => (values.lookup e.1).isNone) =
      leftOver o declared := by
  refine List.filter_congr fun e he => ?_
  have hgiven : e.1 ∈ values.map Prod.fst ↔ isGiven o e = true := by
    rw [h.names values rfl, List.mem_map]
    constructor
    · rintro ⟨e', he', hname⟩
      obtain ⟨hmem, hgiven⟩ := List.mem_filter.mp he'
      rwa [← List.inj_on_of_nodup_map (nodup_names_sortByName declared) hmem he hname]
    · exact fun hgiven => ⟨e, List.mem_filter.mpr ⟨he, hgiven⟩, rfl⟩
  rw [← lookup_isSome_iff_mem] at hgiven
  rw [← Option.not_isSome, Bool.eq_iff_iff.mpr hgiven]

/-- After the first pass the invariant of the second one holds. -/
theorem Pass.settling (h : Pass o r (sortByName declared.entries) d (.ok values, d') exchanges) :
    Settling o declared exchanges (leftOver o declared) values where
  queue := queue_leftOver o declared
  names := by
    rw [h.names values rfl, leftOver, ← List.map_append, NameMap.names]
    refine List.Perm.map Prod.fst ?_
    refine List.Perm.trans ?_ (sortByName_perm declared.entries)
    exact List.perm_append_comm.trans (List.filter_append_perm _ _)
  final name x hx := by
    obtain ⟨v, hv, hgiven⟩ := h.given values rfl name x hx
    rw [(sortByName_perm declared.entries).mem_iff, ← NameMap.get?_eq_some_iff] at hv
    exact .given hv hgiven

/-- **The outcome of a run**, in terms of the exchanges that could be seen. -/
theorem resolveWithin_spec {patience : σ → Nat} {state : σ} {res : Resolution}
    (hsources : SourcesDeclared declared)
    (hres : resolveWithin patience o r state declared = some res) :
    ∃ exchanges last, Conversation r state exchanges last ∧
      Event.questions res.events = exchanges.map Prod.fst ∧
      Outcome o declared exchanges res.result := by
  obtain ⟨exchanges, hpass⟩ :=
    collect_spec patience o r (sortByName declared.entries) { state } (nodup_names_sortByName declared)
  refine ⟨exchanges, _, hpass.talk.conversation, ?_⟩
  rw [resolveWithin, unknownSource?_eq_none_iff.mpr hsources] at hres
  dsimp only at hres
  generalize collect patience o r (sortByName declared.entries) { state } = pass at hpass hres
  have hquestions := hpass.talk.questions
  rw [show Event.questions ({ state : Dialogue σ }).events = [] from rfl, List.nil_append] at hquestions
  obtain ⟨result, d⟩ := pass
  cases result with
  | error stop =>
    cases stop with
    | unfinished => simp at hres
    | failed e =>
      obtain rfl := Option.some.inj hres
      obtain ⟨name, v, hv, hplain, hsource, he⟩ := hpass.failed e rfl
      rw [(sortByName_perm declared.entries).mem_iff, ← NameMap.get?_eq_some_iff] at hv
      exact ⟨hquestions, .unanswered hv hplain hsource he⟩
  | ok values =>
    dsimp only at hres
    rw [hpass.leftOver_eq] at hres
    obtain rfl := Option.some.inj hres
    obtain ⟨hevents, hok, herror⟩ := settle_spec hsources _ _ _ d.events hpass.settling (Nat.le_refl _)
    refine ⟨hevents.trans hquestions, ?_⟩
    cases hresult : (settle (leftOver o declared).length (leftOver o declared) values d.events).1 with
    | error e =>
      obtain ⟨name, source, v, hlacks, rfl⟩ := herror e hresult
      exact .lacking hpass.entered hlacks
    | ok found =>
      have hdone := hok found hresult
      obtain ⟨hentries, hsorted⟩ := names_ofList_sortByName (List.nodup_append.mp hdone.nodup).2.1
      refine .found hpass.entered ?_ hsorted fun name x hx => ?_
      · rw [NameMap.names, hentries]
        exact ((sortByName_perm found).map Prod.fst).trans hdone.names
      · rw [NameMap.get?_eq_some_iff, hentries, (sortByName_perm found).mem_iff] at hx
        exact hdone.final name x hx

end Stencil.Resolution
