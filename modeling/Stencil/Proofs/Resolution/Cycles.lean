/-
  Resolution with cycles.

  Variables that are derived from each other in a circle wait for each other, and a round has to
  take one of them while its source waits.  `CyclesOnly` asks that this happens to no other
  variable: what merely hangs off a cycle is to have the transform of its source's final value.

  The rounds do not look for cycles.  When nobody is ready, the first name is taken, and it may hang
  off a cycle, too.  So `CyclesOnly` holds exactly if no such name comes before all names on its
  chain; in `tailBefore` one does.
-/
import Stencil.Proofs.Resolution.Outcome

namespace Stencil.Resolution

open Relation

variable {o : Overrides} {declared : Variables}

/-- **Only variables on a cycle are taken while their source waits.**  All others that are derived have
    the transform of their source's final value, whoever answers. -/
structure CyclesOnly (o : Overrides) (declared : Variables) : Prop where
  /-- The one that a round takes while its source waits lies on a cycle. -/
  pending : ∀ first others, Stage o declared (first :: others) →
    isReady (first :: others) (next first others).1 = false →
    OnCycle o declared (next first others).1.1
  /-- Among the values found, the value of a source that is not blank is transformed. -/
  derived : ∀ {σ : Type} (patience : σ → Nat) (r : Respondent σ) (state : σ) (res : Resolution)
    (values : Values) (name source y : String) (v : Variable),
    resolveWithin patience o r state declared = some res → res.result = .ok values →
    Derives o declared name v source → ¬ OnCycle o declared name →
    values.get? source = some y → isBlank y = false →
    values.get? name = some (transform (v.transform.getD "") y)
  /-- Where the source gets a value that is not blank, none is missing.  The respondent's own failures
      do not count. -/
  missing : ∀ {σ : Type} (patience : σ → Nat) (r : Respondent σ) (state last : σ) (res : Resolution)
    (exchanges : List (Question × Reply)) (name source y : String) (v : Variable),
    resolveWithin patience o r state declared = some res → Conversation r state exchanges last →
    Event.questions res.events = exchanges.map Prod.fst →
    Reply.failed (.missingValue name) ∉ exchanges.map Prod.snd →
    Derives o declared name v source → ¬ OnCycle o declared name →
    Final o declared exchanges (Forced o declared) source y → isBlank y = false →
    res.result ≠ .error (.missingValue name)

/-- A forced variable is taken, and its source waits then. -/
theorem Forced.exists_taken {a : String} (h : Forced o declared a) :
    ∃ first others, Stage o declared (first :: others) ∧ (next first others).1.1 = a ∧
      isReady (first :: others) (next first others).1 = false := by
  obtain ⟨e, he, rfl⟩ := List.mem_map.mp (mem_names_leftOver_iff.mpr (h a ReflTransGen.refl).1)
  obtain ⟨first, others, hstage, htaken⟩ := Stage.start.exists_taken he
  refine ⟨first, others, hstage, congrArg Prod.fst htaken, ?_⟩
  rw [hstage.queue.isReady_next_iff, htaken]
  exact h

/-- A variable that is not forced has the transform of its source's value. -/
theorem Outcome.derived_of_not_forced {exchanges : List (Question × Reply)} {values : Values}
    {name source y : String} {v : Variable} (h : Outcome o declared exchanges (.ok values))
    (hderives : Derives o declared name v source) (hlate : ¬ Forced o declared name)
    (hy : values.get? source = some y) (hblank : isBlank y = false) :
    values.get? name = some (transform (v.transform.getD "") y) := by
  cases h with
  | found _ hnames _ hfinal =>
    obtain ⟨x, hx⟩ := NameMap.exists_get?_of_names_perm hnames hderives.declares
    have hderived := Final.derived hderives hlate (hfinal source y hy) hblank
    rw [hx, (hfinal name x hx).unique hderived]

/-- A variable that is not forced does not lack a value when its source has one. -/
theorem Outcome.not_missing_of_not_forced {exchanges : List (Question × Reply)}
    {name source y : String} {v : Variable} (hderives : Derives o declared name v source)
    (hlate : ¬ Forced o declared name)
    (hy : Final o declared exchanges (Forced o declared) source y) (hblank : isBlank y = false)
    (hfailed : Reply.failed (.missingValue name) ∉ exchanges.map Prod.snd) :
    ¬ Outcome o declared exchanges (.error (.missingValue name)) := by
  intro h
  rcases h.of_error with ⟨name', v', hv', -, hsource, hanswered⟩ | ⟨-, name', _, _, hlacks, hname⟩
  · -- the asking for a variable failed, and that variable is not derived
    rcases hanswered.mem_of_error with hmem | ⟨hname, -, -⟩
    · exact hfailed (mem_of_mem_answersTo hmem)
    · obtain rfl := Error.missingValue.inj hname
      obtain rfl := Option.some.inj (hv'.symm.trans hderives.declares)
      rw [hderives.source] at hsource
      exact Option.some_ne_none _ hsource
  · -- a derived variable lacks a value
    obtain rfl := Error.missingValue.inj hname
    exact hlacks.not_final (.derived hderives hlate hy hblank)

/-- **When only variables on a cycle are taken early.**  The order of the names decides: no variable
    that hangs off a cycle may come before all names on its chain. -/
theorem cyclesOnly_iff (hsources : SourcesDeclared declared) :
    CyclesOnly o declared ↔ ∀ a, Forced o declared a → OnCycle o declared a := by
  constructor
  · intro h a hforced
    obtain ⟨first, others, hstage, rfl, hwaits⟩ := hforced.exists_taken
    exact h.pending first others hstage hwaits
  · intro h
    refine ⟨?_, ?_, ?_⟩
    · intro first others hstage hwaits
      exact h _ (hstage.queue.isReady_next_iff.mp hwaits)
    · intro σ patience r state res values name source y v hres hvalues hderives hoff hy hblank
      obtain ⟨exchanges, -, -, -, houtcome⟩ := resolveWithin_spec hsources hres
      rw [hvalues] at houtcome
      exact houtcome.derived_of_not_forced hderives (mt (h name) hoff) hy hblank
    · intro σ patience r state last res exchanges name source y v hres hconversation hquestions
        hfailed hderives hoff hy hblank hmissing
      obtain ⟨exchanges', last', hconversation', hquestions', houtcome⟩ :=
        resolveWithin_spec hsources hres
      obtain rfl := hconversation.unique hconversation' (hquestions.symm.trans hquestions')
      rw [hmissing] at houtcome
      exact Outcome.not_missing_of_not_forced hderives (mt (h name) hoff) hy hblank hfailed houtcome

/-- A cycle of two variables, with a third one that is derived from the first. -/
def tailBehind : Variables :=
  .ofList [
    ("A", { default := some "a", derivedFrom := some "B" }),
    ("B", { default := some "b", derivedFrom := some "A" }),
    ("C", { derivedFrom := some "B" })]

/-- A variable that comes after the cycle it hangs off is taken after it. -/
theorem cyclesOnly_tailBehind :
    SourcesDeclared tailBehind ∧ CyclesOnly (fun _ => none) tailBehind := by
  have hsources : SourcesDeclared tailBehind := unknownSource?_eq_none_iff.mp (by decide +kernel)
  have hA : DerivedFrom (fun _ => none) tailBehind "A" "B" := derivedFrom_iff.mpr (by decide)
  have hB : DerivedFrom (fun _ => none) tailBehind "B" "A" := derivedFrom_iff.mpr (by decide)
  have hC : DerivedFrom (fun _ => none) tailBehind "C" "B" := derivedFrom_iff.mpr (by decide)
  refine ⟨hsources, (cyclesOnly_iff hsources).mpr fun a hforced => ?_⟩
  obtain ⟨b, hb⟩ := (hforced a ReflTransGen.refl).1
  have hname : a ∈ ["A", "B", "C"] := hb.mem_names
  simp only [List.mem_cons, List.not_mem_nil, or_false] at hname
  rcases hname with rfl | rfl | rfl
  · exact (TransGen.single hA).tail hB
  · exact (TransGen.single hB).tail hA
  · -- `B` is on the chain of `C` and comes before it
    exact absurd (hforced "B" (ReflTransGen.single hC)).2 (by decide)

/-- A cycle of two variables, with one in front of them that is derived from the first. -/
def tailBefore : Variables :=
  .ofList [
    ("A", { derivedFrom := some "B" }),
    ("B", { default := some "x", derivedFrom := some "C" }),
    ("C", { derivedFrom := some "B" })]

/-- A variable that comes before the cycle it hangs off stays blank, though its source has a value. -/
theorem not_cyclesOnly_tailBefore :
    SourcesDeclared tailBefore ∧
    (resolve (fun _ => none) .silent () tailBefore).result =
      .ok (.ofList [("A", ""), ("B", "x"), ("C", "x")]) ∧
    ¬ CyclesOnly (fun _ => none) tailBefore := by
  have hresult : (resolve (fun _ => none) .silent () tailBefore).result =
      .ok (.ofList [("A", ""), ("B", "x"), ("C", "x")]) := by decide +kernel
  refine ⟨unknownSource?_eq_none_iff.mp (by decide +kernel), hresult, fun h => ?_⟩
  have hoff : ¬ OnCycle (fun _ => none) tailBefore "A" := by
    intro hcycle
    -- nothing is derived from `A`
    obtain ⟨b, -, v, hv⟩ := TransGen.tail'_iff.mp hcycle
    have hsource : ∀ e ∈ tailBefore.entries, e.2.source? ≠ some "A" := by decide
    exact hsource (b, v) (NameMap.get?_eq_some_iff.mp hv.declares) hv.source
  have hvalue := h.derived _ _ _ _ _ "A" "B" "x" { derivedFrom := some "B" }
    (resolveWithin_eq_some_resolve (fun _ => none) .silent () tailBefore) hresult
    ⟨by decide, rfl, by decide⟩ hoff (by decide) (by decide)
  exact absurd hvalue (by decide +kernel)

end Stencil.Resolution
