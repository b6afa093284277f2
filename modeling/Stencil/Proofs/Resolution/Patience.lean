/-
  How long a respondent is waited for.

  `resolveWithin` breaks off an asking after as many blank answers in a row as there is patience for.
  The program itself has no such bound: it asks on for ever.  So an outcome has to be one whatever the
  patience is, as long as there is enough of it.

  * A run that is not broken off goes the same way with more patience (`askValue_of_le` for one
    variable, `collect_of_le` for all, `resolveWithin_of_le` for a resolution).
  * One number is enough for a whole run (`exists_constant`).

  `ComesTo o r state declared res` says that the resolution has the outcome `res`, with some patience.
  It has one outcome at most (`ComesTo.unique`), and against a prompter that is `resolve`
  (`comesTo_iff_eq_resolve`).
-/
import Stencil.Resolution

namespace Stencil.Resolution

variable {σ : Type} {patience patience' : σ → Nat} {o : Overrides} {r : Respondent σ} {state : σ}
  {declared : Variables} {res res' : Resolution}

/-! ## The first pass, one variable at a time -/

section Step

variable {name value : String} {v : Variable} {rest : List (String × Variable)} {d d' : Dialogue σ}

/-- An overridden variable is passed by without a question. -/
theorem collect_overridden (h : override? o name = some value) :
    collect patience o r ((name, v) :: rest) d =
      ((collect patience o r rest d).1.map ((name, value) :: ·), (collect patience o r rest d).2) := by
  simp only [collect, h]

/-- So is one that waits for its source. -/
theorem collect_derived (hplain : override? o name = none) (hsource : v.source?.isSome = true) :
    collect patience o r ((name, v) :: rest) d = collect patience o r rest d := by
  simp only [collect, hplain, hsource, if_true]

theorem collect_stopped {stop : Stop} (hplain : override? o name = none)
    (hsource : ¬ v.source?.isSome = true)
    (hasked : askValue r name v (patience d.state) d = (.error stop, d')) :
    collect patience o r ((name, v) :: rest) d = (.error stop, d') := by
  simp only [collect, hplain, if_neg hsource, hasked]

/-- A question that is answered hands its value and its state on. -/
theorem collect_entered (hplain : override? o name = none) (hsource : ¬ v.source?.isSome = true)
    (hasked : askValue r name v (patience d.state) d = (.ok value, d')) :
    collect patience o r ((name, v) :: rest) d =
      ((collect patience o r rest d').1.map ((name, value) :: ·),
        (collect patience o r rest d').2) := by
  simp only [collect, hplain, if_neg hsource, hasked]

end Step

/-! ## More patience -/

/-- An asking that ends does so with more fuel, too. -/
theorem askValue_of_le {name : String} {v : Variable} {fuel fuel' : Nat} {d : Dialogue σ}
    (hle : fuel ≤ fuel') (hends : (askValue r name v fuel d).1 ≠ .error .unfinished) :
    askValue r name v fuel' d = askValue r name v fuel d := by
  fun_induction askValue r name v fuel d generalizing fuel' with
  | case1 fuel d reply d' hask x hverdict => rw [askValue, hask]; simp only [hverdict]
  | case2 fuel d reply d' hask e hverdict => rw [askValue, hask]; simp only [hverdict]
  | case3 => exact absurd rfl hends
  | case4 d reply d' hask hverdict fuel ih =>
    obtain ⟨fuel', rfl⟩ : ∃ n, fuel' = n + 1 := ⟨fuel' - 1, by omega⟩
    rw [askValue, hask]
    simp only [hverdict]
    exact ih (Nat.le_of_succ_le_succ hle) hends

theorem ne_unfinished_of_map {α β : Type} {result : Except Stop α} {f : α → β}
    (h : result.map f ≠ .error .unfinished) : result ≠ .error .unfinished := by
  rintro rfl
  exact h rfl

/-- A first pass that is not broken off goes the same way with more patience. -/
theorem collect_of_le {entries : List (String × Variable)} {d : Dialogue σ}
    (hle : ∀ s, patience s ≤ patience' s)
    (hends : (collect patience o r entries d).1 ≠ .error .unfinished) :
    collect patience' o r entries d = collect patience o r entries d := by
  fun_induction collect patience o r entries d with
  | case1 => rfl
  | case2 name v rest d value hoverride result d' hrest ih =>
    rw [hrest] at ih
    rw [collect_overridden hoverride, ih (ne_unfinished_of_map hends)]
  | case3 name v rest d hplain hsource ih =>
    rw [collect_derived hplain hsource, ih hends]
  | case4 name v rest d hplain hsource stop d' hasked =>
    refine collect_stopped hplain hsource ((askValue_of_le (hle d.state) ?_).trans hasked)
    rw [hasked]
    exact fun hstop => hends (congrArg Except.error (Except.error.inj hstop))
  | case5 name v rest d hplain hsource value d' hasked result d'' hrest ih =>
    have hasked' : askValue r name v (patience' d.state) d = (.ok value, d') :=
      (askValue_of_le (hle d.state) (by simp [hasked])).trans hasked
    rw [hrest] at ih
    rw [collect_entered hplain hsource hasked', ih (ne_unfinished_of_map hends)]

/-- One number is patience enough for a first pass that is not broken off, by induction on the
    variables. -/
theorem exists_collect_constant {entries : List (String × Variable)} {d : Dialogue σ}
    (hends : (collect patience o r entries d).1 ≠ .error .unfinished) :
    ∃ n, collect (fun _ => n) o r entries d = collect patience o r entries d := by
  fun_induction collect patience o r entries d with
  | case1 => exact ⟨0, rfl⟩
  | case2 name v rest d value hoverride result d' hrest ih =>
    obtain ⟨n, hn⟩ := ih (hrest ▸ ne_unfinished_of_map hends)
    exact ⟨n, by rw [collect_overridden hoverride, hn, hrest]⟩
  | case3 name v rest d hplain hsource ih =>
    obtain ⟨n, hn⟩ := ih hends
    exact ⟨n, (collect_derived hplain hsource).trans hn⟩
  | case4 name v rest d hplain hsource stop d' hasked =>
    exact ⟨patience d.state, collect_stopped hplain hsource hasked⟩
  | case5 name v rest d hplain hsource value d' hasked result d'' hrest ih =>
    -- the larger of what this variable and the others need
    have hrestEnds : (collect patience o r rest d').1 ≠ .error .unfinished :=
      hrest ▸ ne_unfinished_of_map hends
    obtain ⟨n, hn⟩ := ih hrestEnds
    have hmore : collect (fun _ => max (patience d.state) n) o r rest d' =
        collect (fun _ => n) o r rest d' :=
      collect_of_le (fun _ => Nat.le_max_right ..) (hn ▸ hrestEnds)
    have hrest' := hmore.trans (hn.trans hrest)
    have hasked' : askValue r name v (max (patience d.state) n) d = (.ok value, d') :=
      (askValue_of_le (Nat.le_max_left ..) (by simp [hasked])).trans hasked
    exact ⟨_, by rw [collect_entered hplain hsource hasked', hrest']⟩

/-! ## The outcome of a resolution -/

/-- If it has an outcome, its first pass was not broken off. -/
theorem collect_ne_unfinished_of_resolveWithin
    (hres : resolveWithin patience o r state declared = some res)
    (hsources : unknownSource? declared = none) :
    (collect patience o r (sortByName declared.entries) { state }).1 ≠ .error .unfinished := by
  rw [resolveWithin, hsources] at hres
  dsimp only at hres
  intro hbroken
  split at hres
  · cases hres
  · rename_i heq
    rw [heq] at hbroken
    cases hbroken
  · rename_i heq
    rw [heq] at hbroken
    cases hbroken

/-- The first pass decides about the rest. -/
theorem resolveWithin_of_collect {τ : Type} {patience' : τ → Nat} {r' : Respondent τ} {state' : τ}
    (h : unknownSource? declared = none →
      (collect patience' o r' (sortByName declared.entries) { state := state' }).1 =
          (collect patience o r (sortByName declared.entries) { state }).1 ∧
        (collect patience' o r' (sortByName declared.entries) { state := state' }).2.events =
          (collect patience o r (sortByName declared.entries) { state }).2.events) :
    resolveWithin patience' o r' state' declared = resolveWithin patience o r state declared := by
  rw [resolveWithin, resolveWithin]
  cases hsources : unknownSource? declared with
  | some pair => rfl
  | none =>
    obtain ⟨hresult, hevents⟩ := h hsources
    dsimp only
    generalize collect patience o r (sortByName declared.entries) { state } = pass at hresult hevents ⊢
    generalize collect patience' o r' (sortByName declared.entries) { state := state' } = pass'
      at hresult hevents ⊢
    obtain ⟨result, d⟩ := pass
    obtain ⟨result', d'⟩ := pass'
    obtain rfl : result' = result := hresult
    cases result' with
    | ok values =>
      dsimp only at hevents ⊢
      rw [hevents]
    | error stop =>
      cases stop with
      | failed e =>
        dsimp only at hevents ⊢
        rw [hevents]
      | unfinished => rfl

/-- A resolution that has an outcome has it with more patience, too. -/
theorem resolveWithin_of_le (hle : ∀ s, patience s ≤ patience' s)
    (hres : resolveWithin patience o r state declared = some res) :
    resolveWithin patience' o r state declared = some res := by
  rw [← hres]
  refine resolveWithin_of_collect fun hsources => ?_
  have hmore := collect_of_le hle (collect_ne_unfinished_of_resolveWithin hres hsources)
  exact ⟨congrArg Prod.fst hmore, congrArg (·.2.events) hmore⟩

theorem exists_constant (hres : resolveWithin patience o r state declared = some res) :
    ∃ n, resolveWithin (fun _ => n) o r state declared = some res := by
  cases hsources : unknownSource? declared with
  | some pair =>
    refine ⟨0, (resolveWithin_of_collect fun hnone => ?_).trans hres⟩
    rw [hsources] at hnone
    cases hnone
  | none =>
    obtain ⟨n, hn⟩ :=
      exists_collect_constant (collect_ne_unfinished_of_resolveWithin hres hsources)
    refine ⟨n, (resolveWithin_of_collect fun _ => ?_).trans hres⟩
    exact ⟨congrArg Prod.fst hn, congrArg (·.2.events) hn⟩

/-- The resolution has the outcome, if the respondent is waited for long enough. -/
def ComesTo (o : Overrides) (r : Respondent σ) (state : σ) (declared : Variables) (res : Resolution) :
    Prop :=
  ∃ patience, resolveWithin patience o r state declared = some res

/-- **A resolution has one outcome at most**: two patiences are not more than their maximum. -/
theorem ComesTo.unique (h : ComesTo o r state declared res) (h' : ComesTo o r state declared res') :
    res = res' := by
  obtain ⟨patience, hres⟩ := h
  obtain ⟨patience', hres'⟩ := h'
  have hboth : resolveWithin (fun s => max (patience s) (patience' s)) o r state declared = some res :=
    resolveWithin_of_le (fun _ => Nat.le_max_left ..) hres
  rw [resolveWithin_of_le (fun _ => Nat.le_max_right ..) hres'] at hboth
  exact (Option.some.inj hboth).symm

/-- Against a prompter the outcome is that of `resolve`. -/
theorem comesTo_iff_eq_resolve {p : Prompter σ} :
    ComesTo o p.toRespondent state declared res ↔ res = resolve o p state declared := by
  have hresolve : ComesTo o p.toRespondent state declared (resolve o p state declared) :=
    ⟨p.blanks, resolveWithin_eq_some_resolve o p state declared⟩
  exact ⟨fun h => h.unique hresolve, fun h => h ▸ hresolve⟩

end Stencil.Resolution
