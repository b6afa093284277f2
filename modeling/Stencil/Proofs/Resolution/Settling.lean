/-
  The values of derived variables.

  1. **The specification.** `Final o declared exchanges early` says what value a variable ends up
     with, by recursion along its chain of sources and not in the order of any rounds.  The
     parameter `early` names the variables that do not wait for their source; of those only the
     fallback counts.
  2. **The invariant.** `Settling` holds between two rounds: the names that wait and those with a
     value are together the declared ones, and the values found so far are final.
  3. **The crux** (`Settling.derive_spec`).  The variable that a round takes either is ready, and
     then its source has a value, which is final; or it is forced, and then its source has none
     yet.  So `early` is `Forced`, and the value that the round derives is final again.

  `settle_spec` follows by induction on the rounds.
-/
import Stencil.Proofs.Resolution.Waiting

namespace Stencil.Resolution

variable {o : Overrides} {declared : Variables} {exchanges : List (Question × Reply)}
  {early : String → Prop}

/-! ## Final values -/

/-- The value that a variable ends up with.  The variables of `early` are taken before their source. -/
inductive Final (o : Overrides) (declared : Variables) (exchanges : List (Question × Reply))
    (early : String → Prop) : String → String → Prop where
  /-- What the first pass finds stays. -/
  | given {name x : String} {v : Variable} (hv : declared.get? name = some v)
      (hx : Given o exchanges name v x) : Final o declared exchanges early name x
  /-- A value of the source is transformed. -/
  | derived {name source y : String} {v : Variable} (h : Derives o declared name v source)
      (hlate : ¬ early name) (hsource : Final o declared exchanges early source y)
      (hy : isBlank y = false) :
      Final o declared exchanges early name (transform (v.transform.getD "") y)
  /-- A source left blank does not count. -/
  | filled {name source x y : String} {v : Variable} (h : Derives o declared name v source)
      (hlate : ¬ early name) (hsource : Final o declared exchanges early source y)
      (hy : isBlank y = true) (hx : fallback name v = .ok x) : Final o declared exchanges early name x
  /-- A source without value does not count. -/
  | taken {name source x : String} {v : Variable} (h : Derives o declared name v source)
      (hearly : early name) (hx : fallback name v = .ok x) : Final o declared exchanges early name x

/-- What derives from a source is not given by an override or an answer. -/
theorem Derives.isGiven_eq_false {name source : String} {v : Variable}
    (h : Derives o declared name v source) : isGiven o (name, v) = false := by
  simp [isGiven, h.plain, h.source]

theorem Given.not_derives {name source x : String} {v w : Variable} (hv : declared.get? name = some v)
    (hx : Given o exchanges name v x) : ¬ Derives o declared name w source := by
  intro h
  obtain rfl := Option.some.inj (hv.symm.trans h.declares)
  have hgiven := hx.isGiven
  rw [h.isGiven_eq_false] at hgiven
  exact Bool.false_ne_true hgiven

/-- What a derived variable ends up with. -/
theorem Derives.final_iff {name source x : String} {v : Variable}
    (h : Derives o declared name v source) :
    Final o declared exchanges early name x ↔
      early name ∧ fallback name v = .ok x ∨
      ¬ early name ∧ ∃ y, Final o declared exchanges early source y ∧
        (isBlank y = true ∧ fallback name v = .ok x ∨
          isBlank y = false ∧ transform (v.transform.getD "") y = x) := by
  constructor
  · intro hfinal
    cases hfinal with
    | given hv hx => exact absurd h (hx.not_derives hv)
    | derived h' hlate hsource hy =>
      obtain ⟨rfl, rfl⟩ := h.unique h'
      exact .inr ⟨hlate, _, hsource, .inr ⟨hy, rfl⟩⟩
    | filled h' hlate hsource hy hx =>
      obtain ⟨rfl, rfl⟩ := h.unique h'
      exact .inr ⟨hlate, _, hsource, .inl ⟨hy, hx⟩⟩
    | taken h' hearly hx =>
      obtain ⟨rfl, rfl⟩ := h.unique h'
      exact .inl ⟨hearly, hx⟩
  · rintro (⟨hearly, hx⟩ | ⟨hlate, y, hsource, ⟨hy, hx⟩ | ⟨hy, rfl⟩⟩)
    · exact .taken h hearly hx
    · exact .filled h hlate hsource hy hx
    · exact .derived h hlate hsource hy

/-- A variable has one final value, by induction along its chain. -/
theorem Final.unique {name x x' : String} (h : Final o declared exchanges early name x)
    (h' : Final o declared exchanges early name x') : x = x' := by
  induction h generalizing x' with
  | given hv hx =>
    cases h' with
    | given hv' hx' =>
      obtain rfl := Option.some.inj (hv.symm.trans hv')
      exact hx.unique hx'
    | derived h' => exact absurd h' (hx.not_derives hv)
    | filled h' => exact absurd h' (hx.not_derives hv)
    | taken h' => exact absurd h' (hx.not_derives hv)
  | derived h hlate hsource hy ih =>
    rcases h.final_iff.mp h' with ⟨hearly, -⟩ | ⟨-, y', hsource', hx'⟩
    · exact absurd hearly hlate
    · obtain rfl := ih hsource'
      rcases hx' with ⟨hy', -⟩ | ⟨-, hx'⟩
      · exact absurd hy' (Bool.eq_false_iff.mp hy)
      · exact hx'
  | filled h hlate hsource hy hx ih =>
    rcases h.final_iff.mp h' with ⟨hearly, -⟩ | ⟨-, y', hsource', hx'⟩
    · exact absurd hearly hlate
    · obtain rfl := ih hsource'
      rcases hx' with ⟨-, hx'⟩ | ⟨hy', -⟩
      · exact Except.ok.inj (hx.symm.trans hx')
      · exact absurd hy (Bool.eq_false_iff.mp hy')
  | taken h hearly hx =>
    rcases h.final_iff.mp h' with ⟨-, hx'⟩ | ⟨hlate, -⟩
    · exact Except.ok.inj (hx.symm.trans hx')
    · exact absurd hearly hlate

/-- The variable needs a value, and neither its source nor a default gives it one. -/
structure Lacks (o : Overrides) (declared : Variables) (exchanges : List (Question × Reply))
    (early : String → Prop) (name source : String) (v : Variable) : Prop where
  derives : Derives o declared name v source
  required : v.required = true
  noDefault : v.default? = none
  blank : early name ∨ ∃ y, Final o declared exchanges early source y ∧ isBlank y = true

/-- A variable that lacks a value does not end up with one. -/
theorem Lacks.not_final {name source x : String} {v : Variable}
    (h : Lacks o declared exchanges early name source v) :
    ¬ Final o declared exchanges early name x := by
  have hfallback : fallback name v ≠ .ok x := by
    rw [fallback_eq_error_iff.mpr ⟨h.noDefault, h.required, rfl⟩]
    exact nofun
  intro hfinal
  rcases h.derives.final_iff.mp hfinal with ⟨-, hx⟩ | ⟨hlate, y, hsource, hx⟩
  · exact hfallback hx
  · rcases h.blank with hearly | ⟨y', hsource', hy'⟩
    · exact hlate hearly
    · obtain rfl := hsource.unique hsource'
      rcases hx with ⟨-, hx⟩ | ⟨hy, -⟩
      · exact hfallback hx
      · exact absurd hy' (Bool.eq_false_iff.mp hy)

/-! ## The rounds -/

/-- What holds between two rounds. -/
structure Settling (o : Overrides) (declared : Variables) (exchanges : List (Question × Reply))
    (waiting : List (String × Variable)) (values : List (String × String)) : Prop where
  queue : Queue o declared waiting
  names : (waiting.map Prod.fst ++ values.map Prod.fst).Perm declared.names
  final : ∀ name x, (name, x) ∈ values → Final o declared exchanges (Forced o declared) name x

namespace Settling

variable {waiting : List (String × Variable)} {values : List (String × String)}
  {first : String × Variable} {others : List (String × Variable)}

/-- No name waits that has a value, and none waits or has a value twice. -/
theorem nodup (h : Settling o declared exchanges waiting values) :
    (waiting.map Prod.fst ++ values.map Prod.fst).Nodup :=
  h.names.nodup_iff.mpr declared.nodup

/-- A name that waits has no value yet. -/
theorem lookup_of_waiting (h : Settling o declared exchanges waiting values) {name : String}
    (hname : name ∈ waiting.map Prod.fst) : values.lookup name = none := by
  have hnot : name ∉ values.map Prod.fst :=
    fun hmem => (List.nodup_append.mp h.nodup).2.2 name hname name hmem rfl
  rw [← Option.not_isSome_iff_eq_none, lookup_isSome_iff_mem]
  exact hnot

/-- A declared name that does not wait has a value, which is final. -/
theorem lookup_of_not_waiting (h : Settling o declared exchanges waiting values) {name : String}
    (hdeclared : declared.has name = true) (hname : name ∉ waiting.map Prod.fst) :
    ∃ y, values.lookup name = some y ∧ Final o declared exchanges (Forced o declared) name y := by
  have hmem : name ∈ values.map Prod.fst := by
    have hmem := h.names.mem_iff.mpr (NameMap.has_iff.mp hdeclared)
    exact (List.mem_append.mp hmem).resolve_left hname
  obtain ⟨y, hy⟩ := Option.isSome_iff_exists.mp (lookup_isSome_iff_mem.mpr hmem)
  exact ⟨y, hy, h.final name y ((lookup_eq_some_iff_mem (List.nodup_append.mp h.nodup).2.1).mp hy)⟩

/-- **The value of a round.** -/
theorem derive_spec (h : Settling o declared exchanges (first :: others) values)
    (hsources : SourcesDeclared declared) {name : String} {v : Variable}
    (htaken : (next first others).1 = (name, v)) :
    (∀ x, derive values name v = .ok x → Final o declared exchanges (Forced o declared) name x) ∧
    (∀ e, derive values name v = .error e →
      ∃ source, Lacks o declared exchanges (Forced o declared) name source v ∧
        e = .missingValue name) := by
  obtain ⟨source, hsource⟩ := h.queue.derives _ Queue.next_mem
  have hturn := h.queue.isReady_next_iff
  rw [htaken] at hsource hturn
  dsimp only at hsource hturn
  by_cases hforced : Forced o declared name
  · -- the source waits
    have hwaits : source ∈ (first :: others).map Prod.fst := by
      have hready := hturn.mpr hforced
      rwa [← Bool.not_eq_true, isReady_iff (e := (name, v)) hsource.source, not_not] at hready
    have hderive : derive values name v = fallback name v := by
      simp [derive, hsource.source, h.lookup_of_waiting hwaits]
    rw [hderive]
    refine ⟨fun x hx => .taken hsource hforced hx, fun e he => ?_⟩
    obtain ⟨hdefault, hrequired, rfl⟩ := fallback_eq_error_iff.mp he
    exact ⟨source, ⟨hsource, hrequired, hdefault, .inl hforced⟩, rfl⟩
  · -- the source has a value
    have hready : source ∉ (first :: others).map Prod.fst := by
      rw [← isReady_iff (e := (name, v)) hsource.source, ← Bool.not_eq_false]
      exact mt hturn.mp hforced
    obtain ⟨y, hlookup, hfinal⟩ :=
      h.lookup_of_not_waiting (hsources name v source hsource.declares hsource.source) hready
    cases hy : isBlank y with
    | false =>
      have hderive : derive values name v = .ok (transform (v.transform.getD "") y) := by
        simp [derive, hsource.source, hlookup, Variable.filled?_some_of_not_blank hy]
      rw [hderive]
      refine ⟨fun x hx => ?_, nofun⟩
      obtain rfl := Except.ok.inj hx
      exact .derived hsource hforced hfinal hy
    | true =>
      have hderive : derive values name v = fallback name v := by
        simp [derive, hsource.source, hlookup, Variable.filled?_some_of_blank hy]
      rw [hderive]
      refine ⟨fun x hx => .filled hsource hforced hfinal hy hx, fun e he => ?_⟩
      obtain ⟨hdefault, hrequired, rfl⟩ := fallback_eq_error_iff.mp he
      exact ⟨source, ⟨hsource, hrequired, hdefault, .inr ⟨y, hfinal, hy⟩⟩, rfl⟩

/-- A round keeps the invariant. -/
theorem step (h : Settling o declared exchanges (first :: others) values) {name x : String}
    {v : Variable} (htaken : (next first others).1 = (name, v))
    (hx : Final o declared exchanges (Forced o declared) name x) :
    Settling o declared exchanges (next first others).2 (values ++ [(name, x)]) where
  queue := h.queue.next
  names := by
    have hperm := (next_perm first others).map Prod.fst
    rw [List.map_cons, htaken] at hperm
    rw [List.map_append, ← List.append_assoc]
    refine List.Perm.trans ?_ h.names
    refine List.Perm.trans ?_ (hperm.symm.append_right _)
    exact List.perm_append_singleton _ _
  final n y hy := by
    rcases List.mem_append.mp hy with hy | hy
    · exact h.final n y hy
    · obtain ⟨rfl, rfl⟩ := Prod.mk.inj (List.mem_singleton.mp hy)
      exact hx

end Settling

@[simp] theorem questions_deadlock (waiting : List (String × Variable)) (events : List Event) :
    Event.questions (events ++ deadlock waiting) = Event.questions events := by
  rw [deadlock]
  split <;> simp [Event.questions]

/-- **The second pass.**  By induction on the rounds: either nothing waits in the end, or the round that
    failed had taken a variable that lacks a value. -/
theorem settle_spec (hsources : SourcesDeclared declared) (fuel : Nat)
    (waiting : List (String × Variable)) (values : List (String × String)) (events : List Event)
    (h : Settling o declared exchanges waiting values) (hfuel : waiting.length ≤ fuel) :
    Event.questions (settle fuel waiting values events).2 = Event.questions events ∧
    (∀ found, (settle fuel waiting values events).1 = .ok found →
      Settling o declared exchanges [] found) ∧
    (∀ e, (settle fuel waiting values events).1 = .error e → ∃ name source v,
      Lacks o declared exchanges (Forced o declared) name source v ∧ e = .missingValue name) := by
  fun_induction settle fuel waiting values events with
  | case1 waiting values events =>
    obtain rfl := List.length_eq_zero_iff.mp (Nat.le_zero.mp hfuel)
    refine ⟨rfl, fun found hfound => ?_, nofun⟩
    obtain rfl := Except.ok.inj hfound
    exact h
  | case2 fuel values events =>
    refine ⟨rfl, fun found hfound => ?_, nofun⟩
    obtain rfl := Except.ok.inj hfound
    exact h
  | case3 fuel first others values events entry waiting htaken events' x hx ih =>
    -- the round finds a value
    have htaken' : (next first others).1 = (entry.1, entry.2) := by rw [htaken]
    have hfinal := (h.derive_spec hsources htaken').1 x hx
    have hstep := h.step htaken' hfinal
    rw [htaken] at hstep
    have hlength := (next_perm first others).length_eq
    rw [htaken] at hlength
    simp only [List.length_cons] at hlength hfuel
    obtain ⟨hquestions, hok, herror⟩ := ih hstep (by omega)
    exact ⟨hquestions.trans (questions_deadlock _ _), hok, herror⟩
  | case4 fuel first others values events entry waiting htaken events' e he =>
    -- the variable of the round lacks a value
    have htaken' : (next first others).1 = (entry.1, entry.2) := by rw [htaken]
    refine ⟨questions_deadlock _ _, nofun, fun e' he' => ?_⟩
    obtain rfl := Except.error.inj he'
    obtain ⟨source, hlacks, hname⟩ := (h.derive_spec hsources htaken').2 e he
    exact ⟨entry.1, source, entry.2, hlacks, hname⟩

end Stencil.Resolution
