/-
  Replaying a resolution.

  The values of a resolution can be given as overrides to another one, in which nobody answers.  An
  override that is not blank counts at once.  A blank one counts as none, so a blank value has to come
  about again in its own way:

  * what was asked for and left blank is optional and has no default, and without an answer it is left
    blank again (`Answered.fallback_of_isBlank`);
  * what is derived from a blank value falls back again, and what a transform erased is erased again,
    since the source has the same value as before.

  So a final value of the second run is the value of the first one, by induction along the chain of
  sources (`Finished.get?_of_final`).  Without cycles every chain ends, and no variable of the second
  run is taken before its source (`Finished.acyclic`).
-/
import Mathlib.Data.List.Perm.Subperm
import Stencil.Proofs.Resolution.Acyclic
import Stencil.Proofs.Transform.Blank

namespace Stencil.Resolution

variable {o : Overrides} {declared : Variables} {exchanges exchanges' : List (Question × Reply)}
  {values : Values} {name source x y : String} {v : Variable}

/-- Maps with the same increasing names are equal if one has the values of the other. -/
theorem eq_of_sorted {values' : Values} (hnames : values.names.Perm values'.names)
    (hsorted : values.names.Pairwise fun a b => Bytes.ofString a < Bytes.ofString b)
    (hsorted' : values'.names.Pairwise fun a b => Bytes.ofString a < Bytes.ofString b)
    (hget : ∀ name x, values.get? name = some x → values'.get? name = some x) : values = values' := by
  have hsub : values.entries ⊆ values'.entries := fun e he =>
    NameMap.get?_eq_some_iff.mp (hget e.1 e.2 (NameMap.get?_eq_some_iff.mpr he))
  have hlength : values'.entries.length ≤ values.entries.length := by
    simpa only [NameMap.names, List.length_map] using hnames.length_eq.ge
  have hperm : values.entries.Perm values'.entries :=
    (List.subperm_of_subset (.of_map _ values.nodup) hsub).perm_of_length_le hlength
  rw [NameMap.names, List.pairwise_map] at hsorted hsorted'
  have hentries : values.entries = values'.entries :=
    hperm.eq_of_pairwise (fun a b _ _ hab hba => absurd hba (List.lt_asymm hab)) hsorted hsorted'
  cases values
  cases values'
  cases hentries
  rfl

/-! ## Blank values -/

/-- What was entered as blank is what the variable falls back to, by induction on the answers. -/
theorem Answered.fallback_of_isBlank {replies : List Reply} (h : Answered name v replies (.ok x))
    (hblank : isBlank x = true) : fallback name v = .ok x := by
  generalize houtcome : Except.ok x = outcome at h
  induction h with
  | entered ht =>
    obtain rfl := Except.ok.inj houtcome
    exact absurd hblank (Bool.eq_false_iff.mp (isBlank_trim ht))
  | default _ hd =>
    obtain rfl := Except.ok.inj houtcome
    exact fallback_eq_ok_iff.mpr (.inl hd)
  | closedDefault hd =>
    obtain rfl := Except.ok.inj houtcome
    exact fallback_eq_ok_iff.mpr (.inl hd)
  | left _ hd hv =>
    obtain rfl := Except.ok.inj houtcome
    exact fallback_eq_ok_iff.mpr (.inr ⟨hd, hv, rfl⟩)
  | closedBlank hd hv =>
    obtain rfl := Except.ok.inj houtcome
    exact fallback_eq_ok_iff.mpr (.inr ⟨hd, hv, rfl⟩)
  | again _ _ _ _ ih => exact ih houtcome
  | closedMissing => cases houtcome
  | failed => cases houtcome

/-! ## A run in which nobody answers -/

/-- The silent prompter is always closed. -/
theorem Conversation.eq_closed {s s' : Unit}
    (h : Conversation Prompter.silent.toRespondent s exchanges s') {reply : Reply}
    (hreply : reply ∈ exchanges.map Prod.snd) : reply = .closed := by
  induction h with
  | nil => cases hreply
  | cons hask hrest ih =>
    rcases List.mem_cons.mp hreply with rfl | hreply
    · exact (Prod.mk.inj hask).1.symm
    · exact ih hreply

/-- Without an answer a variable falls back. -/
theorem Answered.eq_fallback {replies : List Reply} {outcome : Except Error String}
    (h : Answered name v replies outcome) (hclosed : ∀ reply ∈ replies, reply = .closed) :
    outcome = fallback name v := by
  have hhead : ∀ {reply rest}, replies = reply :: rest → reply = .closed :=
    fun heq => hclosed _ (heq ▸ List.mem_cons_self ..)
  cases h with
  | closedDefault hd => exact (fallback_eq_ok_iff.mpr (.inl hd)).symm
  | closedBlank hd hv => exact (fallback_eq_ok_iff.mpr (.inr ⟨hd, hv, rfl⟩)).symm
  | closedMissing hd hv => exact (fallback_eq_error_iff.mpr ⟨hd, hv, rfl⟩).symm
  | entered => cases hhead rfl
  | default => cases hhead rfl
  | left => cases hhead rfl
  | again => cases hhead rfl
  | failed => cases hhead rfl

/-! ## The values as overrides -/

theorem override?_ofMap_eq_some_iff :
    override? (.ofMap values) name = some x ↔ values.get? name = some x ∧ isBlank x = false := by
  rw [override?, Variable.filled?, Option.filter_eq_some_iff]
  simp [Overrides.ofMap]

/-- What is not overridden in the second run has a blank value. -/
theorem isBlank_of_override?_ofMap (hplain : override? (.ofMap values) name = none)
    (hx : values.get? name = some x) : isBlank x = true := by
  by_contra hfilled
  rw [Bool.not_eq_true] at hfilled
  rw [override?_ofMap_eq_some_iff.mpr ⟨hx, hfilled⟩] at hplain
  cases hplain

/-- The values of a run in which no variable was taken before its source. -/
structure Finished (o : Overrides) (declared : Variables) (exchanges : List (Question × Reply))
    (values : Values) : Prop where
  names : values.names.Perm declared.names
  sorted : values.names.Pairwise fun a b => Bytes.ofString a < Bytes.ofString b
  final : ∀ name x, values.get? name = some x →
    Final o declared exchanges (fun _ => False) name x

theorem Outcome.finished (hacyclic : ∀ a, ¬ OnCycle o declared a)
    (h : Outcome o declared exchanges (.ok values)) : Finished o declared exchanges values := by
  cases h with
  | found hentered hnames hsorted hfinal =>
    rw [forced_eq_false hacyclic] at hfinal
    exact ⟨hnames, hsorted, hfinal⟩

namespace Finished

variable (h : Finished o declared exchanges values)

include h

theorem exists_get? (hv : declared.get? name = some v) : ∃ x, values.get? name = some x :=
  NameMap.exists_get?_of_names_perm h.names hv

/-- What is derived in the second run was derived in the first one. -/
theorem derives (hderives : Derives (.ofMap values) declared name v source) :
    Derives o declared name v source where
  declares := hderives.declares
  source := hderives.source
  plain := by
    obtain ⟨x, hx⟩ := h.exists_get? hderives.declares
    have hblank := isBlank_of_override?_ofMap hderives.plain hx
    cases hoverride : override? o name with
    | none => rfl
    | some y =>
      obtain rfl := (h.final name x hx).unique (.given hderives.declares (.inl hoverride))
      exact absurd hblank (Bool.eq_false_iff.mp (Variable.isBlank_of_filled? hoverride))

theorem acyclic (hacyclic : ∀ a, ¬ OnCycle o declared a) (a : String) :
    ¬ OnCycle (.ofMap values) declared a := by
  intro hcycle
  have hstep : ∀ b c, DerivedFrom (.ofMap values) declared b c → DerivedFrom o declared b c :=
    fun b c ⟨v, hv⟩ => ⟨v, h.derives hv⟩
  exact hacyclic a (Relation.TransGen.mono hstep a a hcycle)

/-- What is asked for in the second run falls back to the value of the first one. -/
theorem fallback_of_asked (hv : declared.get? name = some v)
    (hplain : override? (.ofMap values) name = none) (hsource : v.source? = none)
    (hx : values.get? name = some x) : fallback name v = .ok x := by
  have hnotDerived : ∀ {w source'}, ¬ Derives o declared name w source' := by
    intro w source' hderives
    obtain rfl := Option.some.inj (hv.symm.trans hderives.declares)
    exact absurd hderives.source (by rw [hsource]; exact nofun)
  have hblank := isBlank_of_override?_ofMap hplain hx
  cases h.final name x hx with
  | given hv' hgiven =>
    obtain rfl := Option.some.inj (hv.symm.trans hv')
    rcases hgiven with hoverride | ⟨-, -, hanswered⟩
    · exact absurd hblank (Bool.eq_false_iff.mp (Variable.isBlank_of_filled? hoverride))
    · exact hanswered.fallback_of_isBlank hblank
  | derived hderives => exact absurd hderives hnotDerived
  | filled hderives => exact absurd hderives hnotDerived
  | taken hderives => exact absurd hderives hnotDerived

/-- What is derived in the second run comes from the source's value as it did in the first one. -/
theorem of_derives (hderives : Derives (.ofMap values) declared name v source)
    (hx : values.get? name = some x) (hy : values.get? source = some y) :
    isBlank y = true ∧ fallback name v = .ok x ∨
      isBlank y = false ∧ transform (v.transform.getD "") y = x := by
  rcases (h.derives hderives).final_iff.mp (h.final name x hx) with ⟨hearly, -⟩ | ⟨-, y', hy', hcases⟩
  · exact hearly.elim
  · obtain rfl := (h.final source y hy).unique hy'
    exact hcases

/-- **A final value of the second run is the value of the first one**, by induction along the chain
    of sources. -/
theorem get?_of_final (hclosed : ∀ reply ∈ exchanges'.map Prod.snd, reply = .closed)
    (hfinal : Final (.ofMap values) declared exchanges' (fun _ => False) name x) :
    values.get? name = some x := by
  induction hfinal with
  | given hv hgiven =>
    rcases hgiven with hoverride | ⟨hplain, hsource, hanswered⟩
    · exact (override?_ofMap_eq_some_iff.mp hoverride).1
    · obtain ⟨z, hz⟩ := h.exists_get? hv
      have hfallback := hanswered.eq_fallback fun reply hreply => hclosed _ (mem_of_mem_answersTo hreply)
      rw [h.fallback_of_asked hv hplain hsource hz] at hfallback
      rw [hz, Except.ok.inj hfallback]
  | derived hderives hlate hsource hy ih =>
    obtain ⟨z, hz⟩ := h.exists_get? hderives.declares
    rcases h.of_derives hderives hz ih with ⟨hblank, -⟩ | ⟨-, htransform⟩
    · exact absurd hblank (Bool.eq_false_iff.mp hy)
    · rw [hz, htransform]
  | filled hderives hlate hsource hy hx ih =>
    obtain ⟨z, hz⟩ := h.exists_get? hderives.declares
    rcases h.of_derives hderives hz ih with ⟨-, hfallback⟩ | ⟨hfilled, -⟩
    · rw [hz, Except.ok.inj (hfallback.symm.trans hx)]
    · exact absurd hy (Bool.eq_false_iff.mp hfilled)
  | taken hderives hearly => exact hearly.elim

/-- No variable lacks a value in the second run. -/
theorem not_lacks (hclosed : ∀ reply ∈ exchanges'.map Prod.snd, reply = .closed) :
    ¬ Lacks (.ofMap values) declared exchanges' (fun _ => False) name source v := by
  intro hlacks
  rcases hlacks.blank with hearly | ⟨y, hy, hblank⟩
  · exact hearly
  obtain ⟨x, hx⟩ := h.exists_get? hlacks.derives.declares
  rcases h.of_derives hlacks.derives hx (h.get?_of_final hclosed hy) with ⟨-, hfallback⟩ | ⟨hfilled, -⟩
  · rw [fallback_eq_error_iff.mpr ⟨hlacks.noDefault, hlacks.required, rfl⟩] at hfallback
    cases hfallback
  · exact absurd hblank (Bool.eq_false_iff.mp hfilled)

/-- A second run without answers has the values of the first one. -/
theorem outcome_eq (hacyclic : ∀ a, ¬ OnCycle o declared a)
    (hclosed : ∀ reply ∈ exchanges'.map Prod.snd, reply = .closed)
    {result : Except Error Values} (houtcome : Outcome (.ofMap values) declared exchanges' result) :
    result = .ok values := by
  have hforced := forced_eq_false (h.acyclic hacyclic)
  cases houtcome with
  | unanswered hv hplain hsource he =>
    obtain ⟨x, hx⟩ := h.exists_get? hv
    have hfallback := he.eq_fallback fun reply hreply => hclosed _ (mem_of_mem_answersTo hreply)
    rw [h.fallback_of_asked hv hplain hsource hx] at hfallback
    cases hfallback
  | lacking hentered hlacks =>
    rw [hforced] at hlacks
    exact absurd hlacks (h.not_lacks hclosed)
  | found hentered hnames hsorted hfinal =>
    rw [hforced] at hfinal
    refine congrArg Except.ok (eq_of_sorted (hnames.trans h.names.symm) hsorted h.sorted ?_)
    exact fun name x hx => h.get?_of_final hclosed (hfinal name x hx)

end Finished

/-- A resolution that has values has all sources declared. -/
theorem sourcesDeclared_of_ok {σ : Type} {patience : σ → Nat} {r : Respondent σ} {state : σ}
    {res : Resolution} (hres : resolveWithin patience o r state declared = some res)
    (hvalues : res.result = .ok values) : SourcesDeclared declared := by
  rw [← unknownSource?_eq_none_iff]
  cases hunknown : unknownSource? declared with
  | none => rfl
  | some pair =>
    rw [resolveWithin, hunknown] at hres
    obtain rfl := Option.some.inj hres
    cases hvalues

/-- **A resolution can be replayed.**  If the sources form no cycle, the values that a resolution has
    found, given as overrides, are found again when nobody answers.  Links that an override cuts do not
    count. -/
theorem resolve_replay {σ : Type} {patience : σ → Nat} {r : Respondent σ} {state : σ}
    {res : Resolution} (hacyclic : ∀ a, ¬ OnCycle o declared a)
    (hres : resolveWithin patience o r state declared = some res)
    (hvalues : res.result = .ok values) :
    (resolve (.ofMap values) .silent () declared).result = .ok values := by
  have hsources := sourcesDeclared_of_ok hres hvalues
  obtain ⟨exchanges, -, -, -, houtcome⟩ := resolveWithin_spec hsources hres
  rw [hvalues] at houtcome
  obtain ⟨exchanges', last, hconversation, -, houtcome'⟩ := resolveWithin_spec hsources
    (resolveWithin_eq_some_resolve (.ofMap values) .silent () declared)
  exact (houtcome.finished hacyclic).outcome_eq hacyclic (fun _ => hconversation.eq_closed) houtcome'

/-- A name, its slug, and what may be derived from the slug. -/
def slugAndTag : Variables :=
  .ofList [
    ("TAG", { derivedFrom := some "SLUG", transform := some "upper" }),
    ("NAME", { required := true }),
    ("SLUG", { required := true, derivedFrom := some "NAME", transform := some "slug-kebab" }),
    ("NOTE", {})]

/-- A name without letters and digits leaves three blank values, each in another way. -/
theorem replay_slugAndTag :
    (∀ a, ¬ OnCycle (fun _ => none) slugAndTag a) ∧
    (resolve (fun _ => none) .scripted [.text " !!!", .text " "] slugAndTag).result =
      .ok (.ofList [("NAME", "!!!"), ("NOTE", ""), ("SLUG", ""), ("TAG", "")]) ∧
    (resolve (.ofMap (.ofList [("NAME", "!!!"), ("NOTE", ""), ("SLUG", ""), ("TAG", "")])) .silent ()
      slugAndTag).result =
      .ok (.ofList [("NAME", "!!!"), ("NOTE", ""), ("SLUG", ""), ("TAG", "")]) := by
  have hacyclic : ∀ a, ¬ OnCycle (fun _ => none) slugAndTag a :=
    acyclic_of_rank (fun a => ["NAME", "NOTE", "SLUG", "TAG"].idxOf a) (by decide)
  have hvalues : (resolve (fun _ => none) .scripted [.text " !!!", .text " "] slugAndTag).result =
      .ok (.ofList [("NAME", "!!!"), ("NOTE", ""), ("SLUG", ""), ("TAG", "")]) := by decide +kernel
  exact ⟨hacyclic, hvalues,
    resolve_replay hacyclic (resolveWithin_eq_some_resolve _ .scripted _ slugAndTag) hvalues⟩

end Stencil.Resolution
