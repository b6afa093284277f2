/-
  Slugs of slugs.

  A variable may be derived from a slug by the same transform.  It is to have the same value, and that is
  so wherever the slug holds nothing but letters, digits and separators.

  1. **Settled words.**  Lower case leaves the words of a slug as they are, and they are the runs of the
     slug.  So the slug is its own slug (`slug_slug`).
  2. **The dot.**  Letters and digits are looked for before the change to lower case.  The dot that comes
     out of a capital `İ` is neither, so it stands in the slug, and the slug of that slug has a separator
     in its place or nothing at all.  No other slug has a dot in it (`dot_mem_slug_iff`).
  3. **Stability.**  So a slug holds letters, digits and separators only, and is its own slug, exactly if
     there is no `İ` in the text (`stableSlug_iff`).
-/
import Stencil.Proofs.Resolution.Cycles
import Stencil.Proofs.Resolution.Replay
import Stencil.Proofs.Transform.Slug

namespace Stencil

variable {separator c : Char} {s : String}

/-! ## Settled words -/

/-- Runs behind one separator each are the runs of what they make up.  By induction on the runs. -/
theorem maximalRuns_flatMap {p : Char → Bool} {rs : List (List Char)} (hmark : p separator = false)
    (hruns : ∀ run ∈ rs, run ≠ [] ∧ ∀ c ∈ run, p c = true) :
    MaximalRuns p (rs.flatMap (separator :: ·)) rs ∧
      ∀ c ∈ (rs.flatMap (separator :: ·)).head?, p c = false := by
  induction rs with
  | nil => exact ⟨.gap (List.forall_mem_nil _), nofun⟩
  | cons run rs ih =>
    obtain ⟨⟨hne, hrun⟩, hrest⟩ := List.forall_mem_cons.mp hruns
    obtain ⟨hbehind, hend⟩ := ih hrest
    have hgap : ∀ c ∈ [separator], p c = false := fun c hc => List.mem_singleton.mp hc ▸ hmark
    exact ⟨.run hgap hne hrun hend hbehind, fun c hc => Option.some.inj hc ▸ hmark⟩

/-- Runs joined by separators are the runs of the whole. -/
theorem maximalRuns_intercalate {p : Char → Bool} {rs : List (List Char)} (hmark : p separator = false)
    (hruns : ∀ run ∈ rs, run ≠ [] ∧ ∀ c ∈ run, p c = true) :
    MaximalRuns p (List.intercalate [separator] rs) rs := by
  cases rs with
  | nil => exact .gap (List.forall_mem_nil _)
  | cons run rs =>
    obtain ⟨⟨hne, hrun⟩, hrest⟩ := List.forall_mem_cons.mp hruns
    obtain ⟨hbehind, hend⟩ := maximalRuns_flatMap hmark hrest
    rw [intercalate_cons_eq]
    exact .run (List.forall_mem_nil _) hne hrun hend hbehind

/-- Lower case leaves settled characters as they are. -/
theorem flatMap_lowerChar_of_settled {cs : List Char} (h : ∀ c ∈ cs, Settled c) :
    cs.flatMap lowerChar = cs := by
  rw [List.flatMap_congr fun c hc => (h c hc).lower, List.flatMap_singleton']

/-- Without an `İ` in the text the words of its slug are settled. -/
theorem settled_of_mem_slugWords (hplain : 'İ' ∉ s.toList) {word : List Char}
    (hword : word ∈ slugWords s) : word ≠ [] ∧ ∀ c ∈ word, Settled c := by
  obtain ⟨run, hmem, rfl⟩ := List.mem_map.mp hword
  obtain ⟨hpart, hne, hrun⟩ := (maximalRuns_iff.mpr rfl).of_mem run hmem
  refine ⟨flatMap_lowerChar_ne_nil hne, fun c hc => ?_⟩
  obtain ⟨d, hd, hc⟩ := List.mem_flatMap.mp hc
  refine (settled_of_mem_lowerChar (hrun d hd) hc).resolve_right ?_
  rintro ⟨rfl, -⟩
  exact hplain (hpart.subset hd)

/-- **A slug is its own slug**, if there was no `İ`. -/
theorem slug_slug (hmark : isAlphanumeric separator = false) (hplain : 'İ' ∉ s.toList) :
    slug separator (slug separator s) = slug separator s := by
  have hsettled : ∀ word ∈ slugWords s, word ≠ [] ∧ ∀ c ∈ word, Settled c :=
    fun word => settled_of_mem_slugWords hplain
  have hruns : MaximalRuns isAlphanumeric (List.intercalate [separator] (slugWords s)) (slugWords s) :=
    maximalRuns_intercalate hmark fun word hword =>
      (hsettled word hword).imp_right fun h c hc => (h c hc).alphanumeric
  have hsame : ((slugWords s).map fun word => word.flatMap lowerChar) = slugWords s :=
    (List.map_congr_left fun word hword => flatMap_lowerChar_of_settled (hsettled word hword).2).trans
      (List.map_id _)
  rw [slug, toList_slug, hruns.slugChars_eq, hsame, ← toList_slug, String.ofList_toList]

/-! ## The dot -/

/-- What a slug is written with. -/
theorem of_mem_slugFrom {started gap : Bool} {cs : List Char}
    (h : c ∈ slugFrom separator started gap cs) :
    c = separator ∨ ∃ d ∈ cs, isAlphanumeric d = true ∧ c ∈ lowerChar d := by
  fun_induction slugFrom separator started gap cs with
  | case1 => exact absurd h List.not_mem_nil
  | case2 started gap d cs hd ih =>
    rcases List.mem_append.mp h with h | h
    · rcases List.mem_append.mp h with h | h
      · split at h
        · exact .inl (List.mem_singleton.mp h)
        · exact absurd h List.not_mem_nil
      · exact .inr ⟨d, List.mem_cons_self, hd, h⟩
    · exact (ih h).imp_right fun ⟨e, he, hletter⟩ => ⟨e, List.mem_cons_of_mem d he, hletter⟩
  | case3 started gap d cs hd ih =>
    exact (ih h).imp_right fun ⟨e, he, hletter⟩ => ⟨e, List.mem_cons_of_mem d he, hletter⟩

theorem of_mem_slug (h : c ∈ (slug separator s).toList) :
    c = separator ∨ Settled c ∨ c = '\u0307' ∧ 'İ' ∈ s.toList := by
  rw [slug, String.toList_ofList] at h
  refine (of_mem_slugFrom h).imp_right ?_
  rintro ⟨d, hd, hletter, hc⟩
  refine (settled_of_mem_lowerChar hletter hc).imp_right ?_
  rintro ⟨rfl, rfl⟩
  exact ⟨rfl, hd⟩

/-- A slug has no `İ`. -/
theorem dotted_not_mem_slug (hmark : isAlphanumeric separator = false) :
    'İ' ∉ (slug separator s).toList := by
  intro h
  rcases of_mem_slug h with rfl | hsettled | ⟨hdot, -⟩
  · exact absurd hmark (by decide +kernel)
  · exact hsettled.ne_dotted rfl
  · exact absurd hdot (by decide)

/-- There is a dot in a slug exactly if there was an `İ` in the text. -/
theorem dot_mem_slug_iff (hdot : separator ≠ '\u0307') :
    '\u0307' ∈ (slug separator s).toList ↔ 'İ' ∈ s.toList := by
  constructor
  · intro h
    rcases of_mem_slug h with hsame | hsettled | ⟨-, hdotted⟩
    · exact absurd hsame.symm hdot
    · exact absurd rfl hsettled.ne_dot
    · exact hdotted
  · intro h
    rw [slug, String.toList_ofList]
    exact mem_slugFrom h (by decide +kernel) (by rw [lowerChar_dotted]; decide) false false

/-- A slug holds letters, digits and separators exactly if there was no `İ`. -/
theorem forall_mem_slug_iff (hseparator : SlugSeparator separator) :
    (∀ c ∈ (slug separator s).toList, isAlphanumeric c = true ∨ c = separator) ↔ 'İ' ∉ s.toList := by
  constructor
  · intro h hdotted
    rcases h _ ((dot_mem_slug_iff hseparator.ne_dot).mpr hdotted) with hletter | hsame
    · exact absurd hletter (Bool.eq_false_iff.mp isAlphanumeric_dot)
    · exact hseparator.ne_dot hsame.symm
  · intro hplain c hc
    rcases of_mem_slug hc with hsame | hsettled | ⟨-, hdotted⟩
    · exact .inr hsame
    · exact .inl hsettled.alphanumeric
    · exact absurd hdotted hplain

/-- A slug is its own slug exactly if there was no `İ`. -/
theorem slug_slug_iff (hseparator : SlugSeparator separator) :
    slug separator (slug separator s) = slug separator s ↔ 'İ' ∉ s.toList := by
  refine ⟨fun h hdotted => ?_, slug_slug hseparator.mark⟩
  have hdot := (dot_mem_slug_iff hseparator.ne_dot).mpr hdotted
  rw [← h, dot_mem_slug_iff hseparator.ne_dot] at hdot
  exact dotted_not_mem_slug hseparator.mark hdot

/-! ## Transforms and variables -/

/-- The separators of the slugs that have a name. -/
theorem Transform.slugSeparator_of_named {name : String}
    (h : Transform.named name = .slug separator) : SlugSeparator separator := by
  refine slugSeparator_of_eq ?_
  rw [Transform.named] at h
  split at h
  · exact .inl (Transform.slug.inj h).symm
  · exact .inr (Transform.slug.inj h).symm
  all_goals cases h

namespace Resolution

variable {o : Overrides} {declared : Variables} {values : Values} {copy source y : String} {v : Variable}

/-- Among the values found, `copy` is derived from `source` in its turn: the source has the value `y` by
    then, which is not blank. -/
structure Applies (o : Overrides) (declared : Variables) (values : Values) (copy source y : String)
    (v : Variable) : Prop where
  derives : Derives o declared copy v source
  late : ¬ Forced o declared copy
  value : values.get? source = some y
  shows : isBlank y = false

/-- A variable that is derived in its turn has the transform of its source's value. -/
theorem Applies.get? {σ : Type} {patience : σ → Nat} {r : Respondent σ} {state : σ} {res : Resolution}
    (h : Applies o declared values copy source y v)
    (hres : resolveWithin patience o r state declared = some res) (hvalues : res.result = .ok values) :
    values.get? copy = some (transform (v.transform.getD "") y) := by
  obtain ⟨exchanges, -, -, -, houtcome⟩ := resolveWithin_spec (sourcesDeclared_of_ok hres hvalues) hres
  rw [hvalues] at houtcome
  exact houtcome.derived_of_not_forced h.derives h.late h.value h.shows

end Resolution

open Resolution

/-- **When slugs are stable.**  For both transforms that make slugs:
    (1) the slug of a text holds letters, digits and separators only,
    (2) it is its own slug,
    (3) and a variable that is derived from it by the same transform has it as its value, in whatever
        resolution,
    each exactly if there is no `İ` in the text. -/
theorem stableSlug_iff {name : String} (hname : Transform.named name = .slug separator) (s : String) :
    ((∀ c ∈ (transform name s).toList, isAlphanumeric c = true ∨ c = separator) ↔ 'İ' ∉ s.toList) ∧
    (transform name (transform name s) = transform name s ↔ 'İ' ∉ s.toList) ∧
    ∀ {σ : Type} {patience : σ → Nat} {r : Respondent σ} {state : σ} {o : Overrides}
      {declared : Variables} {res : Resolution} {values : Values} {copy source : String} {v : Variable},
      resolveWithin patience o r state declared = some res → res.result = .ok values →
      Applies o declared values copy source (transform name s) v →
      Transform.named (v.transform.getD "") = .slug separator →
      (values.get? copy = values.get? source ↔ 'İ' ∉ s.toList) := by
  have hseparator := Transform.slugSeparator_of_named hname
  have htransform : ∀ x, transform name x = slug separator x := fun x => by
    rw [transform, hname, Transform.apply]
  refine ⟨?_, ?_, ?_⟩
  · rw [htransform]
    exact forall_mem_slug_iff hseparator
  · rw [htransform, htransform]
    exact slug_slug_iff hseparator
  · intro σ patience r state o declared res values copy source v hres hvalues happlies hsame
    rw [happlies.get? hres hvalues, happlies.value, Option.some.injEq, transform, hsame, htransform,
      Transform.apply]
    exact slug_slug_iff hseparator

/-- The slug of a slug, by the same transform. -/
def slugTag : Variable := { derivedFrom := some "SLUG", transform := some " SLUG-Kebab" }

/-- A name, its slug, and the slug of that slug. -/
def slugTwice : Variables :=
  .ofList [
    ("NAME", { required := true }),
    ("SLUG", { derivedFrom := some "NAME", transform := some "slug-kebab" }),
    ("TAG", slugTag)]

/-- A name without an `İ` has one slug, however often it is taken. -/
theorem stableSlug_slugTwice :
    transform "slug-kebab" "--Straße  Σ2!" = "straße-σ2" ∧
    transform "slug-kebab" "straße-σ2" = "straße-σ2" ∧
    ∃ values, (resolve (fun _ => none) .scripted [.text "--Straße  Σ2!"] slugTwice).result =
        .ok values ∧
      values.get? "SLUG" = some "straße-σ2" ∧ values.get? "TAG" = values.get? "SLUG" := by
  have hname : Transform.named "slug-kebab" = .slug '-' := by decide +kernel
  have hslug : transform "slug-kebab" "--Straße  Σ2!" = "straße-σ2" := by decide +kernel
  have hplain : 'İ' ∉ "--Straße  Σ2!".toList := by decide
  have hresult : (resolve (fun _ => none) .scripted [.text "--Straße  Σ2!"] slugTwice).result =
      .ok (.ofList [("NAME", "--Straße  Σ2!"), ("SLUG", "straße-σ2"), ("TAG", "straße-σ2")]) := by
    decide +kernel
  have hlate : ¬ Forced (fun _ => none) slugTwice "TAG" := not_forced_of_acyclic
    (acyclic_of_rank (fun a => ["NAME", "SLUG", "TAG"].idxOf a) (by decide)) "TAG"
  have hderives : Derives (fun _ => none) slugTwice "TAG" slugTag "SLUG" := ⟨by decide, rfl, by decide⟩
  obtain ⟨-, hfixed, hcopies⟩ := stableSlug_iff hname "--Straße  Σ2!"
  rw [hslug] at hfixed hcopies
  have htag := hcopies
    (resolveWithin_eq_some_resolve (fun _ => none) .scripted [.text "--Straße  Σ2!"] slugTwice)
    hresult ⟨hderives, hlate, by decide +kernel, by decide +kernel⟩ (by decide +kernel)
  exact ⟨hslug, hfixed.mpr hplain, _, hresult, by decide +kernel, htag.mpr hplain⟩

/-- The slug of an `İ` has a dot in it, and the slug of that slug has none. -/
theorem not_stable_dotted :
    ¬ (∀ c ∈ (transform "slug-kebab" "İ").toList, isAlphanumeric c = true ∨ c = '-') ∧
    transform "slug-kebab" (transform "slug-kebab" "İ") ≠ transform "slug-kebab" "İ" ∧
    (resolve (fun _ => none) .scripted [.text "İ"] slugTwice).result =
      .ok (.ofList [("NAME", "İ"), ("SLUG", "i̇"), ("TAG", "i")]) := by
  have hslug : transform "slug-kebab" "İ" = "i̇" := by decide +kernel
  have hagain : transform "slug-kebab" "i̇" = "i" := by decide +kernel
  have hresult : (resolve (fun _ => none) .scripted [.text "İ"] slugTwice).result =
      .ok (.ofList [("NAME", "İ"), ("SLUG", "i̇"), ("TAG", "i")]) := by decide +kernel
  rw [hslug, hagain]
  refine ⟨fun hclean => ?_, by decide, hresult⟩
  rcases hclean '\u0307' (by decide) with hletter | hmark
  · exact absurd hletter (Bool.eq_false_iff.mp isAlphanumeric_dot)
  · exact absurd hmark (by decide)

end Stencil
