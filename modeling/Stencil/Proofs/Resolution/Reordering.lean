/-
  The order of the declarations.

  Variables are declared in some order, and a configuration keeps it.  A resolution does not see it: the
  entries are sorted by name before anything is asked, and an entry of a map that is sorted by distinct
  names stands where it does whatever order it came in (`sortByName_of_perm`).  Which source is missed
  first depends on the sorted entries and on which names there are (`unknownSource?_of_perm`).

  The other side is the respondent.  Two respondents, which may be quite different machines inside,
  answer alike when the same questions in the same order get the same answers (`AnswersAlike`).  The
  answer to the first question leaves two that answer alike again, so the first passes go through the
  same questions side by side (`collect_alike`), by induction on the variables.

  Together: what a resolution comes to depends neither on the order of the declarations nor on how the
  respondent makes its answers (`comesTo_iff_of_perm`).
-/
import Mathlib.Data.List.Nodup
import Stencil.Proofs.Resolution.Acyclic
import Stencil.Proofs.Resolution.Patience

namespace Stencil.Resolution

variable {σ τ : Type} {o : Overrides} {r : Respondent σ} {r' : Respondent τ} {state : σ} {state' : τ}
  {declared declared' : Variables} {res res' : Resolution}

/-! ## Entries in another order -/

/-- Entries under distinct names have one order by name. -/
theorem sortByName_of_perm {α : Type} {entries entries' : List (String × α)}
    (hnodup : (entries.map Prod.fst).Nodup) (hperm : entries.Perm entries') :
    sortByName entries = sortByName entries' := by
  refine List.Perm.eq_of_pairwise ?_ (pairwise_sortByName entries) (pairwise_sortByName entries') ?_
  · intro a b ha hb hab hba
    have ha' := (sortByName_perm entries).mem_iff.mp ha
    have hb' := hperm.mem_iff.mpr ((sortByName_perm entries').mem_iff.mp hb)
    exact List.inj_on_of_nodup_map hnodup ha' hb' (nameLe_antisymm hab hba)
  · exact (sortByName_perm entries).trans (hperm.trans (sortByName_perm entries').symm)

/-- The order does not decide which source is missed first. -/
theorem unknownSource?_of_perm (hperm : declared.entries.Perm declared'.entries) :
    unknownSource? declared = unknownSource? declared' := by
  have hhas : declared.has = declared'.has := by
    funext name
    rw [Bool.eq_iff_iff, NameMap.has_iff, NameMap.has_iff]
    exact (hperm.map Prod.fst).mem_iff
  rw [unknownSource?, unknownSource?, hhas, sortByName_of_perm declared.nodup hperm]

/-- Against the same respondent everything that could be seen is the same. -/
theorem resolveWithin_of_perm (hperm : declared.entries.Perm declared'.entries) (patience : σ → Nat) :
    resolveWithin patience o r state declared = resolveWithin patience o r state declared' := by
  rw [resolveWithin, resolveWithin, unknownSource?_of_perm hperm,
    sortByName_of_perm declared.nodup hperm]

/-! ## Respondents that answer alike -/

/-- What a respondent answers to questions that are put one after the other. -/
def replies (r : Respondent σ) : σ → List Question → List Reply
  | _, [] => []
  | s, q :: questions => (r.ask q s).1 :: replies r (r.ask q s).2 questions

/-- The same questions in the same order get the same answers, and they are shown alike. -/
structure AnswersAlike (r : Respondent σ) (state : σ) (r' : Respondent τ) (state' : τ) : Prop where
  replies_eq : ∀ questions, replies r state questions = replies r' state' questions
  echo_eq : r.echo = r'.echo

namespace AnswersAlike

theorem refl (r : Respondent σ) (state : σ) : AnswersAlike r state r state := ⟨fun _ => rfl, rfl⟩

theorem symm (h : AnswersAlike r state r' state') : AnswersAlike r' state' r state :=
  ⟨fun questions => (h.replies_eq questions).symm, h.echo_eq.symm⟩

/-- Respondents that answer alike give the same reply to what is asked next. -/
theorem reply_eq (h : AnswersAlike r state r' state') (q : Question) :
    (r.ask q state).1 = (r'.ask q state').1 :=
  (List.cons.inj (h.replies_eq [q])).1

/-- Behind an answer they answer alike again. -/
theorem next (h : AnswersAlike r state r' state') (q : Question) :
    AnswersAlike r (r.ask q state).2 r' (r'.ask q state').2 :=
  ⟨fun questions => (List.cons.inj (h.replies_eq (q :: questions))).2, h.echo_eq⟩

end AnswersAlike

/-- Two dialogues in which the same could be seen, and that will go on alike. -/
structure Alongside (r : Respondent σ) (r' : Respondent τ) (d : Dialogue σ) (d' : Dialogue τ) : Prop where
  alike : AnswersAlike r d.state r' d'.state
  events_eq : d.events = d'.events

/-- Two dialogues start alongside each other. -/
theorem AnswersAlike.alongside (h : AnswersAlike r state r' state') :
    Alongside r r' { state } { state := state' } := ⟨h, rfl⟩

namespace Alongside

variable {d : Dialogue σ} {d' : Dialogue τ}

/-- Dialogues that go alongside do so after a question, with the same reply. -/
theorem ask {q : Question} {reply : Reply} {d₁ : Dialogue σ} (h : Alongside r r' d d')
    (hask : d.ask r q = (reply, d₁)) :
    ∃ d₁', d'.ask r' q = (reply, d₁') ∧ Alongside r r' d₁ d₁' := by
  obtain ⟨rfl, rfl⟩ := Prod.mk.inj hask
  have hreply := h.alike.reply_eq q
  refine ⟨(d'.ask r' q).2, Prod.ext hreply.symm rfl, h.alike.next q, ?_⟩
  simp only [Dialogue.ask, h.events_eq, h.alike.echo_eq, hreply]

theorem insist (h : Alongside r r' d d') (name : String) :
    Alongside r r' (d.insist name) (d'.insist name) :=
  ⟨h.alike, by simp only [Dialogue.insist, h.events_eq]⟩

end Alongside

/-- Asking for a variable goes the same way, by induction on how often it may be asked again. -/
theorem askValue_alike (name : String) (v : Variable) (fuel : Nat) {d : Dialogue σ} {d' : Dialogue τ}
    (h : Alongside r r' d d') :
    (askValue r name v fuel d).1 = (askValue r' name v fuel d').1 ∧
      Alongside r r' (askValue r name v fuel d).2 (askValue r' name v fuel d').2 := by
  fun_induction askValue r name v fuel d generalizing d' with
  | case1 fuel d reply d₁ hask x hverdict =>
    obtain ⟨d₁', hask', hnext⟩ := h.ask hask
    rw [askValue, hask']
    simp only [hverdict]
    exact ⟨trivial, hnext⟩
  | case2 fuel d reply d₁ hask e hverdict =>
    obtain ⟨d₁', hask', hnext⟩ := h.ask hask
    rw [askValue, hask']
    simp only [hverdict]
    exact ⟨trivial, hnext⟩
  | case3 d reply d₁ hask hverdict =>
    obtain ⟨d₁', hask', hnext⟩ := h.ask hask
    rw [askValue, hask']
    simp only [hverdict]
    exact ⟨trivial, hnext.insist name⟩
  | case4 d reply d₁ hask hverdict fuel ih =>
    obtain ⟨d₁', hask', hnext⟩ := h.ask hask
    have hagain : askValue r' name v (fuel + 1) d' = askValue r' name v fuel (d₁'.insist name) := by
      rw [askValue, hask']
      simp only [hverdict]
    rw [hagain]
    exact ih (hnext.insist name)

/-- **The first passes go side by side**, by induction on the variables. -/
theorem collect_alike (n : Nat) (entries : List (String × Variable)) {d : Dialogue σ} {d' : Dialogue τ}
    (h : Alongside r r' d d') :
    (collect (fun _ => n) o r entries d).1 = (collect (fun _ => n) o r' entries d').1 ∧
      Alongside r r' (collect (fun _ => n) o r entries d).2
        (collect (fun _ => n) o r' entries d').2 := by
  induction entries generalizing d d' with
  | nil => exact ⟨rfl, h⟩
  | cons entry rest ih =>
    obtain ⟨name, v⟩ := entry
    cases hplain : override? o name with
    | some value =>
      obtain ⟨hresult, hrest⟩ := ih h
      rw [collect_overridden hplain, collect_overridden hplain, hresult]
      exact ⟨rfl, hrest⟩
    | none =>
      by_cases hsource : v.source?.isSome = true
      · rw [collect_derived hplain hsource, collect_derived hplain hsource]
        exact ih h
      obtain ⟨hresult, hnext⟩ := askValue_alike name v n h
      generalize hasked : askValue r name v n d = asked at hresult hnext
      generalize hasked' : askValue r' name v n d' = asked' at hresult hnext
      obtain ⟨result, d₁⟩ := asked
      obtain ⟨result', d₁'⟩ := asked'
      obtain rfl : result = result' := hresult
      cases result with
      | error stop =>
        rw [collect_stopped hplain hsource hasked, collect_stopped hplain hsource hasked']
        exact ⟨rfl, hnext⟩
      | ok value =>
        obtain ⟨hrestResult, hrest⟩ := ih hnext
        rw [collect_entered hplain hsource hasked, collect_entered hplain hsource hasked', hrestResult]
        exact ⟨rfl, hrest⟩

/-- **Respondents that answer alike lead to one result**, and to the same events. -/
theorem resolveWithin_alike (h : AnswersAlike r state r' state') (n : Nat) :
    resolveWithin (fun _ => n) o r state declared = resolveWithin (fun _ => n) o r' state' declared := by
  refine resolveWithin_of_collect fun _ => ?_
  have halong := collect_alike (o := o) n (sortByName declared.entries) h.alongside
  exact ⟨halong.1, halong.2.events_eq⟩

/-- What one resolution comes to the other one comes to, too. -/
theorem ComesTo.of_perm (hperm : declared.entries.Perm declared'.entries)
    (halike : AnswersAlike r state r' state') (h : ComesTo o r state declared res) :
    ComesTo o r' state' declared' res := by
  obtain ⟨patience, hres⟩ := h
  obtain ⟨n, hn⟩ := exists_constant hres
  exact ⟨fun _ => n,
    (resolveWithin_of_perm hperm _).symm.trans ((resolveWithin_alike halike n).symm.trans hn)⟩

/-- **The order of the declarations does not matter.**  For the same variables in another order, and a
    respondent that answers alike, a resolution comes to an outcome if it did before, and it is the same
    one: what was asked and shown, and the values or the error.  Even an asking that never ends goes the
    same way: however long the respondent is waited for, the same could be seen until then. -/
theorem comesTo_iff_of_perm (hperm : declared.entries.Perm declared'.entries)
    (halike : AnswersAlike r state r' state') :
    (∀ res, ComesTo o r state declared res ↔ ComesTo o r' state' declared' res) ∧
      (∀ res res', ComesTo o r state declared res → ComesTo o r' state' declared' res' → res = res') ∧
      ∀ n, (collect (fun _ => n) o r (sortByName declared.entries) { state }).2.events =
        (collect (fun _ => n) o r' (sortByName declared'.entries) { state := state' }).2.events := by
  refine ⟨fun res => ⟨?_, ?_⟩, fun res res' h h' => ?_, fun n => ?_⟩
  · exact fun h => h.of_perm hperm halike
  · exact fun h => h.of_perm hperm.symm halike.symm
  · exact (h.of_perm hperm halike).unique h'
  · rw [← sortByName_of_perm declared.nodup hperm]
    exact (collect_alike n _ halike.alongside).2.events_eq

/-- The chain of `slugChain`, declared in the order of the sources. -/
def slugChainForwards : Variables :=
  .ofList [
    ("NAME", { required := true }),
    ("SLUG", { required := true, derivedFrom := some "NAME", transform := some "slug-snake" }),
    ("ALPHA", { required := true, derivedFrom := some "SLUG", transform := some "upper" })]

/-- Both orders of the chain come to the same values. -/
theorem comesTo_slugChainForwards :
    slugChain.entries.Perm slugChainForwards.entries ∧ ∃ res,
      res.result = .ok (.ofList [("ALPHA", "MY_APP"), ("NAME", "My App"), ("SLUG", "my_app")]) ∧
      ComesTo (fun _ => none) Prompter.scripted.toRespondent [.text " ", .text " My App"]
        slugChainForwards res := by
  have hperm : slugChain.entries.Perm slugChainForwards.entries := by decide +kernel
  obtain ⟨hiff, -, -⟩ := comesTo_iff_of_perm (o := fun _ => none) hperm
    (AnswersAlike.refl Prompter.scripted.toRespondent [.text " ", .text " My App"])
  refine ⟨hperm, _, ?_, (hiff _).mp (comesTo_iff_eq_resolve.mpr rfl)⟩
  decide +kernel

end Stencil.Resolution
