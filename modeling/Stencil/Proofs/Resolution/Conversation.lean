/-
  What is entered for the variables.

  The first pass of a resolution asks a respondent.  This file says what was asked and answered, and
  what the answers come to, without speaking of the loops that ask.

  1. **The exchange.** `Conversation r s exchanges s'` is a run of the respondent `r` from the state
     `s` to `s'`: the questions put to it, each with the answer that it gives at that point.
  2. **The reading.** `Answered name v replies outcome` says what the answers to the questions for
     one variable come to.  Blank texts are passed over as long as a value is required and there is
     no default; the first other answer decides.
  3. **The pass.** A variable that stands on its own and has no override is asked for, and no other
     (`askValue_spec` for one variable, `collect_spec` for all).  Names differ, so the answers to
     the questions with a name are those of one variable.
-/
import Stencil.Resolution

namespace Stencil.Resolution

/-! ## Exchanges with a respondent -/

/-- A run of a respondent: the questions put to it and its answers. -/
inductive Conversation {σ : Type} (r : Respondent σ) : σ → List (Question × Reply) → σ → Prop where
  | nil (s : σ) : Conversation r s [] s
  | cons {q : Question} {reply : Reply} {s s' s'' : σ} {rest : List (Question × Reply)}
      (hask : r.ask q s = (reply, s')) (hrest : Conversation r s' rest s'') :
      Conversation r s ((q, reply) :: rest) s''

/-- Two conversations, the second going on where the first ended, are one. -/
theorem Conversation.append {σ : Type} {r : Respondent σ} {s s' s'' : σ}
    {first second : List (Question × Reply)} (hfirst : Conversation r s first s')
    (hsecond : Conversation r s' second s'') : Conversation r s (first ++ second) s'' := by
  induction hfirst with
  | nil => exact hsecond
  | cons hask _ ih => exact .cons hask (ih hsecond)

/-- A respondent gives the same answers to the same questions. -/
theorem Conversation.unique {σ : Type} {r : Respondent σ} {s t t' : σ}
    {first second : List (Question × Reply)} (h : Conversation r s first t)
    (h' : Conversation r s second t') (hquestions : first.map Prod.fst = second.map Prod.fst) :
    first = second := by
  induction h generalizing second with
  | nil => exact (List.map_eq_nil_iff.mp hquestions.symm).symm
  | cons hask _ ih =>
    cases h' with
    | nil => simp at hquestions
    | cons hask' hrest' =>
      rw [List.map_cons, List.map_cons, List.cons.injEq] at hquestions
      obtain ⟨rfl, htail⟩ := hquestions
      obtain ⟨rfl, rfl⟩ := Prod.mk.inj (hask.symm.trans hask')
      rw [ih hrest' htail]

/-- The answers to the questions for a name. -/
def answersTo (name : String) (exchanges : List (Question × Reply)) : List Reply :=
  (exchanges.filter fun x => x.1.name = name).map Prod.snd

/-- The answers to a question stand in the order of the exchanges. -/
@[simp] theorem answersTo_append (name : String) (first second : List (Question × Reply)) :
    answersTo name (first ++ second) = answersTo name first ++ answersTo name second := by
  simp [answersTo]

/-- What is never asked has no answers. -/
theorem answersTo_eq_nil {name : String} {exchanges : List (Question × Reply)}
    (h : ∀ x ∈ exchanges, x.1.name ≠ name) : answersTo name exchanges = [] := by
  simpa [answersTo] using h

/-- Where nothing else is asked, all replies are answers to it. -/
theorem answersTo_eq_map {name : String} {exchanges : List (Question × Reply)}
    (h : ∀ x ∈ exchanges, x.1.name = name) : answersTo name exchanges = exchanges.map Prod.snd := by
  rw [answersTo, List.filter_eq_self.mpr (by simpa using h)]

theorem mem_of_mem_answersTo {name : String} {exchanges : List (Question × Reply)} {reply : Reply}
    (h : reply ∈ answersTo name exchanges) : reply ∈ exchanges.map Prod.snd := by
  obtain ⟨x, hx, rfl⟩ := List.mem_map.mp h
  exact List.mem_map_of_mem (List.mem_filter.mp hx).1

/-! ## What the answers come to -/

/-- What the answers to the questions for a variable come to. -/
inductive Answered (name : String) (v : Variable) : List Reply → Except Error String → Prop where
  /-- The first text that is not blank counts, without the white space around it. -/
  | entered {t : String} (ht : isBlank t = false) : Answered name v [.text t] (.ok (trim t))
  /-- A blank text stands for the default. -/
  | default {t d : String} (ht : isBlank t = true) (hd : v.default? = some d) :
      Answered name v [.text t] (.ok d)
  /-- A blank text leaves an optional variable without default blank. -/
  | left {t : String} (ht : isBlank t = true) (hd : v.default? = none) (hv : v.required = false) :
      Answered name v [.text t] (.ok "")
  /-- A blank text is passed over when a value is required. -/
  | again {t : String} {replies : List Reply} {outcome : Except Error String}
      (ht : isBlank t = true) (hd : v.default? = none) (hv : v.required = true)
      (hreplies : Answered name v replies outcome) : Answered name v (.text t :: replies) outcome
  /-- Without input the default counts. -/
  | closedDefault {d : String} (hd : v.default? = some d) : Answered name v [.closed] (.ok d)
  /-- Without input an optional variable without default stays blank. -/
  | closedBlank (hd : v.default? = none) (hv : v.required = false) :
      Answered name v [.closed] (.ok "")
  /-- Without input a required variable without default has no value. -/
  | closedMissing (hd : v.default? = none) (hv : v.required = true) :
      Answered name v [.closed] (.error (.missingValue name))
  /-- A failure of the respondent ends everything. -/
  | failed {e : Error} : Answered name v [.failed e] (.error e)

/-- **What is made of some replies is one value or one error**, by induction on them. -/
theorem Answered.unique {name : String} {v : Variable} {replies : List Reply}
    {outcome outcome' : Except Error String} (h : Answered name v replies outcome)
    (h' : Answered name v replies outcome') : outcome = outcome' := by
  induction h with
  | again ht hd hv hreplies ih =>
    cases h' with
    | again _ _ _ hreplies' => exact ih hreplies'
    | entered ht' => cases hreplies
    | default ht' hd' => cases hreplies
    | left ht' hd' hv' => cases hreplies
  | entered ht => cases h' <;> simp_all
  | default ht hd => cases h' <;> simp_all
  | left ht hd hv => cases h' <;> simp_all
  | closedDefault hd => cases h' <;> simp_all
  | closedBlank hd hv => cases h' <;> simp_all
  | closedMissing hd hv => cases h' <;> simp_all
  | failed => cases h'; rfl

/-- A failure that is not that of a value which is lacking comes from the respondent. -/
theorem Answered.mem_of_error {name : String} {v : Variable} {replies : List Reply} {e : Error}
    (h : Answered name v replies (.error e)) :
    Reply.failed e ∈ replies ∨ e = .missingValue name ∧ v.default? = none ∧ v.required = true := by
  generalize houtcome : Except.error e = outcome at h
  induction h with
  | again _ _ _ _ ih => exact (ih houtcome).imp_left (List.mem_cons_of_mem _)
  | closedMissing hd hv =>
    obtain rfl := Except.error.inj houtcome
    exact .inr ⟨rfl, hd, hv⟩
  | failed =>
    obtain rfl := Except.error.inj houtcome
    exact .inl (List.mem_singleton_self _)
  | entered => cases houtcome
  | default => cases houtcome
  | left => cases houtcome
  | closedDefault => cases houtcome
  | closedBlank => cases houtcome

/-- What the fallback of a variable comes to. -/
theorem fallback_eq_ok_iff {name : String} {v : Variable} {x : String} :
    fallback name v = .ok x ↔
      v.default? = some x ∨ v.default? = none ∧ v.required = false ∧ x = "" := by
  rw [fallback]
  cases v.default? with
  | some d => simp
  | none => cases v.required <;> simp [eq_comm]

/-- Without a reply that counts, only a required variable without a default has no value. -/
theorem fallback_eq_error_iff {name : String} {v : Variable} {e : Error} :
    fallback name v = .error e ↔
      v.default? = none ∧ v.required = true ∧ e = .missingValue name := by
  rw [fallback]
  cases v.default? with
  | some d => simp
  | none => cases v.required <;> simp [eq_comm]

/-- An answer that decides. -/
theorem answered_of_verdict {name : String} {v : Variable} {reply : Reply} :
    (∀ x, verdict name v reply = .value x → Answered name v [reply] (.ok x)) ∧
      (∀ e, verdict name v reply = .failed e → Answered name v [reply] (.error e)) := by
  cases reply with
  | failed e =>
    refine ⟨fun x h => by simp [verdict] at h, fun e' h => ?_⟩
    obtain rfl : e = e' := by simpa [verdict] using h
    exact .failed
  | closed =>
    constructor
    · intro x h
      simp only [verdict] at h
      split at h
      · rename_i value hfallback
        obtain rfl : value = x := by simpa using h
        rcases fallback_eq_ok_iff.mp hfallback with hd | ⟨hd, hv, rfl⟩
        · exact .closedDefault hd
        · exact .closedBlank hd hv
      · simp at h
    · intro e h
      simp only [verdict] at h
      split at h
      · simp at h
      · rename_i e' hfallback
        obtain rfl : e' = e := by simpa using h
        obtain ⟨hd, hv, rfl⟩ := fallback_eq_error_iff.mp hfallback
        exact .closedMissing hd hv
  | text t =>
    cases ht : isBlank t with
    | false =>
      refine ⟨fun x h => ?_, fun e h => by simp [verdict, ht] at h⟩
      obtain rfl : trim t = x := by simpa [verdict, ht] using h
      exact .entered ht
    | true =>
      cases hd : v.default? with
      | some d =>
        refine ⟨fun x h => ?_, fun e h => by simp [verdict, ht, hd] at h⟩
        obtain rfl : d = x := by simpa [verdict, ht, hd] using h
        exact .default ht hd
      | none =>
        cases hv : v.required with
        | true => exact ⟨fun x h => by simp [verdict, ht, hd, hv] at h,
            fun e h => by simp [verdict, ht, hd, hv] at h⟩
        | false =>
          refine ⟨fun x h => ?_, fun e h => by simp [verdict, ht, hd, hv] at h⟩
          obtain rfl : "" = x := by simpa [verdict, ht, hd, hv] using h
          exact .left ht hd hv

/-! ## The pass over the variables -/

/-- The outcome of an asking, unless it was broken off. -/
def outcome? {α : Type} : Except Stop α → Option (Except Error α)
  | .ok x => some (.ok x)
  | .error (.failed e) => some (.error e)
  | .error .unfinished => none

/-- A dialogue goes from `d` to `d'` by some exchanges. -/
structure Talk {σ : Type} (r : Respondent σ) (d d' : Dialogue σ) (exchanges : List (Question × Reply)) :
    Prop where
  conversation : Conversation r d.state exchanges d'.state
  questions : Event.questions d'.events = Event.questions d.events ++ exchanges.map Prod.fst

namespace Talk

variable {σ : Type} {r : Respondent σ} {d d' d'' : Dialogue σ}

/-- Nothing said leaves a dialogue as it is. -/
theorem refl (d : Dialogue σ) : Talk r d d [] := ⟨.nil _, by simp⟩

/-- What is said goes on. -/
theorem append {first second : List (Question × Reply)} (hfirst : Talk r d d' first)
    (hsecond : Talk r d' d'' second) : Talk r d d'' (first ++ second) where
  conversation := hfirst.conversation.append hsecond.conversation
  questions := by rw [hsecond.questions, hfirst.questions, List.map_append, List.append_assoc]

/-- One question with its reply. -/
theorem ask {q : Question} {reply : Reply} (h : d.ask r q = (reply, d')) :
    Talk r d d' [(q, reply)] := by
  obtain ⟨rfl, rfl⟩ := Prod.mk.inj h
  exact ⟨.cons rfl (.nil _), by simp [Event.questions]⟩

/-- A warning that a value is wanted is no question. -/
theorem insist {exchanges : List (Question × Reply)} (h : Talk r d d' exchanges) (name : String) :
    Talk r d (d'.insist name) exchanges where
  conversation := h.conversation
  questions := by
    have hwarning : Event.questions (d'.insist name).events = Event.questions d'.events := by
      simp [Dialogue.insist, Event.questions]
    rw [hwarning, h.questions]

end Talk

/-- Asking for a variable puts its question until an answer decides. -/
theorem askValue_spec {σ : Type} (r : Respondent σ) (name : String) (v : Variable) (fuel : Nat)
    (d : Dialogue σ) : ∃ exchanges, Talk r d (askValue r name v fuel d).2 exchanges ∧
      (∀ x ∈ exchanges, x.1 = question name v) ∧
      ∀ outcome, outcome? (askValue r name v fuel d).1 = some outcome →
        Answered name v (exchanges.map Prod.snd) outcome := by
  fun_induction askValue r name v fuel d with
  | case1 fuel d reply d' hask x hverdict =>
    refine ⟨_, .ask hask, by simp, fun outcome houtcome => ?_⟩
    obtain rfl : .ok x = outcome := by simpa [outcome?] using houtcome
    exact answered_of_verdict.1 x hverdict
  | case2 fuel d reply d' hask e hverdict =>
    refine ⟨_, .ask hask, by simp, fun outcome houtcome => ?_⟩
    obtain rfl : .error e = outcome := by simpa [outcome?] using houtcome
    exact answered_of_verdict.2 e hverdict
  | case3 d reply d' hask hverdict =>
    refine ⟨_, (Talk.ask hask).insist name, by simp, fun outcome houtcome => ?_⟩
    simp [outcome?] at houtcome
  | case4 d reply d' hask hverdict fuel ih =>
    -- asked again
    obtain ⟨exchanges, htalk, hquestion, hanswered⟩ := ih
    obtain ⟨t, rfl, ht, hd, hv⟩ := verdict_eq_again hverdict
    refine ⟨_, ((Talk.ask hask).insist name).append htalk, by simpa using hquestion, ?_⟩
    exact fun outcome houtcome => .again ht hd hv (hanswered outcome houtcome)

/-- Is the value of the variable found in the first pass? -/
def isGiven (o : Overrides) (entry : String × Variable) : Bool :=
  (override? o entry.1).isSome || entry.2.source?.isNone

/-- The value of a variable that the first pass finds: its override, or what is entered for it. -/
def Given (o : Overrides) (exchanges : List (Question × Reply)) (name : String) (v : Variable)
    (x : String) : Prop :=
  override? o name = some x ∨
    override? o name = none ∧ v.source? = none ∧
      Answered name v (answersTo name exchanges) (.ok x)

theorem Given.unique {o : Overrides} {exchanges : List (Question × Reply)} {name : String}
    {v : Variable} {x y : String} (hx : Given o exchanges name v x)
    (hy : Given o exchanges name v y) : x = y := by
  rcases hx with hx | ⟨hnone, -, hx⟩
  · rcases hy with hy | ⟨hnone, -, -⟩
    · exact Option.some.inj (hx.symm.trans hy)
    · simp [hnone] at hx
  · rcases hy with hy | ⟨-, -, hy⟩
    · simp [hnone] at hy
    · exact Except.ok.inj (hx.unique hy)

theorem Given.isGiven {o : Overrides} {exchanges : List (Question × Reply)} {name : String}
    {v : Variable} {x : String} (h : Given o exchanges name v x) : isGiven o (name, v) = true := by
  rcases h with h | ⟨-, hsource, -⟩
  · simp [Resolution.isGiven, h]
  · simp [Resolution.isGiven, hsource]

/-- Only the answers to the questions with its name matter to a variable. -/
theorem Given.congr {o : Overrides} {exchanges exchanges' : List (Question × Reply)} {name : String}
    {v : Variable} {x : String} (h : Given o exchanges name v x)
    (hanswers : answersTo name exchanges' = answersTo name exchanges) :
    Given o exchanges' name v x := by
  rw [Given, hanswers]
  exact h

/-- What a pass over some entries does: by some exchanges about variables among them it comes to an
    outcome. -/
structure Pass {σ : Type} (o : Overrides) (r : Respondent σ) (entries : List (String × Variable))
    (d : Dialogue σ) (pass : Except Stop (List (String × String)) × Dialogue σ)
    (exchanges : List (Question × Reply)) : Prop where
  talk : Talk r d pass.2 exchanges
  asked : ∀ x ∈ exchanges, x.1.name ∈ entries.map Prod.fst
  names : ∀ values, pass.1 = .ok values →
    values.map Prod.fst = (entries.filter (isGiven o)).map Prod.fst
  given : ∀ values, pass.1 = .ok values → ∀ name x, (name, x) ∈ values →
    ∃ v, (name, v) ∈ entries ∧ Given o exchanges name v x
  failed : ∀ e, pass.1 = .error (.failed e) → ∃ name v, (name, v) ∈ entries ∧
    override? o name = none ∧ v.source? = none ∧ Answered name v (answersTo name exchanges) (.error e)

namespace Pass

variable {σ : Type} {o : Overrides} {r : Respondent σ} {name : String} {v : Variable}
  {rest : List (String × Variable)} {d d' d'' : Dialogue σ} {first second : List (Question × Reply)}

/-- The answers of a pass over other variables are none for this one. -/
theorem answersTo_eq_nil {pass : Except Stop (List (String × String)) × Dialogue σ}
    (h : Pass o r rest d pass second) (hnew : name ∉ rest.map Prod.fst) :
    answersTo name second = [] :=
  Resolution.answersTo_eq_nil fun x hx hname => hnew (hname ▸ h.asked x hx)

/-- A variable that is derived is passed over. -/
theorem skip {pass : Except Stop (List (String × String)) × Dialogue σ}
    (h : Pass o r rest d pass second) (hgiven : isGiven o (name, v) = false) :
    Pass o r ((name, v) :: rest) d pass second where
  talk := h.talk
  asked x hx := List.mem_cons_of_mem _ (h.asked x hx)
  names values hvalues := by
    rw [h.names values hvalues, List.filter_cons_of_neg (by simp [hgiven])]
  given values hvalues n x hx := by
    obtain ⟨w, hw, hgiven⟩ := h.given values hvalues n x hx
    exact ⟨w, List.mem_cons_of_mem _ hw, hgiven⟩
  failed e he := by
    obtain ⟨n, w, hw, hnone, hsource, hanswered⟩ := h.failed e he
    exact ⟨n, w, List.mem_cons_of_mem _ hw, hnone, hsource, hanswered⟩

/-- The exchanges for one variable do not concern those that follow it. -/
theorem answersTo_append_of_mem (hquestion : ∀ x ∈ first, x.1 = question name v)
    (hnew : name ∉ rest.map Prod.fst) {n : String} {w : Variable} (hw : (n, w) ∈ rest) :
    answersTo n (first ++ second) = answersTo n second := by
  have hnil : answersTo n first = [] := by
    refine Resolution.answersTo_eq_nil fun x hx hname => hnew ?_
    rw [hquestion x hx, name_question] at hname
    exact hname ▸ List.mem_map_of_mem hw
  rw [answersTo_append, hnil, List.nil_append]

/-- The values after the first are those of a pass that succeeds. -/
theorem exists_tail {x : String} {result : Except Stop (List (String × String))}
    {values : List (String × String)} (h : result.map ((name, x) :: ·) = .ok values) :
    ∃ tail, result = .ok tail ∧ values = (name, x) :: tail := by
  cases result with
  | error stop => cases h
  | ok tail => exact ⟨tail, rfl, (Except.ok.inj h).symm⟩

/-- A variable with a value, and then the others. -/
theorem cons {x : String} {result : Except Stop (List (String × String))}
    (h : Pass o r rest d' (result, d'') second) (hnew : name ∉ rest.map Prod.fst)
    (htalk : Talk r d d' first) (hquestion : ∀ x ∈ first, x.1 = question name v)
    (hgiven : Given o first name v x) :
    Pass o r ((name, v) :: rest) d (result.map ((name, x) :: ·), d'') (first ++ second) where
  talk := htalk.append h.talk
  asked y hy := by
    rcases List.mem_append.mp hy with hy | hy
    · exact hquestion y hy ▸ List.mem_cons_self ..
    · exact List.mem_cons_of_mem _ (h.asked y hy)
  names values hvalues := by
    obtain ⟨tail, hresult, rfl⟩ := exists_tail hvalues
    rw [List.filter_cons_of_pos hgiven.isGiven, List.map_cons, List.map_cons, h.names tail hresult]
  given values hvalues n y hy := by
    obtain ⟨tail, hresult, rfl⟩ := exists_tail hvalues
    rcases List.mem_cons.mp hy with heq | hy
    · obtain ⟨rfl, rfl⟩ := Prod.mk.inj heq
      refine ⟨v, List.mem_cons_self .., hgiven.congr ?_⟩
      rw [answersTo_append, h.answersTo_eq_nil hnew, List.append_nil]
    · obtain ⟨w, hw, hgiven'⟩ := h.given tail hresult n y hy
      exact ⟨w, List.mem_cons_of_mem _ hw,
        hgiven'.congr (answersTo_append_of_mem hquestion hnew hw)⟩
  failed e he := by
    have hfailed : result = .error (.failed e) := by
      cases hresult : result with
      | error stop => simpa [hresult, Except.map] using he
      | ok tail => simp [hresult, Except.map] at he
    obtain ⟨n, w, hw, hnone, hsource, hanswered⟩ := h.failed e hfailed
    refine ⟨n, w, List.mem_cons_of_mem _ hw, hnone, hsource, ?_⟩
    rw [answersTo_append_of_mem hquestion hnew hw]
    exact hanswered

/-- A variable whose asking fails ends the pass. -/
theorem stop {stop : Stop} (hnone : override? o name = none) (hsource : v.source? = none)
    (htalk : Talk r d d' first) (hquestion : ∀ x ∈ first, x.1 = question name v)
    (hanswered : ∀ e, stop = .failed e → Answered name v (first.map Prod.snd) (.error e)) :
    Pass o r ((name, v) :: rest) d (.error stop, d') first where
  talk := htalk
  asked x hx := hquestion x hx ▸ List.mem_cons_self ..
  names values hvalues := by simp at hvalues
  given values hvalues := by simp at hvalues
  failed e he := by
    refine ⟨name, v, List.mem_cons_self .., hnone, hsource, ?_⟩
    rw [answersTo_eq_map fun x hx => by rw [hquestion x hx]; rfl]
    exact hanswered e (by simpa using he)

end Pass

/-- **The first pass.**  By induction on the entries: each one is overridden, derived and thus left for
    later, or asked for. -/
theorem collect_spec {σ : Type} (patience : σ → Nat) (o : Overrides) (r : Respondent σ)
    (entries : List (String × Variable)) (d : Dialogue σ) (hnodup : (entries.map Prod.fst).Nodup) :
    ∃ exchanges, Pass o r entries d (collect patience o r entries d) exchanges := by
  fun_induction collect patience o r entries d with
  | case1 d => exact ⟨[], .refl d, by simp, by simp, by simp, by simp⟩
  | case2 name v rest d value hoverride result d' hrest ih =>
    -- overridden
    obtain ⟨hnew, hrestnodup⟩ := List.nodup_cons.mp hnodup
    obtain ⟨exchanges, hpass⟩ := ih hrestnodup
    rw [hrest] at hpass
    exact ⟨_, hpass.cons hnew (.refl d) (by simp) (.inl hoverride)⟩
  | case3 name v rest d hnone hsource ih =>
    -- derived
    obtain ⟨exchanges, hpass⟩ := ih (List.nodup_cons.mp hnodup).2
    exact ⟨exchanges, hpass.skip (by simpa [isGiven, hnone, Option.isNone_iff_eq_none] using hsource)⟩
  | case4 name v rest d hnone hsource stop d' hasked =>
    -- asked for in vain
    obtain ⟨exchanges, htalk, hquestion, hanswered⟩ := askValue_spec r name v (patience d.state) d
    rw [hasked] at htalk hanswered
    refine ⟨exchanges, .stop hnone (by simpa using hsource) htalk hquestion fun e he => ?_⟩
    exact hanswered (.error e) (by rw [he]; rfl)
  | case5 name v rest d hnone hsource value d' hasked result d'' hrest ih =>
    -- asked for, and entered
    obtain ⟨hnew, hrestnodup⟩ := List.nodup_cons.mp hnodup
    obtain ⟨first, htalk, hquestion, hanswered⟩ := askValue_spec r name v (patience d.state) d
    obtain ⟨second, hpass⟩ := ih hrestnodup
    rw [hasked] at htalk hanswered
    rw [hrest] at hpass
    refine ⟨_, hpass.cons hnew htalk hquestion (.inr ⟨hnone, by simpa using hsource, ?_⟩)⟩
    rw [answersTo_eq_map fun x hx => by rw [hquestion x hx]; rfl]
    exact hanswered (.ok value) rfl

end Stencil.Resolution
