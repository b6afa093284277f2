/-
  Which questions are put, and how many.

  A variable is asked for until an answer decides.  Nothing in that loop counts, so what bounds it has
  to come from the respondent.

  1. **The questions.** A first pass that is not broken off goes through the variables once
     (`Questionnaire`, `collect_questionnaire`).  What is asked in it, in which order, and what is asked
     again, follows by induction on the variables.
  2. **The lines.** An answer that is read from an input takes one line of it, and an answer without
     a line ends the asking for its variable.  So there are at most as many questions as lines and
     variables together (`Conversation.lineCount`, `Questionnaire.countP_isClosed_le`).
  3. **The missing source.** If a source is not declared, nothing is asked at all
     (`exists_isFirstUnknown`).

  `resolve_lines_asksExactly` puts these together.
-/
import Stencil.Proofs.Resolution.Outcome
import Stencil.Proofs.Resolution.Patience

namespace Stencil.Resolution

open Prompter

variable {σ : Type} {patience : σ → Nat} {o : Overrides} {r : Respondent σ} {state : σ}
  {declared : Variables} {res : Resolution} {name : String} {v : Variable}

/-! ## The questions of a pass -/

/-- The questions that a pass over some entries puts, with their answers.  It may have ended before the
    last entry. -/
inductive Questionnaire (o : Overrides) :
    List (String × Variable) → List (Question × Reply) → Prop where
  | ended (entries : List (String × Variable)) : Questionnaire o entries []
  | passed (entry : String × Variable) {rest : List (String × Variable)}
      {exchanges : List (Question × Reply)} (hrest : Questionnaire o rest exchanges) :
      Questionnaire o (entry :: rest) exchanges
  | asked {name : String} {v : Variable} {rest : List (String × Variable)}
      {first second : List (Question × Reply)} {outcome : Except Error String}
      (hplain : override? o name = none) (hsource : v.source? = none)
      (hquestion : ∀ x ∈ first, x.1 = question name v)
      (hanswered : Answered name v (first.map Prod.snd) outcome)
      (hrest : Questionnaire o rest second) :
      Questionnaire o ((name, v) :: rest) (first ++ second)

/-- **A first pass puts the questions of its entries**, unless it is broken off. -/
theorem collect_questionnaire {entries : List (String × Variable)} {d : Dialogue σ}
    (hends : (collect patience o r entries d).1 ≠ .error .unfinished) :
    ∃ exchanges, Talk r d (collect patience o r entries d).2 exchanges ∧
      Questionnaire o entries exchanges := by
  fun_induction collect patience o r entries d with
  | case1 d => exact ⟨[], .refl d, .ended []⟩
  | case2 name v rest d value hoverride result d' hrest ih =>
    rw [hrest] at ih
    obtain ⟨exchanges, htalk, hquestionnaire⟩ := ih (ne_unfinished_of_map hends)
    exact ⟨exchanges, htalk, .passed _ hquestionnaire⟩
  | case3 name v rest d hplain hsource ih =>
    obtain ⟨exchanges, htalk, hquestionnaire⟩ := ih hends
    exact ⟨exchanges, htalk, .passed _ hquestionnaire⟩
  | case4 name v rest d hplain hsource stop d' hasked =>
    obtain ⟨exchanges, htalk, hquestion, hanswered⟩ := askValue_spec r name v (patience d.state) d
    rw [hasked] at htalk hanswered
    cases stop with
    | unfinished => exact absurd rfl hends
    | failed e =>
      have hquestionnaire : Questionnaire o ((name, v) :: rest) (exchanges ++ []) :=
        .asked hplain (by simpa using hsource) hquestion (hanswered (.error e) rfl) (.ended rest)
      rw [List.append_nil] at hquestionnaire
      exact ⟨exchanges, htalk, hquestionnaire⟩
  | case5 name v rest d hplain hsource value d' hasked result d'' hrest ih =>
    obtain ⟨first, htalk, hquestion, hanswered⟩ := askValue_spec r name v (patience d.state) d
    rw [hasked] at htalk hanswered
    rw [hrest] at ih
    obtain ⟨second, hresttalk, hquestionnaire⟩ := ih (ne_unfinished_of_map hends)
    exact ⟨first ++ second, htalk.append hresttalk,
      .asked hplain (by simpa using hsource) hquestion (hanswered (.ok value) rfl) hquestionnaire⟩

/-- The second pass puts no questions. -/
theorem questions_settle (fuel : Nat) (waiting : List (String × Variable))
    (values : List (String × String)) (events : List Event) :
    Event.questions (settle fuel waiting values events).2 = Event.questions events := by
  fun_induction settle fuel waiting values events with
  | case1 => rfl
  | case2 => rfl
  | case3 fuel first others values events entry waiting htaken events' x hx ih =>
    exact ih.trans (questions_deadlock _ _)
  | case4 => exact questions_deadlock _ _

theorem questions_of_resolveWithin (hsources : unknownSource? declared = none)
    (hres : resolveWithin patience o r state declared = some res) :
    Event.questions res.events =
      Event.questions (collect patience o r (sortByName declared.entries) { state }).2.events := by
  rw [resolveWithin, hsources] at hres
  dsimp only at hres
  generalize collect patience o r (sortByName declared.entries) { state } = pass at hres ⊢
  obtain ⟨result, d⟩ := pass
  cases result with
  | ok values =>
    obtain rfl := Option.some.inj hres
    exact questions_settle ..
  | error stop =>
    cases stop with
    | unfinished => cases hres
    | failed e =>
      obtain rfl := Option.some.inj hres
      rfl

/-- The questions of a whole resolution.  If it succeeds, every variable that was due has its answer. -/
theorem resolveWithin_questionnaire
    (hres : resolveWithin patience o r state declared = some res) :
    ∃ exchanges last, Conversation r state exchanges last ∧
      Event.questions res.events = exchanges.map Prod.fst ∧
      Questionnaire o (sortByName declared.entries) exchanges ∧
      ∀ values, res.result = .ok values → Entered o declared exchanges := by
  cases hunknown : unknownSource? declared with
  | some pair =>
    rw [resolveWithin, hunknown] at hres
    obtain rfl := Option.some.inj hres
    exact ⟨[], state, .nil state, rfl, .ended _, fun values hvalues => by cases hvalues⟩
  | none =>
    obtain ⟨exchanges, htalk, hquestionnaire⟩ :=
      collect_questionnaire (collect_ne_unfinished_of_resolveWithin hres hunknown)
    have hquestions : Event.questions res.events = exchanges.map Prod.fst :=
      (questions_of_resolveWithin hunknown hres).trans htalk.questions
    refine ⟨exchanges, _, htalk.conversation, hquestions, hquestionnaire, fun values hvalues => ?_⟩
    -- the exchanges are the ones that the outcome speaks of, since the questions are the same
    obtain ⟨exchanges', last, hconversation, hquestions', houtcome⟩ :=
      resolveWithin_spec (unknownSource?_eq_none_iff.mp hunknown) hres
    obtain rfl := hconversation.unique htalk.conversation (hquestions'.symm.trans hquestions)
    rw [hvalues] at houtcome
    cases houtcome with
    | found hentered => exact hentered

/-- Before its last answer a variable has blank ones only, and it needs a value. -/
theorem Answered.pairwise {replies : List Reply} {outcome : Except Error String}
    (h : Answered name v replies outcome) :
    replies.Pairwise fun reply _ => v.required = true ∧ v.default? = none ∧
      ∃ t, reply = .text t ∧ isBlank t = true := by
  induction h with
  | again ht hd hv hreplies ih =>
    exact List.pairwise_cons.mpr ⟨fun reply hreply => ⟨hv, hd, _, rfl, ht⟩, ih⟩
  | _ => exact List.pairwise_singleton ..

/-- What comes to something has been asked. -/
theorem Answered.exists_question {exchanges : List (Question × Reply)} {outcome : Except Error String}
    (h : Answered name v (answersTo name exchanges) outcome) : ∃ x ∈ exchanges, x.1.name = name := by
  by_contra hnone
  have hnil : answersTo name exchanges = [] :=
    answersTo_eq_nil fun x hx hname => hnone ⟨x, hx, hname⟩
  rw [hnil] at h
  cases h

/-- Was there no line for an answer? -/
def isClosed : Reply → Bool
  | .closed => true
  | _ => false

/-- A variable is not asked for again when there was no line. -/
theorem Answered.countP_isClosed_le {replies : List Reply} {outcome : Except Error String}
    (h : Answered name v replies outcome) : replies.countP isClosed ≤ 1 := by
  induction h with
  | again ht hd hv hreplies ih => exact ih
  | _ => exact List.countP_le_length

namespace Questionnaire

variable {entries : List (String × Variable)} {exchanges : List (Question × Reply)}

/-- Each question is that of an entry that has no override and no source. -/
theorem due (h : Questionnaire o entries exchanges) {x : Question × Reply} (hx : x ∈ exchanges) :
    ∃ v, (x.1.name, v) ∈ entries ∧ x.1 = question x.1.name v ∧ override? o x.1.name = none ∧
      v.source? = none := by
  induction h with
  | ended => cases hx
  | passed entry hrest ih =>
    obtain ⟨v, hv, hdue⟩ := ih hx
    exact ⟨v, List.mem_cons_of_mem _ hv, hdue⟩
  | asked hplain hsource hquestion hanswered hrest ih =>
    rcases List.mem_append.mp hx with hx | hx
    · rw [hquestion x hx]
      exact ⟨_, List.mem_cons_self .., rfl, hplain, hsource⟩
    · obtain ⟨v, hv, hdue⟩ := ih hx
      exact ⟨v, List.mem_cons_of_mem _ hv, hdue⟩

/-- What holds of the question of an entry and of those of all later entries. -/
theorem forall_of_mem {name : String} {v : Variable} {rest : List (String × Variable)}
    {first second : List (Question × Reply)} {R : String → String → Prop}
    (hquestion : ∀ x ∈ first, x.1 = question name v) (hrest : Questionnaire o rest second)
    (hR : ∀ entry ∈ rest, R name entry.1) :
    ∀ x ∈ first, ∀ y ∈ second, R x.1.name y.1.name := by
  intro x hx y hy
  obtain ⟨w, hw, -⟩ := hrest.due hy
  rw [hquestion x hx]
  exact hR _ hw

/-- The questions come in the order of the entries. -/
theorem ordered (h : Questionnaire o entries exchanges)
    (hsorted : entries.Pairwise fun a b => nameLe a.1 b.1 = true) :
    exchanges.Pairwise fun x y => nameLe x.1.name y.1.name = true := by
  induction h with
  | ended => exact .nil
  | passed entry hrest ih => exact ih (List.pairwise_cons.mp hsorted).2
  | asked hplain hsource hquestion hanswered hrest ih =>
    obtain ⟨hname, hsorted⟩ := List.pairwise_cons.mp hsorted
    refine List.pairwise_append.mpr ⟨?_, ih hsorted, ?_⟩
    · refine List.pairwise_of_forall_mem_list fun x hx y hy => ?_
      rw [hquestion x hx, hquestion y hy]
      exact nameLe_refl _
    · exact forall_of_mem (R := fun a b => nameLe a b = true) hquestion hrest hname

/-- A name is asked for again only behind a blank answer, where a value is required. -/
theorem again (h : Questionnaire o entries exchanges) (hnodup : (entries.map Prod.fst).Nodup) :
    exchanges.Pairwise fun x y => x.1.name = y.1.name → ∃ v, (x.1.name, v) ∈ entries ∧
      v.required = true ∧ v.default? = none ∧ ∃ t, x.2 = .text t ∧ isBlank t = true := by
  induction h with
  | ended => exact .nil
  | passed entry hrest ih =>
    refine (ih (List.nodup_cons.mp hnodup).2).imp fun hxy hname => ?_
    obtain ⟨v, hv, hagain⟩ := hxy hname
    exact ⟨v, List.mem_cons_of_mem _ hv, hagain⟩
  | @asked name v rest first second outcome hplain hsource hquestion hanswered hrest ih =>
    obtain ⟨hnew, hnodup⟩ := List.nodup_cons.mp hnodup
    refine List.pairwise_append.mpr ⟨?_, ?_, ?_⟩
    · refine (List.pairwise_map.mp hanswered.pairwise).imp_of_mem fun {x y} hx hy hxy hname => ?_
      rw [hquestion x hx]
      exact ⟨v, List.mem_cons_self .., hxy⟩
    · refine (ih hnodup).imp fun hxy hname => ?_
      obtain ⟨v, hv, hagain⟩ := hxy hname
      exact ⟨v, List.mem_cons_of_mem _ hv, hagain⟩
    · -- later entries have other names
      intro x hx y hy hname
      refine absurd hname (forall_of_mem (R := fun a b => a ≠ b) hquestion hrest ?_ x hx y hy)
      intro entry hentry heq
      have hmem : entry.1 ∈ rest.map Prod.fst := List.mem_map_of_mem hentry
      rw [← heq] at hmem
      exact hnew hmem

/-- Each entry is asked for at most once when there was no line. -/
theorem countP_isClosed_le (h : Questionnaire o entries exchanges) :
    exchanges.countP (fun x => isClosed x.2) ≤ entries.length := by
  induction h with
  | ended => exact Nat.zero_le _
  | passed entry hrest ih => exact Nat.le_succ_of_le ih
  | asked hplain hsource hquestion hanswered hrest ih =>
    have hone := hanswered.countP_isClosed_le
    rw [List.countP_map] at hone
    rw [List.countP_append, List.length_cons, Nat.add_comm]
    exact Nat.add_le_add ih hone

end Questionnaire

/-! ## The lines of an input -/

/-- The number of lines: each line feed ends one, and bytes behind the last one are one more. -/
def lineCount (input : Bytes) : Nat :=
  input.count 0x0A + if input = [] ∨ input.getLast? = some 0x0A then 0 else 1

example : lineCount (Bytes.ofString "My App\n\n1.0") = 3 := by decide

theorem lineCount_cons_cons (b c : UInt8) (bs : Bytes) :
    lineCount (b :: c :: bs) = lineCount (c :: bs) + if b = 0x0A then 1 else 0 := by
  rw [lineCount, lineCount, List.getLast?_cons_cons, List.count_cons]
  simp only [reduceCtorEq, false_or, beq_iff_eq]
  omega

/-- To cut off a line leaves one less. -/
theorem lineCount_cutLine (b : UInt8) (bs : Bytes) :
    lineCount (cutLine (b :: bs)).2 + 1 = lineCount (b :: bs) := by
  induction bs generalizing b with
  | nil =>
    by_cases hb : b = 0x0A
    · simp [cutLine, lineCount, hb]
    · simp [cutLine, lineCount, hb]
  | cons c bs ih =>
    rw [lineCount_cons_cons]
    by_cases hb : b = 0x0A
    · simp [cutLine, hb]
    · have hcut : (cutLine (b :: c :: bs)).2 = (cutLine (c :: bs)).2 := by
        rw [cutLine, if_neg hb]
      rw [hcut, ih, if_neg hb, Nat.add_zero]

/-- An answer takes one line, unless there is none. -/
theorem lineCount_readLine {q : Question} {input rest : Bytes} {reply : Reply}
    (h : readLine q input = (reply, rest)) :
    lineCount rest + (if isClosed reply then 0 else 1) = lineCount input := by
  cases input with
  | nil =>
    obtain ⟨rfl, rfl⟩ := Prod.mk.inj h
    rfl
  | cons b bs =>
    have hcut := lineCount_cutLine b bs
    rw [readLine] at h
    generalize cutLine (b :: bs) = cut at h hcut
    obtain ⟨line, behind⟩ := cut
    dsimp only at h hcut
    cases hline : Bytes.toString? line with
    | some text =>
      rw [hline] at h
      obtain ⟨rfl, rfl⟩ := Prod.mk.inj h
      exact hcut
    | none =>
      rw [hline] at h
      obtain ⟨rfl, rfl⟩ := Prod.mk.inj h
      exact hcut

/-- **The lines that a conversation takes**, by induction on the exchanges. -/
theorem Conversation.lineCount {input rest : Bytes} {exchanges : List (Question × Reply)}
    (h : Conversation Prompter.lines.toRespondent input exchanges rest) :
    lineCount rest + exchanges.countP (fun x => !isClosed x.2) = lineCount input := by
  induction h with
  | nil => rfl
  | @cons q reply input input' rest exchanges hask hrest ih =>
    rw [← lineCount_readLine (q := q) hask, ← ih, List.countP_cons, Nat.add_assoc]
    cases reply with
    | _ => rfl

/-- The prompter that reads lines, with the number of lines as its bound. -/
def countedLines : Prompter Bytes where
  toRespondent := Prompter.lines.toRespondent
  blanks := lineCount
  blanks_lt := by
    intro q s t s' hread _
    have hone := lineCount_readLine (q := q) hread
    exact Nat.lt_of_lt_of_eq (Nat.lt_succ_self _) hone

/-- To be waited for as often as there are lines is enough. -/
theorem resolveWithin_lines {input : Bytes} {patience : Bytes → Nat}
    (hpatience : ∀ s, lineCount s ≤ patience s) :
    resolveWithin patience o Prompter.lines.toRespondent input declared =
      some (resolve o .lines input declared) := by
  have hcounted := resolveWithin_eq_some_resolve o countedLines input declared
  have hsame : resolve o countedLines input declared = resolve o .lines input declared :=
    comesTo_iff_eq_resolve.mp ⟨_, hcounted⟩
  rw [← hsame]
  exact resolveWithin_of_le hpatience hcounted

/-! ## A source that is not declared -/

/-- The variable is derived from one that is not declared. -/
def MissesSource (declared : Variables) (name source : String) : Prop :=
  ∃ v, declared.get? name = some v ∧ v.source? = some source ∧ declared.has source = false

/-- If a source is not declared, the first variable that misses one is found. -/
theorem exists_isFirstUnknown (h : ¬ SourcesDeclared declared) :
    ∃ name source, unknownSource? declared = some (name, source) ∧
      MissesSource declared name source ∧
      ∀ name' source', MissesSource declared name' source' → nameLe name name' = true := by
  rw [← unknownSource?_eq_none_iff] at h
  obtain ⟨⟨name, source⟩, hfound⟩ := Option.ne_none_iff_exists'.mp h
  refine ⟨name, source, hfound, ?_⟩
  obtain ⟨before, ⟨n, v⟩, behind, hentries, hv, hbefore⟩ := List.findSome?_eq_some_iff.mp hfound
  obtain ⟨source', hsource, hmisses⟩ := Option.bind_eq_some_iff.mp hv
  cases hhas : declared.has source' with
  | true => simp [hhas] at hmisses
  | false =>
    obtain ⟨rfl, rfl⟩ : n = name ∧ source' = source := by simpa [hhas] using hmisses
    have hsorted := pairwise_sortByName declared.entries
    have hmem : ∀ {entry}, entry ∈ declared.entries ↔ entry ∈ before ++ (n, v) :: behind := by
      rw [← hentries]
      exact (sortByName_perm declared.entries).mem_iff.symm
    rw [hentries] at hsorted
    refine ⟨⟨v, ?_, hsource, hhas⟩, ?_⟩
    · rw [NameMap.get?_eq_some_iff, hmem]
      exact List.mem_append_right _ (List.mem_cons_self ..)
    · rintro name' source'' ⟨w, hw, hsource', hhas'⟩
      rw [NameMap.get?_eq_some_iff, hmem] at hw
      rcases List.mem_append.mp hw with hw | hw
      · -- nothing is missed before
        have hnone := hbefore _ hw
        simp [hsource', hhas'] at hnone
      · rcases List.mem_cons.mp hw with heq | hw
        · obtain ⟨rfl, rfl⟩ := Prod.mk.inj heq
          exact nameLe_refl _
        · exact (List.pairwise_cons.mp (List.pairwise_append.mp hsorted).2.1).1 _ hw

/-! ## Prompting is finite and exact -/

/-- What a resolution asks against an input that is read by lines. -/
structure AsksExactly (o : Overrides) (declared : Variables) (input : Bytes) (res : Resolution)
    (exchanges : List (Question × Reply)) : Prop where
  /-- The exchanges are those of the run. -/
  seen : Event.questions res.events = exchanges.map Prod.fst
  told : ∃ rest, Conversation Prompter.lines.toRespondent input exchanges rest
  bounded : exchanges.length ≤ lineCount input + declared.size
  ordered : exchanges.Pairwise fun x y => nameLe x.1.name y.1.name = true
  due : ∀ x ∈ exchanges, ∃ v, declared.get? x.1.name = some v ∧ x.1 = question x.1.name v ∧
    override? o x.1.name = none ∧ v.source? = none
  /-- If there are values, nothing that was due has been left out. -/
  complete : ∀ values, res.result = .ok values → ∀ name v, declared.get? name = some v →
    override? o name = none → v.source? = none → ∃ x ∈ exchanges, x.1 = question name v
  again : exchanges.Pairwise fun x y => x.1.name = y.1.name →
    ∃ v, declared.get? x.1.name = some v ∧ v.required = true ∧ v.default? = none ∧
      ∃ t, x.2 = .text t ∧ isBlank t = true

/-- What a resolution asks, however long it would have waited. -/
theorem exists_asksExactly {input : Bytes} {patience : Bytes → Nat}
    (hres : resolveWithin patience o Prompter.lines.toRespondent input declared = some res) :
    ∃ exchanges, AsksExactly o declared input res exchanges := by
  obtain ⟨exchanges, rest, hconversation, hquestions, hquestionnaire, hentered⟩ :=
    resolveWithin_questionnaire hres
  have hmem : ∀ {name v}, (name, v) ∈ sortByName declared.entries → declared.get? name = some v :=
    fun h => NameMap.get?_eq_some_iff.mpr ((sortByName_perm declared.entries).mem_iff.mp h)
  refine ⟨exchanges, hquestions, ⟨rest, hconversation⟩, ?_,
    hquestionnaire.ordered (pairwise_sortByName declared.entries), fun x hx => ?_, ?_, ?_⟩
  · -- an answer takes a line, or it is the one answer without a line that a variable has
    have hlines := hconversation.lineCount
    have hclosed := hquestionnaire.countP_isClosed_le
    rw [(sortByName_perm declared.entries).length_eq] at hclosed
    have hall : exchanges.length = _ :=
      List.length_eq_countP_add_countP fun x : Question × Reply => isClosed x.2
    simp only [Bool.not_eq_true, Bool.decide_eq_false] at hall
    have hsize : declared.size = declared.entries.length := rfl
    omega
  · obtain ⟨v, hv, hdue⟩ := hquestionnaire.due hx
    exact ⟨v, hmem hv, hdue⟩
  · intro values hvalues name v hv hplain hsource
    obtain ⟨value, hanswered⟩ := hentered values hvalues name v hv hplain hsource
    obtain ⟨x, hx, rfl⟩ := hanswered.exists_question
    obtain ⟨w, hw, hquestion, -⟩ := hquestionnaire.due hx
    obtain rfl := Option.some.inj (hv.symm.trans (hmem hw))
    exact ⟨x, hx, hquestion⟩
  · refine (hquestionnaire.again (nodup_names_sortByName declared)).imp fun hxy hname => ?_
    obtain ⟨v, hv, hagain⟩ := hxy hname
    exact ⟨v, hmem hv, hagain⟩

/-- **Prompting is finite and exact.**  Against an input, whatever its bytes are, a resolution comes to
    its end within as many blank answers as there are lines.  The questions are those of the variables
    without override and source, in the order of the names, and no more than there are lines and
    variables.  Where a source is not declared, there is none, and the first variable that misses its
    source is named. -/
theorem resolve_lines_asksExactly (o : Overrides) (declared : Variables) (input : Bytes) :
    (∀ patience : Bytes → Nat, (∀ s, lineCount s ≤ patience s) →
      resolveWithin patience o Prompter.lines.toRespondent input declared =
        some (resolve o .lines input declared)) ∧
    (∃ exchanges, AsksExactly o declared input (resolve o .lines input declared) exchanges) ∧
    (¬ SourcesDeclared declared → ∃ name source,
      resolve o .lines input declared = ⟨.error (.unknownSource name source), []⟩ ∧
        MissesSource declared name source ∧
        ∀ name' source', MissesSource declared name' source' → nameLe name name' = true) := by
  have hres := resolveWithin_eq_some_resolve o .lines input declared
  refine ⟨fun patience hpatience => resolveWithin_lines hpatience, exists_asksExactly hres,
    fun h => ?_⟩
  obtain ⟨name, source, hfound, hfirst⟩ := exists_isFirstUnknown h
  refine ⟨name, source, ?_, hfirst⟩
  rw [resolveWithin, hfound] at hres
  exact (Option.some.inj hres).symm

end Stencil.Resolution
