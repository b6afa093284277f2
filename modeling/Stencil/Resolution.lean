/-
  The values of variables.

  A value is sought in this order: an override that is not blank; for a variable that stands on its
  own, what is entered for it; for a variable derived from another one, a transform of the other's
  value.  Declared defaults fill the gaps, and a required variable without any value ends the
  command.

  Names are handled in the order of their bytes, so that the questions do not depend on the order of
  the declarations.  Derived variables come last (`settle`): each round takes the first one whose
  source is not waiting any more.  If all wait for each other, the first is taken as it is, with a
  warning.  A round takes one variable off the waiting list, whose length is thus enough fuel.

  A variable is asked for until it has a value, and nobody knows how often that is.  `resolveWithin`
  takes any respondent and bounds how many blank answers in a row it puts up with; `none` means that
  it was still asking then, which is not an outcome.  Against a prompter, which says itself how many
  blank answers there can be, there is always an outcome (`resolveWithin_isSome`), and that is
  `resolve`.
-/
import Stencil.Overrides
import Stencil.Prompter
import Stencil.Sorted
import Stencil.Token
import Stencil.Transform
import Stencil.Variable

namespace Stencil

/-- The values found, or why there are none, and what could be seen meanwhile. -/
structure Resolution where
  result : Except Error Values
  events : List Event

namespace Resolution

/-- The order of names by their bytes. -/
def nameLe (a b : String) : Bool := decide (Bytes.ofString a ≤ Bytes.ofString b)

/-- Names are in the order of their bytes. -/
theorem nameLe_iff {a b : String} : nameLe a b = true ↔ Bytes.ofString a ≤ Bytes.ofString b :=
  decide_eq_true_iff

theorem nameLe_refl (a : String) : nameLe a a = true := nameLe_iff.mpr (List.le_refl _)

theorem nameLe_total (a b : String) : nameLe a b = true ∨ nameLe b a = true := by
  simpa only [nameLe_iff] using List.le_total (Bytes.ofString a) (Bytes.ofString b)

theorem nameLe_trans {a b c : String} (hab : nameLe a b = true) (hbc : nameLe b c = true) :
    nameLe a c = true :=
  nameLe_iff.mpr (List.le_trans (nameLe_iff.mp hab) (nameLe_iff.mp hbc))

/-- Two names that may stand either way are one. -/
theorem nameLe_antisymm {a b : String} (hab : nameLe a b = true) (hba : nameLe b a = true) : a = b :=
  Bytes.ofString_injective (List.le_antisymm (nameLe_iff.mp hab) (nameLe_iff.mp hba))

theorem nameLt_of_ne {a b : String} (hab : nameLe a b = true) (hne : a ≠ b) :
    Bytes.ofString a < Bytes.ofString b :=
  (List.le_iff_lt_or_eq.mp (nameLe_iff.mp hab)).resolve_right fun heq =>
    hne (Bytes.ofString_injective heq)

/-- Entries in the order of their names. -/
def sortByName {α : Type} (entries : List (String × α)) : List (String × α) :=
  sortBy (fun a b => nameLe a.1 b.1) entries

/-- The first variable whose source is not declared, with that source. -/
def unknownSource? (declared : Variables) : Option (String × String) :=
  (sortByName declared.entries).findSome? fun (name, v) =>
    v.source?.bind fun source => if declared.has source then none else some (name, source)

/-- The value of a variable for which nothing was entered. -/
def fallback (name : String) (v : Variable) : Except Error String :=
  match v.default? with
  | some default => .ok default
  | none => if v.required then .error (.missingValue name) else .ok ""

/-- The override of a name, unless it is blank. -/
def override? (o : Overrides) (name : String) : Option String := Variable.filled? (o name)

/-! ## Asking -/

/-- The text a variable is asked for with. -/
def questionText (v : Variable) : String :=
  if isBlank v.description then "Enter value" else trim v.description

/-- What the value of a variable is asked for with. -/
def question (name : String) (v : Variable) : Question := ⟨name, questionText v, v.default?⟩

@[simp] theorem name_question (name : String) (v : Variable) : (question name v).name = name := rfl

/-- What an answer comes to. -/
inductive Verdict where
  | value (text : String)
  /-- A blank text where a value is required: the question is asked again. -/
  | again
  | failed (e : Error)

/-- What an answer comes to for a variable.  A blank text stands for the default, or for the empty text
    if the variable is optional. -/
def verdict (name : String) (v : Variable) : Reply → Verdict
  | .failed e => .failed e
  | .closed =>
    match fallback name v with
    | .ok value => .value value
    | .error e => .failed e
  | .text t =>
    if !isBlank t then .value (trim t)
    else
      match v.default? with
      | some default => .value default
      | none => if v.required then .again else .value ""

/-- A conversation under way: the respondent's state and what could be seen so far. -/
structure Dialogue (σ : Type) where
  state : σ
  events : List Event := []

/-- Asks a question. -/
def Dialogue.ask {σ : Type} (r : Respondent σ) (q : Question) (d : Dialogue σ) : Reply × Dialogue σ :=
  let (reply, state) := r.ask q d.state
  (reply, { state, events := d.events ++ [.asked q (r.echo q reply)] })

/-- Warns that a value is required. -/
def Dialogue.insist {σ : Type} (name : String) (d : Dialogue σ) : Dialogue σ :=
  { d with events := d.events ++ [.warning .resolver ("Value required for '" ++ name ++ "'")] }

@[simp] theorem Dialogue.state_insist {σ : Type} (name : String) (d : Dialogue σ) :
    (d.insist name).state = d.state := rfl

/-- Why the asking ended without a value. -/
inductive Stop where
  | failed (e : Error)
  /-- The answers were blank for as long as they were waited for. -/
  | unfinished

/-- Asks for the value of a variable until it has one.  The fuel bounds how often it is asked again. -/
def askValue {σ : Type} (r : Respondent σ) (name : String) (v : Variable) (fuel : Nat)
    (d : Dialogue σ) : Except Stop String × Dialogue σ :=
  let (reply, d) := d.ask r (question name v)
  match verdict name v reply with
  | .value value => (.ok value, d)
  | .failed e => (.error (.failed e), d)
  | .again =>
    match fuel with
    | 0 => (.error .unfinished, d.insist name)
    | fuel + 1 => askValue r name v fuel (d.insist name)

/-- The values of the variables that are overridden or stand on their own. -/
def collect {σ : Type} (patience : σ → Nat) (o : Overrides) (r : Respondent σ) :
    List (String × Variable) → Dialogue σ → Except Stop (List (String × String)) × Dialogue σ
  | [], d => (.ok [], d)
  | (name, v) :: rest, d =>
    match override? o name with
    | some value =>
      let (values, d) := collect patience o r rest d
      (values.map ((name, value) :: ·), d)
    | none =>
      if v.source?.isSome then collect patience o r rest d
      else
        match askValue r name v (patience d.state) d with
        | (.error stop, d) => (.error stop, d)
        | (.ok value, d) =>
          let (values, d) := collect patience o r rest d
          (values.map ((name, value) :: ·), d)

/-! ## Deriving -/

/-- The value of a derived variable, of those found so far. -/
def derive (values : List (String × String)) (name : String) (v : Variable) : Except Error String :=
  match v.source?.bind fun source => Variable.filled? (values.lookup source) with
  | some value => .ok (transform (v.transform.getD "") value)
  | none => fallback name v

/-- The first member that passes a test, and the others. -/
def takeFirst? {α : Type} (test : α → Bool) : List α → Option (α × List α)
  | [] => none
  | x :: xs => if test x then some (x, xs) else (takeFirst? test xs).map fun (y, ys) => (y, x :: ys)

/-- Is the variable's source not among those that wait? -/
def isReady (waiting : List (String × Variable)) (entry : String × Variable) : Bool :=
  match entry.2.source? with
  | some source => !(waiting.map Prod.fst).contains source
  | none => true

/-- The variable that the next round takes, and those that wait on. -/
def next (first : String × Variable) (others : List (String × Variable)) :
    (String × Variable) × List (String × Variable) :=
  (takeFirst? (isReady (first :: others)) (first :: others)).getD (first, others)

/-- The warning of a round in which all wait for each other. -/
def deadlock (waiting : List (String × Variable)) : List Event :=
  if waiting.any (isReady waiting) then []
  else
    [.warning .resolver
      ("Circular dependency between variables: " ++ ", ".intercalate (waiting.map Prod.fst))]

/-- The values of the variables that wait, added to those found so far. -/
def settle : (fuel : Nat) → (waiting : List (String × Variable)) → (values : List (String × String)) →
    List Event → Except Error (List (String × String)) × List Event
  | 0, _, values, events => (.ok values, events)
  | _ + 1, [], values, events => (.ok values, events)
  | fuel + 1, first :: others, values, events =>
    let (entry, waiting) := next first others
    let events := events ++ deadlock (first :: others)
    match derive values entry.1 entry.2 with
    | .ok value => settle fuel waiting (values ++ [(entry.1, value)]) events
    | .error e => (.error e, events)

end Resolution

open Resolution in
/-- The values of all variables, in the order of their names, if no variable has to be asked for again
    more often than there is patience. -/
def resolveWithin {σ : Type} (patience : σ → Nat) (o : Overrides) (r : Respondent σ) (state : σ)
    (declared : Variables) : Option Resolution :=
  match unknownSource? declared with
  | some (name, source) => some ⟨.error (.unknownSource name source), []⟩
  | none =>
    let entries := sortByName declared.entries
    match collect patience o r entries { state } with
    | (.error .unfinished, _) => none
    | (.error (.failed e), d) => some ⟨.error e, d.events⟩
    | (.ok values, d) =>
      let waiting := entries.filter fun e => (values.lookup e.1).isNone
      let (result, events) := settle waiting.length waiting values d.events
      some ⟨result.map fun values => NameMap.ofList (sortByName values), events⟩

namespace Resolution

/-- Only a blank text makes a question be asked again, and only where a value is required. -/
theorem verdict_eq_again {name : String} {v : Variable} {reply : Reply}
    (h : verdict name v reply = .again) :
    ∃ t, reply = .text t ∧ isBlank t = true ∧ v.default? = none ∧ v.required = true := by
  cases reply with
  | failed e => simp [verdict] at h
  | closed =>
    simp only [verdict] at h
    split at h <;> simp at h
  | text t =>
    cases ht : isBlank t with
    | false => simp [verdict, ht] at h
    | true =>
      cases hd : v.default? with
      | some d => simp [verdict, ht, hd] at h
      | none => exact ⟨t, rfl, ht, rfl, by simpa [verdict, ht, hd] using h⟩

/-- A blank answer uses up one of those that a prompter has. -/
theorem blanks_lt_of_verdict_again {σ : Type} {p : Prompter σ} {name : String} {v : Variable}
    {reply : Reply} {d d' : Dialogue σ}
    (hask : d.ask p.toRespondent (question name v) = (reply, d'))
    (h : verdict name v reply = .again) : p.blanks d'.state < p.blanks d.state := by
  obtain ⟨hreply, rfl⟩ := Prod.mk.inj hask
  obtain ⟨t, rfl, hblank, -, -⟩ := verdict_eq_again h
  exact p.blanks_lt (question name v) d.state t _ (Prod.ext hreply rfl) hblank

/-- With as much fuel as a prompter has blank answers, the asking comes to an end. -/
theorem askValue_ne_unfinished {σ : Type} (p : Prompter σ) (name : String) (v : Variable) (fuel : Nat)
    (d : Dialogue σ) (hfuel : p.blanks d.state ≤ fuel) :
    (askValue p.toRespondent name v fuel d).1 ≠ .error .unfinished := by
  fun_induction askValue p.toRespondent name v fuel d with
  | case1 => simp
  | case2 => simp
  | case3 d reply d' hask hverdict =>
    have hlt := blanks_lt_of_verdict_again hask hverdict
    omega
  | case4 d reply d' hask hverdict fuel ih =>
    have hlt := blanks_lt_of_verdict_again hask hverdict
    refine ih ?_
    rw [Dialogue.state_insist]
    omega

/-- A value more does not break off an asking. -/
theorem map_ne_unfinished {α β : Type} {result : Except Stop α} (f : α → β)
    (h : result ≠ .error .unfinished) : result.map f ≠ .error .unfinished := by
  cases result with
  | ok x => simp [Except.map]
  | error stop => simpa [Except.map] using h

/-- A prompter bounds its blank answers itself, so that no pass over it ends unfinished. -/
theorem collect_ne_unfinished {σ : Type} (o : Overrides) (p : Prompter σ)
    (entries : List (String × Variable)) (d : Dialogue σ) :
    (collect p.blanks o p.toRespondent entries d).1 ≠ .error .unfinished := by
  fun_induction collect p.blanks o p.toRespondent entries d with
  | case1 => simp
  | case2 name v rest d value hoverride result d' hrest ih =>
    rw [hrest] at ih
    exact map_ne_unfinished _ ih
  | case3 name v rest d hnone hsource ih => exact ih
  | case4 name v rest d hnone hsource stop d' hasked =>
    have hvalue := askValue_ne_unfinished p name v (p.blanks d.state) d (Nat.le_refl _)
    rw [hasked] at hvalue
    simpa using hvalue
  | case5 name v rest d hnone hsource value d' hasked result d'' hrest ih =>
    rw [hrest] at ih
    exact map_ne_unfinished _ ih

end Resolution

open Resolution in
/-- Against a prompter the resolution always has an outcome. -/
theorem resolveWithin_isSome {σ : Type} (o : Overrides) (p : Prompter σ) (state : σ)
    (declared : Variables) :
    (resolveWithin p.blanks o p.toRespondent state declared).isSome = true := by
  have hcollect := collect_ne_unfinished o p (sortByName declared.entries) { state }
  rw [resolveWithin]
  cases unknownSource? declared with
  | some pair => rfl
  | none =>
    dsimp only
    split
    · rename_i heq
      rw [heq] at hcollect
      exact absurd rfl hcollect
    · rfl
    · rfl

/-- The values of all variables, in the order of their names. -/
def resolve {σ : Type} (o : Overrides) (p : Prompter σ) (state : σ) (declared : Variables) :
    Resolution :=
  (resolveWithin p.blanks o p.toRespondent state declared).get (resolveWithin_isSome o p state declared)

/-- **With a prompter the resolution always comes to an end**, which is the one that `resolve` gives. -/
theorem resolveWithin_eq_some_resolve {σ : Type} (o : Overrides) (p : Prompter σ) (state : σ)
    (declared : Variables) :
    resolveWithin p.blanks o p.toRespondent state declared = some (resolve o p state declared) :=
  (Option.some_get _).symm

end Stencil
