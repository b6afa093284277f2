/-
  What tasks come to.

  A task that succeeds did so step by step: `bind_eq_ok` takes a step off, and there is one lemma for
  each kind of step.  For what holds however a task ends there is `Keeps P x Q`: when `P` holds of the
  disk before, it holds of the disk that `x` leaves, and an answer of `x` satisfies `Q`.  Two tasks `Agree`
  when they do the same and their answers are related.
-/
import Stencil.Task

namespace Stencil.Task

variable {α β : Type} {x : Task α} {f : α → Task β} {w w' : World} {a : α} {b : β} {u : Unit}

/-! ## Single steps -/

/-- A query answers from the disk and leaves it alone, or fails as an error of the system. -/
theorem run_query (f : Disk → Except Fault α) (w : World) :
    (query f).run w = match f w.disk with
      | .ok a => .ok a w
      | .error fault => .error (.io fault) w := by
  simp only [query, EStateM.run_bind, EStateM.run_get]
  cases f w.disk <;> rfl

/-- A change that fails leaves the disk as it was. -/
theorem run_change (f : Disk → Except Fault Disk) (w : World) :
    (change f).run w = match f w.disk with
      | .ok disk => .ok () { w with disk }
      | .error fault => .error (.io fault) w := by
  simp only [change, EStateM.run_bind, EStateM.run_get]
  cases f w.disk <;> rfl

/-- Making directories can fail half-way: what was made stays, unlike with a change. -/
theorem run_makeDirectories (p : Path) (w : World) :
    (makeDirectories p).run w = match (w.disk.makeDirectories p).2 with
      | .ok () => .ok () { w with disk := (w.disk.makeDirectories p).1 }
      | .error fault => .error (.io fault) { w with disk := (w.disk.makeDirectories p).1 } := by
  simp only [makeDirectories, EStateM.run_bind, EStateM.run_get, EStateM.run_modify]
  cases (w.disk.makeDirectories p).2 <;> rfl

/-- A result from outside is taken over, and the world stays. -/
theorem run_ofExcept (r : Except Error α) (w : World) :
    (ofExcept r : Task α).run w = match r with
      | .ok a => .ok a w
      | .error e => .error e w := by
  cases r <;> rfl

/-! ## Success, step by step -/

/-- **Two steps that succeed do so one after the other**, with the world that the first one leaves in
    between. -/
theorem bind_eq_ok (h : (x >>= f).run w = .ok b w') :
    ∃ a w₁, x.run w = .ok a w₁ ∧ (f a).run w₁ = .ok b w' := by
  rw [EStateM.run_bind] at h
  cases hx : x.run w with
  | ok a w₁ =>
    rw [hx] at h
    exact ⟨a, w₁, rfl, h⟩
  | error e w₁ =>
    rw [hx] at h
    cases h

/-- Two steps fail in the first one, or in the second one after the first has succeeded. -/
theorem bind_eq_error {e : Error} (h : (x >>= f).run w = .error e w') :
    x.run w = .error e w' ∨ ∃ a w₁, x.run w = .ok a w₁ ∧ (f a).run w₁ = .error e w' := by
  rw [EStateM.run_bind] at h
  cases hx : x.run w with
  | ok a w₁ =>
    rw [hx] at h
    exact .inr ⟨a, w₁, rfl, h⟩
  | error e' w₁ =>
    rw [hx] at h
    cases h
    exact .inl rfl

/-- What only answers changes nothing. -/
theorem pure_eq_ok {c : α} (h : (pure a : Task α).run w = .ok c w') : c = a ∧ w' = w := by
  cases h
  exact ⟨rfl, rfl⟩

/-- A result that is taken over was a success. -/
theorem ofExcept_eq_ok {r : Except Error α} (h : (ofExcept r : Task α).run w = .ok a w') :
    r = .ok a ∧ w' = w := by
  rw [run_ofExcept] at h
  cases r with
  | error e => cases h
  | ok c =>
    cases h
    exact ⟨rfl, rfl⟩

/-- A look at the disk always succeeds. -/
theorem look_eq_ok {f : Disk → α} (h : (look f).run w = .ok a w') : a = f w.disk ∧ w' = w := by
  cases h
  exact ⟨rfl, rfl⟩

/-- A query that succeeds tells what is on the disk. -/
theorem query_eq_ok {f : Disk → Except Fault α} (h : (query f).run w = .ok a w') :
    f w.disk = .ok a ∧ w' = w := by
  rw [run_query] at h
  cases hf : f w.disk with
  | error fault =>
    rw [hf] at h
    cases h
  | ok c =>
    rw [hf] at h
    cases h
    exact ⟨rfl, rfl⟩

/-- A change that succeeds leaves the changed disk. -/
theorem change_eq_ok {f : Disk → Except Fault Disk} (h : (change f).run w = .ok u w') :
    f w.disk = .ok w'.disk := by
  rw [run_change] at h
  cases hf : f w.disk with
  | error fault =>
    rw [hf] at h
    cases h
  | ok d =>
    rw [hf] at h
    cases h
    rfl

/-- Where directories were made, the disk is the one with all of them. -/
theorem makeDirectories_eq_ok {p : Path} (h : (makeDirectories p).run w = .ok u w') :
    w.disk.makeDirectories p = (w'.disk, .ok ()) := by
  rw [run_makeDirectories] at h
  cases hresult : (w.disk.makeDirectories p).2 with
  | error fault =>
    rw [hresult] at h
    cases h
  | ok _ =>
    rw [hresult] at h
    cases h
    exact Prod.ext rfl hresult

/-- What is let seen is not on the disk. -/
theorem emit_eq_ok {e : Event} (h : (emit e).run w = .ok u w') : w'.disk = w.disk := by
  cases h
  rfl

/-- What holds at the start of a loop and is taken on by each of its rounds holds when the loop succeeds.
    By induction on the rounds that are left. -/
theorem foldlM_eq_ok {γ : Type} {step : β → γ → Task β} {J : List γ → β → World → Prop} {cs : List γ}
    {b₁ b₂ : β}
    (hstep : ∀ done c b w b' w', c ∈ cs → J done b w → (step b c).run w = .ok b' w' →
      J (done ++ [c]) b' w') (hJ : J [] b₁ w)
    (hrun : (cs.foldlM step b₁).run w = .ok b₂ w') : J cs b₂ w' := by
  suffices hrest : ∀ rest done b w, (∀ c ∈ rest, c ∈ cs) → J done b w →
      (rest.foldlM step b).run w = .ok b₂ w' → J (done ++ rest) b₂ w' by
    simpa using hrest cs [] b₁ w (fun _ hc => hc) hJ hrun
  intro rest
  induction rest with
  | nil =>
    intro done b w _ hdone hend
    obtain ⟨rfl, rfl⟩ := pure_eq_ok hend
    rw [List.append_nil]
    exact hdone
  | cons c rest ih =>
    intro done b w hmem hdone hloop
    rw [List.foldlM_cons] at hloop
    obtain ⟨b', w₁, hround, hloop'⟩ := bind_eq_ok hloop
    -- the rounds behind the first start with one round done
    rw [List.append_cons]
    refine ih (done ++ [c]) b' w₁ (fun c' hc' => hmem c' (List.mem_cons_of_mem c hc')) ?_ hloop'
    exact hstep done c b w b' w₁ (hmem c List.mem_cons_self) hdone hround

/-- A loop over several lists in a row is a loop over them one after the other. -/
theorem foldlM_flatMap {γ δ : Type} (step : β → δ → Task β) (f : γ → List δ) (cs : List γ) (b : β) :
    (cs.flatMap f).foldlM step b = cs.foldlM (fun b c => (f c).foldlM step b) b := by
  induction cs generalizing b with
  | nil => rfl
  | cons c cs ih =>
    rw [List.flatMap_cons, List.foldlM_append, List.foldlM_cons]
    exact bind_congr ih

/-- Loops whose rounds do the same in all worlds of a kind do the same, if they stay in such worlds. -/
theorem run_foldlM_congr {γ : Type} {f g : β → γ → Task β} {P : World → Prop} {cs : List γ}
    (hsame : ∀ b, ∀ c ∈ cs, ∀ w, P w → (f b c).run w = (g b c).run w)
    (hstay : ∀ b, ∀ c ∈ cs, ∀ w b' w', P w → (g b c).run w = .ok b' w' → P w') (b : β) (hw : P w) :
    (cs.foldlM f b).run w = (cs.foldlM g b).run w := by
  induction cs generalizing b w with
  | nil => rfl
  | cons c cs ih =>
    rw [List.foldlM_cons, List.foldlM_cons, EStateM.run_bind, EStateM.run_bind,
      hsame b c List.mem_cons_self w hw]
    cases hround : (g b c).run w with
    | error e w' => rfl
    | ok b' w' =>
      exact ih (fun b c hc => hsame b c (List.mem_cons_of_mem _ hc))
        (fun b c hc => hstay b c (List.mem_cons_of_mem _ hc)) b'
        (hstay b c List.mem_cons_self w b' w' hw hround)

/-! ## However it ends -/

/-- The answer of a task, if it succeeds. -/
def answer? (x : Task α) (w : World) : Option α :=
  match x.run w with
  | .ok a _ => some a
  | .error _ _ => none

/-- An answer comes from a run that succeeds. This is how a run on a fixed disk is evaluated: its answer
    is compared, not the world that it leaves. -/
theorem exists_run_of_answer? (h : x.answer? w = some a) : ∃ w', x.run w = .ok a w' := by
  rw [answer?] at h
  cases hx : x.run w with
  | ok b w' =>
    rw [hx] at h
    obtain rfl := Option.some.inj h
    exact ⟨w', rfl⟩
  | error e w' =>
    rw [hx] at h
    cases h

/-- A task with a look at the disk that it leaves. -/
def observe (x : Task α) (f : Disk → β) : Task (α × β) := do
  let a ← x
  let b ← look f
  return (a, b)

/-- Looking at the disk afterwards changes nothing about a run. -/
theorem observe_eq_ok {f : Disk → β} (h : (x.observe f).run w = .ok (a, b) w') :
    x.run w = .ok a w' ∧ f w'.disk = b := by
  obtain ⟨a', w₁, hx, h₁⟩ := bind_eq_ok h
  obtain ⟨b', w₂, hlook, h₂⟩ := bind_eq_ok h₁
  obtain ⟨rfl, rfl⟩ := look_eq_ok hlook
  obtain ⟨hpair, rfl⟩ := pure_eq_ok h₂
  obtain ⟨rfl, rfl⟩ := Prod.mk.inj hpair
  exact ⟨hx, rfl⟩

/-- Two tasks one after the other, each with a look at the disk that it leaves. -/
def observeBoth {γ δ : Type} (x : Task α) (f : Disk → β) (y : Task γ) (g : Disk → δ) :
    Task ((α × β) × (γ × δ)) := do
  let r ← x.observe f
  let s ← y.observe g
  return (r, s)

/-- Two runs, and what is seen after each of them, from one answer. -/
theorem exists_runs_of_observeBoth {γ δ : Type} {y : Task γ} {f : Disk → β} {g : Disk → δ} {c : γ} {e : δ}
    (h : (x.observeBoth f y g).answer? w = some ((a, b), (c, e))) :
    ∃ w₁ w₂, x.run w = .ok a w₁ ∧ f w₁.disk = b ∧ y.run w₁ = .ok c w₂ ∧ g w₂.disk = e := by
  obtain ⟨w₃, hrun⟩ := exists_run_of_answer? h
  obtain ⟨r, w₁, hfirst, h₁⟩ := bind_eq_ok hrun
  obtain ⟨s, w₂, hsecond, h₂⟩ := bind_eq_ok h₁
  obtain ⟨hpair, -⟩ := pure_eq_ok h₂
  obtain ⟨rfl, rfl⟩ := Prod.mk.inj hpair
  obtain ⟨hx, hseen⟩ := observe_eq_ok hfirst
  obtain ⟨hy, hseen'⟩ := observe_eq_ok hsecond
  exact ⟨w₁, w₂, hx, hseen, hy, hseen'⟩

/-- The disk that a task leaves, be it that it succeeds or fails. -/
def diskAfter (x : Task α) (w : World) : Disk :=
  match x.run w with
  | .ok _ w' => w'.disk
  | .error _ w' => w'.disk

/-- What holds of the disk before holds of the one that the task leaves, and the task's answer is as
    required. -/
def Keeps (P : Disk → Prop) (x : Task α) (Q : α → Prop) : Prop :=
  ∀ w, P w.disk → P (x.diskAfter w) ∧ ∀ a w', x.run w = .ok a w' → Q a

namespace Keeps

variable {P : Disk → Prop} {Q : α → Prop} {R : β → Prop}

/-- The disk after a success. -/
theorem of_ok (hx : Keeps P x Q) (hw : P w.disk) (h : x.run w = .ok a w') : P w'.disk := by
  have hkept := (hx w hw).1
  rwa [diskAfter, h] at hkept

/-- The disk after a failure. -/
theorem of_error {e : Error} (hx : Keeps P x Q) (hw : P w.disk) (h : x.run w = .error e w') :
    P w'.disk := by
  have hkept := (hx w hw).1
  rwa [diskAfter, h] at hkept

/-- **What two steps keep, they keep together**; the second one may rely on what the answer of the first
    one satisfies. -/
theorem bind (hx : Keeps P x Q) (hf : ∀ a, Q a → Keeps P (f a) R) : Keeps P (x >>= f) R := by
  intro w hw
  obtain ⟨hdisk, hanswer⟩ := hx w hw
  rw [diskAfter] at hdisk ⊢
  rw [EStateM.run_bind]
  cases hrun : x.run w with
  | ok a w₁ =>
    rw [hrun] at hdisk
    exact hf a (hanswer a w₁ hrun) w₁ hdisk
  | error e w₁ =>
    rw [hrun] at hdisk
    exact ⟨hdisk, fun b w' h => by cases h⟩

theorem pure (ha : Q a) : Keeps P (pure a) Q := by
  intro w hw
  refine ⟨hw, fun b w' h => ?_⟩
  cases h
  exact ha

/-- A task that only fails keeps everything, and promises anything about an answer. -/
theorem throw (e : Error) : Keeps P (throw e : Task α) Q :=
  fun _ hw => ⟨hw, fun _ _ h => by cases h⟩

/-- A result that is taken over keeps everything, and the answer is that result. -/
theorem ofExcept (r : Except Error α) : Keeps P (ofExcept r) fun a => r = .ok a := by
  cases r with
  | error e => exact Keeps.throw e
  | ok a => exact Keeps.pure rfl

/-- A look keeps everything. -/
theorem look (f : Disk → α) : Keeps P (look f) fun _ => True := fun _ hw => ⟨hw, fun _ _ _ => trivial⟩

theorem emit (e : Event) : Keeps P (emit e) fun _ => True := fun _ hw => ⟨hw, fun _ _ _ => trivial⟩

/-- A query keeps everything, however it ends. -/
theorem query (f : Disk → Except Fault α) : Keeps P (query f) fun _ => True := by
  intro w hw
  refine ⟨?_, fun _ _ _ => trivial⟩
  rw [diskAfter, run_query]
  cases f w.disk <;> exact hw

/-- A change keeps what every disk it can lead to has kept. -/
theorem change {f : Disk → Except Fault Disk} (hf : ∀ d d', P d → f d = .ok d' → P d') :
    Keeps P (change f) fun _ => True := by
  intro w hw
  refine ⟨?_, fun _ _ _ => trivial⟩
  rw [diskAfter, run_change]
  cases hd : f w.disk with
  | error fault => exact hw
  | ok d => exact hf w.disk d hw hd

/-- Making directories keeps what it keeps also where it stops half-way. -/
theorem makeDirectories {p : Path} (hp : ∀ d, P d → P (d.makeDirectories p).1) :
    Keeps P (makeDirectories p) fun _ => True := by
  intro w hw
  refine ⟨?_, fun _ _ _ => trivial⟩
  rw [diskAfter, run_makeDirectories]
  cases (w.disk.makeDirectories p).2 <;> exact hp w.disk hw

/-- A loop keeps what each of its rounds keeps. -/
theorem foldlM {γ : Type} {step : β → γ → Task β} (hstep : ∀ b c, R b → Keeps P (step b c) R)
    (cs : List γ) (hb : R b) : Keeps P (cs.foldlM step b) R := by
  induction cs generalizing b with
  | nil => exact Keeps.pure hb
  | cons c cs ih =>
    rw [List.foldlM_cons]
    exact Keeps.bind (hstep b c hb) fun b' hb' => ih hb'

end Keeps

/-! ## Two tasks that do the same -/

/-- On every disk the two tasks fail with the same error, or succeed with answers that are related, and
    they leave the same world. -/
def Agree {γ : Type} (R : α → γ → Prop) (x : Task α) (y : Task γ) : Prop :=
  ∀ w, (∃ e w', x.run w = .error e w' ∧ y.run w = .error e w') ∨
    ∃ a c w', x.run w = .ok a w' ∧ y.run w = .ok c w' ∧ R a c

namespace Agree

variable {γ δ : Type} {R : α → γ → Prop} {S : β → δ → Prop} {y : Task γ} {g : γ → Task δ}

/-- Answers that are related come from tasks that do nothing. -/
theorem pure {c : γ} (h : R a c) : Agree R (pure a) (pure c) := fun w => .inr ⟨a, c, w, rfl, rfl, h⟩

/-- Tasks that agree, with agreeing ones behind them for all related answers, agree. -/
theorem bind (h : Agree R x y) (hf : ∀ a c, R a c → Agree S (f a) (g c)) :
    Agree S (x >>= f) (y >>= g) := by
  intro w
  rcases h w with ⟨e, w', hx, hy⟩ | ⟨a, c, w', hx, hy, hac⟩
  · exact .inl ⟨e, w', by rw [EStateM.run_bind, hx], by rw [EStateM.run_bind, hy]⟩
  · rw [EStateM.run_bind, hx, EStateM.run_bind, hy]
    exact hf a c hac w'

/-- What agrees behind the same task agrees with that task before it. -/
theorem bind_same {g : α → Task δ} (hf : ∀ a, Agree S (f a) (g a)) : Agree S (x >>= f) (x >>= g) := by
  intro w
  rw [EStateM.run_bind, EStateM.run_bind]
  cases hx : x.run w with
  | ok a w' => exact hf a w'
  | error e w' => exact .inl ⟨e, w', rfl, rfl⟩

/-- The answers may be used alike, and then nothing is left of the difference. -/
theorem bind_eq {g : γ → Task β} (h : Agree R x y) (hf : ∀ a c, R a c → f a = g c) :
    x >>= f = y >>= g := by
  funext w
  show (x >>= f).run w = (y >>= g).run w
  rw [EStateM.run_bind, EStateM.run_bind]
  rcases h w with ⟨e, w', hx, hy⟩ | ⟨a, c, w', hx, hy, hac⟩
  · rw [hx, hy]
  · rw [hx, hy]
    exact congrArg (EStateM.run · w') (hf a c hac)

/-- Loops agree if each of their rounds does. -/
theorem foldlM {ι : Type} {step : α → ι → Task α} {step' : γ → ι → Task γ}
    (hstep : ∀ a c i, R a c → Agree R (step a i) (step' c i)) (is : List ι) {c : γ} (h : R a c) :
    Agree R (is.foldlM step a) (is.foldlM step' c) := by
  induction is generalizing a c with
  | nil => exact Agree.pure h
  | cons i is ih =>
    rw [List.foldlM_cons, List.foldlM_cons]
    exact (hstep a c i h).bind fun a' c' h' => ih h'

end Agree

end Stencil.Task
