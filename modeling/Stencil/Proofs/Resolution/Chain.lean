/-
  Chains of sources.

  A derived variable takes its value from its source, which may itself be derived.  Each variable
  has at most one source, so from each one a single chain leads on: to a variable that is overridden
  or stands on its own, or round a cycle for ever.

  `Forced` is the notion that decides the order in which derived variables are taken: the chain of
  such a variable never ends, and no name on it comes before the variable's own.  Without cycles
  there is none (`not_forced_of_acyclic`): an endless chain among finitely many names comes back to
  where it was.
-/
import Mathlib.Data.Set.Finite.Basic
import Mathlib.Logic.Relation
import Mathlib.Order.WellFounded
import Stencil.Proofs.Sorted
import Stencil.Resolution

namespace Stencil.Resolution

open Relation

variable {o : Overrides} {declared : Variables}

/-! ## Entries in the order of their names -/

/-- In the order of their names they are the same entries. -/
theorem sortByName_perm {α : Type} (entries : List (String × α)) :
    (sortByName entries).Perm entries :=
  sortBy_perm entries

/-- The names stand in order. -/
theorem pairwise_sortByName {α : Type} (entries : List (String × α)) :
    (sortByName entries).Pairwise fun a b => nameLe a.1 b.1 = true := by
  rw [sortByName]
  refine pairwise_sortBy ?_ ?_ entries
  · exact fun a b => nameLe_total a.1 b.1
  · exact fun a b c hab hbc => nameLe_trans hab hbc

/-! ## Sources -/

/-- The variable `name` is declared as `v`, is not overridden, and is derived from `source`. -/
structure Derives (o : Overrides) (declared : Variables) (name : String) (v : Variable)
    (source : String) : Prop where
  declares : declared.get? name = some v
  plain : override? o name = none
  source : v.source? = some source

/-- The variable `a` takes its value from `b`. -/
def DerivedFrom (o : Overrides) (declared : Variables) (a b : String) : Prop :=
  ∃ v, Derives o declared a v b

/-- The variable lies on a cycle of derived variables. -/
def OnCycle (o : Overrides) (declared : Variables) (a : String) : Prop :=
  TransGen (DerivedFrom o declared) a a

/-- The chain of sources never ends, and no name on it comes before the first. -/
def Forced (o : Overrides) (declared : Variables) (a : String) : Prop :=
  ∀ b, ReflTransGen (DerivedFrom o declared) a b →
    (∃ c, DerivedFrom o declared b c) ∧ nameLe a b = true

/-- Every source is declared. -/
def SourcesDeclared (declared : Variables) : Prop :=
  ∀ name v source, declared.get? name = some v → v.source? = some source → declared.has source = true

/-- A variable derives from one source. -/
theorem Derives.unique {name source source' : String} {v v' : Variable}
    (h : Derives o declared name v source) (h' : Derives o declared name v' source') :
    v = v' ∧ source = source' := by
  obtain rfl := Option.some.inj (h.declares.symm.trans h'.declares)
  exact ⟨rfl, Option.some.inj (h.source.symm.trans h'.source)⟩

/-- Being derived can be seen from the overrides and the declarations. -/
theorem derivedFrom_iff {a b : String} : DerivedFrom o declared a b ↔
    override? o a = none ∧ (declared.get? a).bind Variable.source? = some b := by
  constructor
  · rintro ⟨v, hv⟩
    exact ⟨hv.plain, by rw [hv.declares, Option.bind_some, hv.source]⟩
  · rintro ⟨hplain, hsource⟩
    obtain ⟨v, hv, hsource⟩ := Option.bind_eq_some_iff.mp hsource
    exact ⟨v, hv, hplain, hsource⟩

/-- What derives is declared. -/
theorem DerivedFrom.mem_names {a b : String} (h : DerivedFrom o declared a b) : a ∈ declared.names := by
  obtain ⟨v, hv⟩ := h
  exact NameMap.get?_isSome_iff.mp (by simp [hv.declares])

/-- Sources are declared where no unknown one is found. -/
theorem unknownSource?_eq_none_iff : unknownSource? declared = none ↔ SourcesDeclared declared := by
  simp only [unknownSource?, List.findSome?_eq_none_iff, (sortByName_perm declared.entries).mem_iff]
  constructor
  · intro h name v source hv hsource
    have hnone := h (name, v) (NameMap.get?_eq_some_iff.mp hv)
    by_contra hhas
    simp [hsource, hhas] at hnone
  · rintro h ⟨name, v⟩ hentry
    cases hsource : v.source? with
    | none => simp
    | some source => simp [h name v source (NameMap.get?_eq_some_iff.mpr hentry) hsource]

/-- Where sources come first in some order, there are no cycles. -/
theorem acyclic_of_rank (rank : String → Nat)
    (h : ∀ e ∈ declared.entries, ∀ source ∈ e.2.source?, rank source < rank e.1) (a : String) :
    ¬ OnCycle o declared a := by
  have hlt : ∀ b, TransGen (DerivedFrom o declared) a b → rank b < rank a := by
    intro b hchain
    have hstep : ∀ x y, DerivedFrom o declared x y → rank y < rank x := fun x y ⟨v, hv⟩ =>
      h (x, v) (NameMap.get?_eq_some_iff.mp hv.declares) y hv.source
    induction hchain with
    | single hab => exact hstep a _ hab
    | tail _ hbc ih => exact (hstep _ _ hbc).trans ih
  exact fun hcycle => Nat.lt_irrefl _ (hlt a hcycle)

/-! ## Endless chains -/

/-- Without cycles, what comes later on a chain is smaller. -/
theorem wellFounded_of_acyclic (hacyclic : ∀ a, ¬ OnCycle o declared a) :
    WellFounded fun x y : {a // a ∈ declared.names} => TransGen (DerivedFrom o declared) y.1 x.1 := by
  have : Finite {a // a ∈ declared.names} := (List.finite_toSet declared.names).to_subtype
  have : IsTrans {a // a ∈ declared.names} fun x y => TransGen (DerivedFrom o declared) y.1 x.1 :=
    ⟨fun _ _ _ hxy hyz => hyz.trans hxy⟩
  have : Std.Irrefl fun x y : {a // a ∈ declared.names} => TransGen (DerivedFrom o declared) y.1 x.1 :=
    ⟨fun x hx => hacyclic x.1 hx⟩
  exact Finite.wellFounded_of_trans_of_irrefl _

/-- Without cycles every chain ends. -/
theorem exists_end_of_acyclic (hacyclic : ∀ a, ¬ OnCycle o declared a)
    (x : {a // a ∈ declared.names}) :
    ∃ b, ReflTransGen (DerivedFrom o declared) x.1 b ∧ ¬ ∃ c, DerivedFrom o declared b c := by
  induction x using (wellFounded_of_acyclic hacyclic).induction with
  | _ x ih =>
    by_cases hx : ∃ c, DerivedFrom o declared x.1 c
    · obtain ⟨c, hc⟩ := hx
      by_cases hdeclared : c ∈ declared.names
      · obtain ⟨b, hb, hlast⟩ := ih ⟨c, hdeclared⟩ (TransGen.single hc)
        exact ⟨b, hb.head hc, hlast⟩
      · exact ⟨c, ReflTransGen.single hc, fun ⟨d, hd⟩ => hdeclared hd.mem_names⟩
    · exact ⟨x.1, ReflTransGen.refl, hx⟩

/-- Where there is no cycle, nothing is forced. -/
theorem not_forced_of_acyclic (hacyclic : ∀ a, ¬ OnCycle o declared a) (a : String) :
    ¬ Forced o declared a := by
  intro hforced
  obtain ⟨c, hc⟩ := (hforced a ReflTransGen.refl).1
  obtain ⟨b, hb, hlast⟩ := exists_end_of_acyclic hacyclic ⟨a, hc.mem_names⟩
  exact hlast (hforced b hb).1

end Stencil.Resolution
