/-
  What lies below a directory, in the order of a walk.

  `d.tour admits top` lists what lies below `top` and is admitted together with all that lies between:
  it is cut out of the sorted list of all locations.  `d.sights admits top` lists what a walk comes across
  that enters what is admitted: for that only what lies between has to be admitted, and the tour are the
  sights that are admitted themselves (`tour_eq_filter`).

  That this is the order of a walk, a directory before what it holds and what it holds name by name, is
  `sights_eq`: the sights of a directory are its children, each followed by its own sights if it is
  admitted.  Both sides of that equation are increasing lists with the same members, and there is only
  one such list (`eq_of_mem_iff`).  For the same reason a tour depends only on where something lies
  (`tour_congr`).
-/
import Mathlib.Data.List.Infix
import Stencil.Proofs.Disk.Entries

namespace Stencil.Disk

variable {d d' : Disk} {admits admits' : Location → Bool} {top x y : Location} {a b : Name} {e : Entry}

/-! ## The order of locations -/

/-- A directory comes before what lies below it. -/
theorem lt_of_below (h : x <+: y) (hne : x ≠ y) : x < y := by
  obtain ⟨rest, rfl⟩ := h
  induction x with
  | nil =>
    cases rest with
    | nil => exact absurd rfl hne
    | cons name rest => exact List.nil_lt_cons name rest
  | cons name x ih =>
    refine List.cons_lt_cons_iff.mpr (.inr ⟨rfl, ih fun heq => hne ?_⟩)
    exact congrArg (List.cons name) heq

/-- Below different names of a directory the order is that of the names. -/
theorem lt_of_branches (hab : a < b) (hx : top ++ [a] <+: x) (hy : top ++ [b] <+: y) : x < y := by
  obtain ⟨xs, rfl⟩ := hx
  obtain ⟨ys, rfl⟩ := hy
  induction top with
  | nil => exact List.cons_lt_cons_iff.mpr (.inl hab)
  | cons name top ih => exact List.cons_lt_cons_iff.mpr (.inr ⟨rfl, ih⟩)

/-- There is one increasing list of the same locations. -/
theorem eq_of_mem_iff {xs ys : List Location} (hxs : xs.Pairwise (· < ·)) (hys : ys.Pairwise (· < ·))
    (h : ∀ x, x ∈ xs ↔ x ∈ ys) : xs = ys := by
  have hnodup : ∀ zs : List Location, zs.Pairwise (· < ·) → zs.Nodup := fun zs hzs =>
    hzs.imp fun hlt heq => absurd (heq ▸ hlt) (List.lt_irrefl _)
  have hperm : xs.Perm ys := (List.perm_ext_iff_of_nodup (hnodup xs hxs) (hnodup ys hys)).mpr h
  refine hperm.eq_of_pairwise ?_ hxs hys
  intro x y _ _ hxy hyx
  exact absurd (List.lt_trans hxy hyx) (List.lt_irrefl x)

/-- Where something lies, in increasing order. -/
def locations (d : Disk) : List Location :=
  sortBy (fun x y => x ≤ y) (d.table.map Prod.fst)

/-- The locations of a disk are all below the root at which something lies. -/
theorem mem_locations : x ∈ d.locations ↔ x ≠ [] ∧ ∃ e, d.get? x = some e := by
  rw [locations, (sortBy_perm _).mem_iff]
  constructor
  · intro hx
    have hne : x ≠ [] := (d.sound.proper x hx).1
    refine ⟨hne, Option.isSome_iff_exists.mp ?_⟩
    rw [get?_of_ne_nil hne]
    exact lookup_isSome_iff_mem.mpr hx
  · rintro ⟨hne, e, he⟩
    exact mem_keys_of_get? he hne

/-- They stand in increasing order, each once. -/
theorem pairwise_locations (d : Disk) : d.locations.Pairwise (· < ·) := by
  have hle : d.locations.Pairwise fun x y => x ≤ y := by
    refine pairwise_sortBy (fun x y => ?_) (fun x y z => ?_) _
    · exact Std.le_total
    · exact Std.le_trans
  have hnodup : d.locations.Nodup := (sortBy_perm _).nodup_iff.mpr d.sound.nodup
  refine (hle.and hnodup).imp ?_
  rintro x y ⟨hxy, hne⟩
  exact Std.lt_of_le_of_ne hxy hne

/-! ## Tours -/

/-- Does `x` lie below `top`? -/
def isInside (top x : Location) : Bool := isBelow top x && x != top

theorem isInside_iff : isInside top x = true ↔ top <+: x ∧ x ≠ top := by
  rw [isInside, isBelow, Bool.and_eq_true, List.isPrefixOf_iff_prefix, bne_iff_ne]

/-- Where something lies below `top`, admitted as all between, in increasing order. -/
def tour (d : Disk) (admits : Location → Bool) (top : Location) : List Location :=
  d.locations.filter fun x => isInside top x && x.inits.all fun q => !isInside top q || admits q

/-- The location lies below `top`, and it and all between are admitted. -/
structure Admitted (admits : Location → Bool) (top x : Location) : Prop where
  below : top <+: x
  ne : x ≠ top
  way : ∀ q, q <+: x → top <+: q → q ≠ top → admits q = true

/-- The locations inside a directory that are kept.  The root is inside nothing, so it is no loss that the
    list of locations leaves it out. -/
theorem mem_filter_isInside {keeps : Location → Bool} :
    (x ∈ d.locations.filter fun x => isInside top x && keeps x) ↔
      (top <+: x ∧ x ≠ top) ∧ keeps x = true ∧ ∃ e, d.get? x = some e := by
  rw [List.mem_filter, mem_locations, Bool.and_eq_true, isInside_iff]
  constructor
  · rintro ⟨⟨-, hthere⟩, hinside, hkeeps⟩
    exact ⟨hinside, hkeeps, hthere⟩
  · rintro ⟨⟨hbelow, hne⟩, hkeeps, hthere⟩
    refine ⟨⟨?_, hthere⟩, ⟨hbelow, hne⟩, hkeeps⟩
    rintro rfl
    exact hne (List.prefix_nil.mp hbelow).symm

/-- What is asked of the locations inside a directory on the way to one of them. -/
theorem all_inits_iff {asks : Location → Bool} :
    (x.inits.all fun q => !isInside top q || asks q) = true ↔
      ∀ q, q <+: x → top <+: q → q ≠ top → asks q = true := by
  simp only [List.all_eq_true, List.mem_inits, Bool.or_eq_true, Bool.not_eq_true']
  constructor
  · intro h q hq hbelow hne
    exact (h q hq).resolve_left (by simp [isInside_iff.mpr ⟨hbelow, hne⟩])
  · intro h q hq
    cases hinside : isInside top q with
    | false => exact .inl rfl
    | true =>
      obtain ⟨hbelow, hne⟩ := isInside_iff.mp hinside
      exact .inr (h q hq hbelow hne)

/-- **A tour visits what is there and admitted** on the whole way to it from the top. -/
theorem mem_tour : x ∈ d.tour admits top ↔ Admitted admits top x ∧ ∃ e, d.get? x = some e := by
  rw [tour, mem_filter_isInside, all_inits_iff]
  constructor
  · rintro ⟨⟨hbelow, hne⟩, hway, hthere⟩
    exact ⟨⟨hbelow, hne, hway⟩, hthere⟩
  · rintro ⟨⟨hbelow, hne, hway⟩, hthere⟩
    exact ⟨⟨hbelow, hne⟩, hway, hthere⟩

/-- What a walk comes across below `top` that enters what is admitted, in increasing order. -/
def sights (d : Disk) (admits : Location → Bool) (top : Location) : List Location :=
  d.locations.filter fun x =>
    isInside top x && x.inits.all fun q => !isInside top q || q == x || admits q

/-- The location lies below `top`, and all between are admitted. -/
structure Sighted (admits : Location → Bool) (top x : Location) : Prop where
  below : top <+: x
  ne : x ≠ top
  way : ∀ q, q <+: x → q ≠ x → top <+: q → q ≠ top → admits q = true

/-- A sight is what is there and admitted on the way to it, be it admitted itself or not. -/
theorem mem_sights : x ∈ d.sights admits top ↔ Sighted admits top x ∧ ∃ e, d.get? x = some e := by
  simp only [sights, Bool.or_assoc]
  rw [mem_filter_isInside, all_inits_iff]
  -- the location itself need not be admitted
  simp only [Bool.or_eq_true, beq_iff_eq]
  constructor
  · rintro ⟨⟨hbelow, hne⟩, hway, hthere⟩
    exact ⟨⟨hbelow, hne, fun q hq hqx htop hqne => (hway q hq htop hqne).resolve_left hqx⟩, hthere⟩
  · rintro ⟨⟨hbelow, hne, hway⟩, hthere⟩
    exact ⟨⟨hbelow, hne⟩, fun q hq htop hqne =>
      (Classical.em (q = x)).imp_right fun hqx => hway q hq hqx htop hqne, hthere⟩

theorem pairwise_sights (d : Disk) (admits : Location → Bool) (top : Location) :
    (d.sights admits top).Pairwise (· < ·) :=
  (pairwise_locations d).filter _

theorem admitted_iff : Admitted admits top x ↔ Sighted admits top x ∧ admits x = true := by
  constructor
  · rintro ⟨hbelow, hne, hway⟩
    exact ⟨⟨hbelow, hne, fun q hq _ => hway q hq⟩, hway x (List.prefix_refl x) hbelow hne⟩
  · rintro ⟨⟨hbelow, hne, hway⟩, hself⟩
    refine ⟨hbelow, hne, fun q hq htop hqne => ?_⟩
    by_cases hqx : q = x
    · rw [hqx]
      exact hself
    · exact hway q hq hqx htop hqne

/-- A tour goes in increasing order, which is that of a walk. -/
theorem pairwise_tour (d : Disk) (admits : Location → Bool) (top : Location) :
    (d.tour admits top).Pairwise (· < ·) :=
  (pairwise_locations d).filter _

/-- The tour are the sights that are admitted themselves. -/
theorem tour_eq_filter (d : Disk) (admits : Location → Bool) (top : Location) :
    d.tour admits top = (d.sights admits top).filter admits := by
  refine eq_of_mem_iff (pairwise_tour ..) ((pairwise_sights ..).filter _) fun x => ?_
  rw [List.mem_filter, mem_tour, mem_sights, admitted_iff, and_right_comm]

/-- A tour depends only on what is admitted below its directory, and on where something lies there. -/
theorem tour_congr (hadmits : ∀ x, top <+: x → admits x = admits' x)
    (h : ∀ x, Admitted admits top x → (d.get? x).isSome = (d'.get? x).isSome) :
    d.tour admits top = d'.tour admits' top := by
  refine eq_of_mem_iff (pairwise_tour d admits top) (pairwise_tour d' admits' top) fun x => ?_
  have hsame : Admitted admits top x ↔ Admitted admits' top x := by
    constructor
    · rintro ⟨hbelow, hne, hway⟩
      exact ⟨hbelow, hne, fun q hq htop hqne => hadmits q htop ▸ hway q hq htop hqne⟩
    · rintro ⟨hbelow, hne, hway⟩
      exact ⟨hbelow, hne, fun q hq htop hqne => (hadmits q htop).trans (hway q hq htop hqne)⟩
  rw [mem_tour, mem_tour, ← hsame]
  refine and_congr_right fun hx => ?_
  rw [← Option.isSome_iff_exists, ← Option.isSome_iff_exists, h x hx]

/-- Nothing lies below what is no directory. -/
theorem sights_eq_nil (h : isDirectoryAt d.table top ≠ true) : d.sights admits top = [] := by
  rw [List.eq_nil_iff_forall_not_mem]
  intro x hx
  obtain ⟨hsighted, e, he⟩ := mem_sights.mp hx
  exact h (isDirectoryAt_above he hsighted.below (Ne.symm hsighted.ne))

/-- In what is no directory there is nothing to visit. -/
theorem tour_eq_nil (h : isDirectoryAt d.table top ≠ true) : d.tour admits top = [] := by
  rw [tour_eq_filter, sights_eq_nil h, List.filter_nil]

/-! ## Step by step -/

theorem not_concat_below {name : Name} : ¬ top ++ [name] <+: top := by
  intro h
  have hlength := h.length_le
  rw [List.length_append, List.length_singleton] at hlength
  omega

/-- What lies between `top` and `x` lies at or below the child of `top` on the way to `x`. -/
theorem concat_below {q : Location} {name : Name} (hname : top ++ [name] <+: x) (hq : q <+: x)
    (hbelow : top <+: q) (hne : q ≠ top) : top ++ [name] <+: q := by
  refine List.prefix_of_prefix_length_le hname hq ?_
  rw [List.length_append, List.length_singleton]
  refine Nat.lt_of_le_of_ne hbelow.length_le fun hlength => hne ?_
  exact (hbelow.eq_of_length hlength).symm

theorem Admitted.self (h : Admitted admits top x) : admits x = true :=
  h.way x (List.prefix_refl x) h.below h.ne

/-- Where a walk arrives lies below the top. -/
theorem prefix_of_way (h : top = x ∨ Admitted admits top x) : top <+: x := by
  rcases h with rfl | h
  · exact List.prefix_refl top
  · exact h.below

/-- An admitted name in an admitted directory is admitted, and in the top every admitted name is. -/
theorem Admitted.concat {name : Name} (h : top = x ∨ Admitted admits top x)
    (hname : admits (x ++ [name]) = true) :
    Admitted admits top (x ++ [name]) := by
  have hbelow : top <+: x := prefix_of_way h
  refine ⟨hbelow.trans (List.prefix_append x _), ?_, fun q hq htop hne => ?_⟩
  · rintro rfl
    exact not_concat_below hbelow
  · rcases List.prefix_concat_iff.mp hq with rfl | hq
    · exact hname
    · rcases h with rfl | h
      · exact absurd (hq.eq_of_length_le htop.length_le) hne
      · exact h.way q hq htop hne

namespace Sighted

variable {name : Name}

/-- What is sighted below a child that is admitted is sighted below the directory. -/
theorem of_child (h : Sighted admits (top ++ [name]) x) (hname : admits (top ++ [name]) = true) :
    Sighted admits top x := by
  refine ⟨(List.prefix_append _ _).trans h.below, ?_, fun q hq hqx hbelow hne => ?_⟩
  · rintro rfl
    exact not_concat_below h.below
  · by_cases heq : q = top ++ [name]
    · rw [heq]
      exact hname
    · exact h.way q hq hqx (concat_below h.below hq hbelow hne) heq

/-- What is sighted below a directory is sighted below each directory on the way. -/
theorem child (h : Sighted admits top x) (hname : top ++ [name] <+: x) (hne : x ≠ top ++ [name]) :
    Sighted admits (top ++ [name]) x := by
  refine ⟨hname, hne, fun q hq hqx hbelow _ => ?_⟩
  refine h.way q hq hqx ((List.prefix_append _ _).trans hbelow) ?_
  rintro rfl
  exact not_concat_below hbelow

/-- All that a directory holds is sighted. -/
theorem concat_self : Sighted admits top (top ++ [name]) := by
  refine ⟨List.prefix_append _ _, by simp, fun q hq hqx hbelow hne => absurd ?_ hne⟩
  rcases List.prefix_concat_iff.mp hq with heq | hq
  · exact absurd heq hqx
  · exact hq.eq_of_length_le hbelow.length_le

/-- What is sighted from the top, or from a directory that is admitted below it, is admitted with all
    between if it is so itself. -/
theorem admitted {dir : Location} (h : Sighted admits dir x) (hway : top = dir ∨ Admitted admits top dir)
    (hself : admits x = true) : Admitted admits top x := by
  have hbelow : top <+: dir := by
    rcases hway with rfl | hway
    · exact List.prefix_refl top
    · exact hway.below
  refine ⟨hbelow.trans h.below, ?_, fun q hq htop hne => ?_⟩
  · rintro rfl
    exact h.ne (hbelow.eq_of_length_le h.below.length_le)
  · by_cases hdown : dir <+: q ∧ q ≠ dir
    · exact (admitted_iff.mpr ⟨h, hself⟩).way q hq hdown.1 hdown.2
    -- at the directory and above it the way is that of the directory
    have hup : q <+: dir := by
      rcases List.prefix_or_prefix_of_prefix hq h.below with hup | hbehind
      · exact hup
      · by_cases heq : q = dir
        · exact heq ▸ List.prefix_refl q
        · exact absurd ⟨hbehind, heq⟩ hdown
    rcases hway with rfl | hway
    · exact absurd (hup.eq_of_length_le htop.length_le) hne
    · exact hway.way q hup htop hne

end Sighted

/-- **The order of the sights**: the children of the directory, each followed by its own sights if it is
    admitted. -/
theorem sights_eq (d : Disk) (admits : Location → Bool) (top : Location) :
    d.sights admits top = (d.children top).flatMap fun child => (top ++ [child.1]) ::
      if admits (top ++ [child.1]) then d.sights admits (top ++ [child.1]) else [] := by
  -- all that comes of a child lies at or below it
  have hinside : ∀ {name : Name} {x : Location}, x ∈ (if admits (top ++ [name]) then
      d.sights admits (top ++ [name]) else []) → Sighted admits (top ++ [name]) x ∧
        admits (top ++ [name]) = true ∧ ∃ e, d.get? x = some e := by
    intro name x hx
    split at hx
    · rename_i hadmits
      obtain ⟨hsighted, hthere⟩ := mem_sights.mp hx
      exact ⟨hsighted, hadmits, hthere⟩
    · cases hx
  refine eq_of_mem_iff (pairwise_sights d admits top) ?_ fun x => ?_
  · rw [List.pairwise_flatMap]
    constructor
    -- a directory comes before its sights, and the sights of different children do not mix
    · intro child hchild
      refine List.pairwise_cons.mpr ⟨fun x hx => ?_, ?_⟩
      · obtain ⟨hsighted, -⟩ := hinside hx
        exact lt_of_below hsighted.below (Ne.symm hsighted.ne)
      · split
        · exact pairwise_sights ..
        · exact List.Pairwise.nil
    · have hblock : ∀ {name : Name} {x : Location}, x ∈ ((top ++ [name]) ::
          if admits (top ++ [name]) then d.sights admits (top ++ [name]) else []) →
          top ++ [name] <+: x := by
        intro name x hx
        rcases List.mem_cons.mp hx with rfl | hx
        · exact List.prefix_refl _
        · exact (hinside hx).1.below
      refine (pairwise_children d top).imp fun {child other} hlt x hx y hy => ?_
      exact lt_of_branches hlt (hblock hx) (hblock hy)
  · rw [List.mem_flatMap]
    constructor
    · intro hx
      obtain ⟨hsighted, e, he⟩ := mem_sights.mp hx
      obtain ⟨name, hname⟩ : ∃ name, top ++ [name] <+: x := by
        obtain ⟨rest, rfl⟩ := hsighted.below
        cases rest with
        | nil => exact absurd (List.append_nil top) hsighted.ne
        | cons name rest => exact ⟨name, by simp⟩
      by_cases heq : x = top ++ [name]
      · rw [heq] at he
        refine ⟨(name, e.kind), mem_children.mpr ⟨e, he, rfl⟩, ?_⟩
        rw [heq]
        exact List.mem_cons_self
      · obtain ⟨mode, hmode⟩ := isDirectoryAt_iff.mp (isDirectoryAt_above he hname (Ne.symm heq))
        have hadmits : admits (top ++ [name]) = true :=
          hsighted.way _ hname (Ne.symm heq) (List.prefix_append _ _) (by simp)
        refine ⟨(name, .directory), mem_children.mpr ⟨_, hmode, rfl⟩, List.mem_cons_of_mem _ ?_⟩
        rw [if_pos hadmits]
        exact mem_sights.mpr ⟨hsighted.child hname heq, e, he⟩
    · rintro ⟨child, hchild, hx⟩
      obtain ⟨e, he, -⟩ := mem_children.mp hchild
      rcases List.mem_cons.mp hx with rfl | hx
      · exact mem_sights.mpr ⟨.concat_self, e, he⟩
      · obtain ⟨hsighted, hadmits, hthere⟩ := hinside hx
        exact mem_sights.mpr ⟨hsighted.of_child hadmits, hthere⟩

/-- The order of a tour: the children of the directory that are admitted, each followed by its own
    tour. -/
theorem tour_eq (d : Disk) (admits : Location → Bool) (top : Location) :
    d.tour admits top = (d.children top).flatMap fun child =>
      if admits (top ++ [child.1]) then
        (top ++ [child.1]) :: d.tour admits (top ++ [child.1])
      else [] := by
  rw [tour_eq_filter, sights_eq, List.filter_flatMap]
  refine List.flatMap_congr fun child _ => ?_
  rw [List.filter_cons]
  split
  · rw [tour_eq_filter]
  · rfl

end Stencil.Disk
