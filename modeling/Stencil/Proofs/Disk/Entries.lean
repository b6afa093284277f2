/-
  What lies on a disk.

  A disk is told by `get?`: what lies at each location.  `put` changes one location (`get?_put`) and
  `eraseTree` all at and below one (`get?_eraseTree`).  Whatever lies somewhere lies in directories up
  to the root (`isDirectoryAt_above`).

  The listing of a directory holds exactly the names that something lies under (`mem_children`), each
  once and in increasing order, so it depends on these entries alone (`children_congr`).
-/
import Mathlib.Data.List.Infix
import Mathlib.Order.Basic
import Stencil.Disk
import Stencil.Proofs.Sorted

namespace Stencil

/-- The two ways to ask whether an entry is a directory agree. -/
theorem Entry.isDirectory_iff_kind {e : Entry} : e.isDirectory = true ↔ e.kind = .directory := by
  cases e <;> simp [Entry.isDirectory, Entry.kind]

namespace Disk

variable {d d' : Disk} {loc x dir top : Location} {name : Name} {e : Entry}

/-! ## One location -/

/-- The root is a directory that no table lists. -/
@[simp] theorem get?_nil (d : Disk) : d.get? [] = some (.directory Entry.directoryMode) := rfl

theorem get?_of_ne_nil (h : loc ≠ []) : d.get? loc = d.table.lookup loc := if_neg h

/-- What the disk counts as a directory are entries that are one, the root among them. -/
theorem isDirectoryAt_iff :
    isDirectoryAt d.table loc = true ↔ ∃ mode, d.get? loc = some (.directory mode) := by
  rw [isDirectoryAt, Option.any_eq_true]
  constructor
  · rintro ⟨e, he, hdir⟩
    cases e with
    | directory mode => exact ⟨mode, he⟩
    | file mode content => cases hdir
    | link target => cases hdir
  · rintro ⟨mode, he⟩
    exact ⟨_, he, rfl⟩

/-- Whether there is a directory is read off the entry that lies there. -/
theorem isDirectoryAt_of_get? (he : d.get? loc = some e) :
    isDirectoryAt d.table loc = e.isDirectory := by
  rw [isDirectoryAt, show entryAt d.table loc = some e from he, Option.any_some]

theorem isDirectoryAt_nil (d : Disk) : isDirectoryAt d.table [] = true :=
  isDirectoryAt_iff.mpr ⟨_, get?_nil d⟩

/-- Below the root the table lists all that lies anywhere. -/
theorem mem_keys_of_get? (he : d.get? loc = some e) (hne : loc ≠ []) :
    loc ∈ d.table.map Prod.fst := by
  rw [get?_of_ne_nil hne] at he
  exact lookup_isSome_iff_mem.mp (he ▸ rfl)

/-- All that lies anywhere lies under names that a file system allows. -/
theorem isProper_of_get? (he : d.get? loc = some e) : isProper loc = true := by
  by_cases hne : loc = []
  · rw [hne]
    rfl
  · exact (d.sound.proper loc (mem_keys_of_get? he hne)).2

/-- The location before the last name is a directory, as every table has it. -/
theorem isDirectoryAt_dropLast (he : d.get? loc = some e) :
    isDirectoryAt d.table loc.dropLast = true := by
  by_cases hne : loc = []
  · rw [hne]
    exact isDirectoryAt_nil d
  · exact d.sound.rooted loc (mem_keys_of_get? he hne)

/-- What lies somewhere lies in directories, up to the root. -/
theorem isDirectoryAt_above (he : d.get? loc = some e) (hpre : x <+: loc) (hne : x ≠ loc) :
    isDirectoryAt d.table x = true := by
  -- by induction on the names that are missing behind `x`
  induction hn : loc.length generalizing loc e with
  | zero =>
    obtain rfl := List.length_eq_zero_iff.mp hn
    exact absurd (List.prefix_nil.mp hpre) hne
  | succ n ih =>
    have hloc : loc ≠ [] := List.ne_nil_of_length_eq_add_one hn
    have habove := isDirectoryAt_dropLast he
    have hpre' : x <+: loc.dropLast := by
      have hlast := List.dropLast_concat_getLast hloc
      rw [← hlast] at hpre
      exact (List.prefix_concat_iff.mp hpre).resolve_left fun h => hne (h.trans hlast)
    by_cases hx : x = loc.dropLast
    · rw [hx]
      exact habove
    · obtain ⟨mode, hmode⟩ := isDirectoryAt_iff.mp habove
      exact ih hmode hpre' hx (by rw [List.length_dropLast, hn]; rfl)

/-- From the root to a directory there are directories. -/
theorem exists_directory_above (hdir : isDirectoryAt d.table loc = true) (hpre : x <+: loc) :
    ∃ mode, d.get? x = some (.directory mode) := by
  obtain ⟨mode, hmode⟩ := isDirectoryAt_iff.mp hdir
  by_cases hx : x = loc
  · exact ⟨mode, hx ▸ hmode⟩
  · exact isDirectoryAt_iff.mp (isDirectoryAt_above hmode hpre hx)

/-- Below nothing there is nothing. -/
theorem get?_eq_none_below (hnone : d.get? x = none) (hpre : x <+: loc) : d.get? loc = none := by
  by_cases hx : x = loc
  · exact hx ▸ hnone
  · cases he : d.get? loc with
    | none => rfl
    | some e =>
      obtain ⟨mode, hmode⟩ := isDirectoryAt_iff.mp (isDirectoryAt_above he hpre hx)
      rw [hnone] at hmode
      cases hmode

/-- What is there does not lie below what is not. -/
theorem not_below_of_free (hfree : d.get? x = none) (he : d.get? loc = some e) : ¬ x <+: loc := by
  intro hbelow
  rw [get?_eq_none_below hfree hbelow] at he
  cases he

/-- Above what is there something is there. -/
theorem exists_get?_above (he : d.get? loc = some e) (hpre : x <+: loc) : ∃ e', d.get? x = some e' := by
  cases hthere : d.get? x with
  | none => exact absurd hpre (not_below_of_free hthere he)
  | some e' => exact ⟨e', rfl⟩

/-! ## Putting and erasing -/

/-- **What is put somewhere lies there, and elsewhere nothing changes**, where it fits. -/
theorem get?_put (h : Fits d.table loc e) (x : Location) :
    (d.put loc e).get? x = if x = loc then some e else d.get? x := by
  rw [put, dif_pos h]
  show entryAt (insertKey loc e d.table) x = _
  by_cases hx : x = loc
  · rw [if_pos hx, hx, entryAt, if_neg h.notRoot, lookup_insertKey_self]
  · rw [if_neg hx, entryAt, lookup_insertKey_of_ne hx]
    rfl

/-- **Erasing a tree takes all that lies at its top and below**, and nothing else. -/
theorem get?_eraseTree (d : Disk) (hne : top ≠ []) (x : Location) :
    (d.eraseTree top).get? x = if top <+: x then none else d.get? x := by
  show entryAt (eraseBelow top d.table) x = _
  by_cases hx : x = []
  · have hnot : ¬ top <+: x := by
      rw [hx, List.prefix_nil]
      exact hne
    rw [if_neg hnot, entryAt, if_pos hx, hx, get?_nil]
  · rw [entryAt, if_neg hx]
    by_cases hpre : top <+: x
    · rw [if_pos hpre, ← Option.not_isSome_iff_eq_none, lookup_isSome_iff_mem]
      intro hmem
      obtain ⟨e, he, rfl⟩ := List.mem_map.mp hmem
      have hkept := (List.mem_filter.mp he).2
      rw [isBelow, List.isPrefixOf_iff_prefix.mpr hpre] at hkept
      cases hkept
    · -- what does not lie below stays in the table
      have hbelow : isBelow top x = false := by
        rw [isBelow, ← Bool.not_eq_true, List.isPrefixOf_iff_prefix]
        exact hpre
      rw [if_neg hpre, lookup_eraseBelow hbelow, get?_of_ne_nil hx]

/-- At a free name in a directory anything fits. -/
theorem fits_of_none (hdir : isDirectoryAt d.table dir = true) (hname : Path.isEntryName name = true)
    (hnone : d.get? (dir ++ [name]) = none) (e : Entry) : Fits d.table (dir ++ [name]) e where
  notRoot := by simp
  proper := by
    obtain ⟨mode, hmode⟩ := isDirectoryAt_iff.mp hdir
    have hproper := isProper_of_get? hmode
    rw [isProper] at hproper ⊢
    rw [List.all_append, hproper, List.all_cons, hname]
    rfl
  rooted := by
    rw [List.dropLast_concat]
    exact hdir
  keeps := by
    intro hthere
    obtain ⟨mode, hmode⟩ := isDirectoryAt_iff.mp hthere
    rw [hnone] at hmode
    cases hmode

/-- In the place of a file anything fits. -/
theorem fits_of_file {mode : Mode} {content : Bytes} (hfile : d.get? loc = some (.file mode content))
    (e : Entry) : Fits d.table loc e where
  notRoot := by
    rintro rfl
    rw [get?_nil] at hfile
    cases hfile
  proper := isProper_of_get? hfile
  rooted := isDirectoryAt_dropLast hfile
  keeps := by
    intro hthere
    rw [isDirectoryAt_of_get? hfile] at hthere
    cases hthere

/-! ## Listings -/

/-- What a listing shows of an entry of the table. -/
def shown? (dir : Location) (entry : Location × Entry) : Option (Name × Kind) :=
  if entry.1.dropLast = dir then entry.1.getLast?.map fun name => (name, entry.2.kind) else none

/-- A listing is the table read through `shown?`, put in order. -/
theorem children_perm (d : Disk) (dir : Location) :
    (d.children dir).Perm (d.table.filterMap (shown? dir)) := sortBy_perm _

/-- An entry is shown in the directory before its last name, under that name. -/
theorem shown?_eq_some_iff {entry : Location × Entry} {child : Name × Kind} (hne : entry.1 ≠ []) :
    shown? dir entry = some child ↔ entry.1 = dir ++ [child.1] ∧ entry.2.kind = child.2 := by
  constructor
  · intro hshown
    by_cases hdir : entry.1.dropLast = dir
    · rw [shown?, if_pos hdir, List.getLast?_eq_some_getLast hne] at hshown
      obtain rfl := Option.some.inj hshown
      refine ⟨?_, rfl⟩
      rw [← hdir]
      exact (List.dropLast_concat_getLast hne).symm
    · rw [shown?, if_neg hdir] at hshown
      cases hshown
  · rintro ⟨hloc, hkind⟩
    rw [shown?, hloc, if_pos List.dropLast_concat, List.getLast?_concat, hkind]
    rfl

/-- The names in a directory are those that something lies under. -/
theorem mem_children {child : Name × Kind} : child ∈ d.children dir ↔
    ∃ e, d.get? (dir ++ [child.1]) = some e ∧ e.kind = child.2 := by
  have hne : dir ++ [child.1] ≠ [] := by simp
  rw [(children_perm d dir).mem_iff, List.mem_filterMap, get?_of_ne_nil hne]
  constructor
  · rintro ⟨entry, hmem, hshown⟩
    have hloc : entry.1 ≠ [] := (d.sound.proper entry.1 (List.mem_map_of_mem hmem)).1
    obtain ⟨hentry, hkind⟩ := (shown?_eq_some_iff hloc).mp hshown
    refine ⟨entry.2, ?_, hkind⟩
    rw [lookup_eq_some_iff_mem d.sound.nodup, ← hentry]
    exact hmem
  · rintro ⟨e, he, hkind⟩
    exact ⟨(dir ++ [child.1], e), (lookup_eq_some_iff_mem d.sound.nodup).mp he,
      (shown?_eq_some_iff hne).mpr ⟨rfl, hkind⟩⟩

/-- No name is listed twice. -/
theorem pairwise_ne_children (d : Disk) (dir : Location) :
    (d.children dir).Pairwise fun a b => a.1 ≠ b.1 := by
  rw [(children_perm d dir).pairwise_iff Ne.symm]
  have hkeys : d.table.Pairwise fun a b => a ∈ d.table ∧ b ∈ d.table ∧ a.1 ≠ b.1 :=
    (List.pairwise_map.mp d.sound.nodup).imp_of_mem fun ha hb hne => ⟨ha, hb, hne⟩
  refine hkeys.filterMap (shown? dir) ?_
  -- two entries that are shown under one name would lie at one location
  rintro a b ⟨ha, hb, hne⟩ first hfirst second hsecond heq
  have hroot := fun entry (h : entry ∈ d.table) =>
    (d.sound.proper entry.1 (List.mem_map_of_mem h)).1
  obtain ⟨hafirst, -⟩ := (shown?_eq_some_iff (hroot a ha)).mp hfirst
  obtain ⟨hbsecond, -⟩ := (shown?_eq_some_iff (hroot b hb)).mp hsecond
  exact hne (by rw [hafirst, hbsecond, heq])

/-- The names in a directory stand in increasing order. -/
theorem pairwise_children (d : Disk) (dir : Location) :
    (d.children dir).Pairwise fun a b => a.1 < b.1 := by
  have hle : (d.children dir).Pairwise fun a b => a.1 ≤ b.1 := by
    refine pairwise_sortBy (fun a b => ?_) (fun a b c => ?_) _
    · exact Std.le_total
    · exact Std.le_trans
  refine (hle.and (pairwise_ne_children d dir)).imp ?_
  rintro a b ⟨hab, hne⟩
  exact Std.lt_of_le_of_ne hab hne

/-- The listing of a directory depends on the kinds of the entries in it alone. -/
theorem children_congr
    (h : ∀ name, (d.get? (dir ++ [name])).map Entry.kind = (d'.get? (dir ++ [name])).map Entry.kind) :
    d.children dir = d'.children dir := by
  have hnodup : ∀ d : Disk, (d.children dir).Nodup := fun d =>
    (pairwise_ne_children d dir).imp fun hne heq => hne (congrArg Prod.fst heq)
  have hperm : (d.children dir).Perm (d'.children dir) := by
    rw [List.perm_ext_iff_of_nodup (hnodup d) (hnodup d')]
    intro child
    rw [mem_children, mem_children, ← Option.map_eq_some_iff, ← Option.map_eq_some_iff, h]
  -- both listings are in increasing order, and there is only one such order
  refine hperm.eq_of_pairwise ?_ (pairwise_children d dir) (pairwise_children d' dir)
  intro a b _ _ hab hba
  exact absurd (List.lt_trans hab hba) (List.lt_irrefl a.1)

end Disk

end Stencil
