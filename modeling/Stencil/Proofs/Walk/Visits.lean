/-
  The visits of a walk through a source tree.

  1. **One entry.**  At each entry that it comes across a walk takes a round: the entry is visited, or it
     is counted, or it is passed over (`visitSource_eq`).
  2. **One directory.**  The rounds of a directory are those at its children, each followed by the rounds
     below it if it was visited.  That is the order of the sights, so the walk through a directory is a
     loop over its sights (`run_descend`, by induction on the depth that is left).
  3. **The whole walk.**  Of the rounds only those at visited entries do anything but count
     (`foldlM_round`), so a walk is a loop of calls over the entries that it is to visit, in their order,
     and the number of those that it leaves out (`run_walkSource`).

  Nothing is assumed of the visitor but that the directories of the tree are listed behind a visit as they
  were before (`Scope.Leaves`): it may fail, and it may write elsewhere.  A walk can fail for one other
  reason.  The system refuses paths from some length on, so a directory may be visited that cannot be
  entered (`Scope.call`, `not_entered_of_lengthy`).
-/
import Stencil.Proofs.Survey
import Stencil.Proofs.Walk.Scope

namespace Stencil.Walk.Scope

open Disk

variable {s : Scope} {d : Disk} {x : Location}

/-! ## The calls of a walk -/

variable {β : Type} {visit : β → Sighting → String → Task β} {r r' : β × Nat} {w w' : World}

/-- An entry is visited.  A directory whose path is too long cannot be entered then. -/
def call (s : Scope) (d : Disk) (visit : β → Sighting → String → Task β) (value : β) (x : Location) :
    Task β := do
  let value ← visit value (s.sighting d x) (s.relative x)
  if isDirectoryAt d.table x ∧ maxPath ≤ (s.path x).text.length then
    throw (.walk (s.path x) .nameTooLong)
  else return value

theorem run_call_of_long {value value' : β}
    (hlong : isDirectoryAt d.table x = true ∧ maxPath ≤ (s.path x).text.length)
    (hvisit : (visit value (s.sighting d x) (s.relative x)).run w = .ok value' w') :
    (s.call d visit value x).run w = .error (.walk (s.path x) .nameTooLong) w' := by
  rw [call, EStateM.run_bind, hvisit]
  dsimp only
  rw [if_pos hlong]
  rfl

/-- What a walk does about an entry that it comes across: it is visited, or counted unless it is passed
    over. -/
def round (s : Scope) (d : Disk) (visit : β → Sighting → String → Task β) (r : β × Nat)
    (x : Location) : Task (β × Nat) :=
  if s.admits d x then do
    let value ← s.call d visit r.1 x
    return (value, r.2)
  else return (r.1, if s.isSkipped x then r.2 else r.2 + 1)

/-- The directories that are visited are listed as they are on the disk `d`. -/
def Lists (s : Scope) (d d' : Disk) : Prop :=
  ∀ x, s.IsVisited d x → isDirectoryAt d.table x = true → d'.list (s.path x) = d.list (s.path x)

/-- The visitor may do what it likes but change the tree: after a visit the directories that are visited
    are listed as before. -/
def Leaves (s : Scope) (d : Disk) (visit : β → Sighting → String → Task β) : Prop :=
  ∀ x value w value' w', s.IsVisited d x → s.Lists d w.disk →
    (visit value (s.sighting d x) (s.relative x)).run w = .ok value' w' → s.Lists d w'.disk

/-- The step of the walk at an entry of the tree. -/
theorem visitSource_eq {e : Entry} (h : s.Spans d) (hbelow : s.top <+: x) (he : d.get? x = some e) :
    visitSource s.root s.skip s.rules visit r ⟨s.path x, e.kind⟩ =
      if s.admits d x then do
        let value ← visit r.1 (s.sighting d x) (s.relative x)
        return ((value, r.2), true)
      else return ((r.1, if s.isSkipped x then r.2 else r.2 + 1), false) := by
  obtain ⟨value, count⟩ := r
  have hkind : e.kind ≠ .link := kind_ne_link (h.linkless x hbelow) he
  have hdirectory : isDirectoryAt d.table x = decide (e.kind = .directory) := by
    rw [isDirectoryAt_of_get? he, Bool.eq_iff_iff, Entry.isDirectory_iff_kind, decide_eq_true_iff]
  rw [visitSource, ← isSkipped, h.sighting_eq hbelow he, admits]
  cases s.isSkipped x with
  | true => rfl
  | false =>
    dsimp only
    rw [(h.relativePath_path hbelow he).1, ← hdirectory]
    simp only [hkind, decide_false, Bool.false_and, Bool.false_eq_true, if_false, Bool.not_false,
      Bool.true_and]
    show (if s.isIgnored d x then _ else _ : Task ((β × Nat) × Bool)) = _
    cases s.isIgnored d x <;> rfl

/-- A walk stays on disks on which the tree is listed as it was. -/
theorem lists_of_round (hleaves : s.Leaves d visit) (hvisited : s.admits d x = true → s.IsVisited d x)
    (hw : s.Lists d w.disk) (hrun : (s.round d visit r x).run w = .ok r' w') : s.Lists d w'.disk := by
  rw [round] at hrun
  split at hrun
  · rename_i hadmits
    obtain ⟨value, w₁, hcall, h₁⟩ := Task.bind_eq_ok hrun
    obtain ⟨-, rfl⟩ := Task.pure_eq_ok h₁
    obtain ⟨value', w₂, hvisit, h₂⟩ := Task.bind_eq_ok hcall
    have hafter := hleaves x _ w _ _ (hvisited hadmits) hw hvisit
    split at h₂
    · cases h₂
    · obtain ⟨-, rfl⟩ := Task.pure_eq_ok h₂
      exact hafter
  · obtain ⟨-, rfl⟩ := Task.pure_eq_ok hrun
    exact hw

section

variable (h : s.Spans d) (hleaves : s.Leaves d visit)

include h hleaves

/-- What a walk does with an entry of a directory: the entry itself comes first, and then, if it is
    visited, what lies below it. -/
theorem run_meet {fuel : Nat} {e : Entry} (hbelow : s.top <+: x) (he : d.get? x = some e)
    (hvisited : s.admits d x = true → s.IsVisited d x) (hw : s.Lists d w.disk)
    (hdescend : ∀ r w, isDirectoryAt d.table x = true → s.admits d x = true →
      (s.path x).text.length < maxPath → s.Lists d w.disk →
      (descend (visitSource s.root s.skip s.rules visit) (fun _ e => throw e) fuel (s.path x)
        (d.children x) r).run w = ((d.sights (s.admits d) x).foldlM (s.round d visit) r).run w) :
    (meet (visitSource s.root s.skip s.rules visit) (fun _ e => throw e) fuel (s.path x) e.kind r).run w =
      ((x :: if s.admits d x then d.sights (s.admits d) x else []).foldlM (s.round d visit) r).run w := by
  have hlook : (Task.look (·.list (s.path x))).run w = .ok (w.disk.list (s.path x)) w := rfl
  rw [List.foldlM_cons, meet, EStateM.run_bind, hlook]
  dsimp only
  rw [visitSource_eq h hbelow he, round]
  by_cases hadmits : s.admits d x = true
  swap
  · rw [if_neg hadmits, if_neg hadmits, if_neg hadmits, pure_bind, pure_bind]
    dsimp only
    rw [if_neg fun hboth => Bool.false_ne_true hboth.2, List.foldlM_nil]
  rw [if_pos hadmits, if_pos hadmits, if_pos hadmits, call]
  simp only [bind_assoc, pure_bind, EStateM.run_bind]
  cases hvisit : (visit r.1 (s.sighting d x) (s.relative x)).run w with
  | error fault w₁ => rfl
  | ok value w₁ =>
    dsimp only
    have hafter := hleaves x _ w _ _ (hvisited hadmits) hw hvisit
    have hkind : isDirectoryAt d.table x = true ↔ e.kind = .directory := by
      rw [isDirectoryAt_of_get? he]
      exact Entry.isDirectory_iff_kind
    by_cases hdir : isDirectoryAt d.table x = true
    · -- the listing was taken before the visit
      rw [if_pos ⟨hkind.mp hdir, trivial⟩, hw x (hvisited hadmits) hdir, h.list_path hbelow hdir]
      by_cases hlong : maxPath ≤ (s.path x).text.length
      · rw [if_pos hlong, if_pos ⟨hdir, hlong⟩]
        rfl
      · rw [if_neg hlong, if_neg fun hboth => hlong hboth.2]
        exact hdescend (value, r.2) w₁ hdir hadmits (Nat.not_le.mp hlong) hafter
    · rw [if_neg fun hboth => hdir (hkind.mpr hboth.1), if_neg fun hboth => hdir hboth.1,
        sights_eq_nil hdir]
      rfl

/-- A walk through a directory takes its rounds at the sights.  By induction on the depth that is left, and
    for each depth on the children of the directory. -/
theorem run_descend {fuel : Nat} {dir : Location} (hbelow : s.top <+: dir)
    (hdir : isDirectoryAt d.table dir = true) (hway : s.top = dir ∨ Admitted (s.admits d) s.top dir)
    (hfuel : maxPath ≤ fuel + (s.steps dir).length) (hshort : (s.path dir).text.length < maxPath)
    (hw : s.Lists d w.disk) :
    (descend (visitSource s.root s.skip s.rules visit) (fun _ e => throw e) fuel (s.path dir)
      (d.children dir) r).run w = ((d.sights (s.admits d) dir).foldlM (s.round d visit) r).run w := by
  induction fuel generalizing dir r w with
  | zero =>
    -- a directory this deep has too long a path
    obtain ⟨mode, he⟩ := isDirectoryAt_iff.mp hdir
    have hlength := length_foldl_entryPath (p := s.root)
      (isDescent_of_isProper (isProper_steps hbelow he))
    rw [← path] at hlength
    omega
  | succ fuel ih =>
    have hvisited : ∀ y ∈ d.sights (s.admits d) dir, s.admits d y = true → s.IsVisited d y := by
      intro y hy hadmits
      obtain ⟨hsighted, hthere⟩ := mem_sights.mp hy
      exact isVisited_iff.mpr ⟨hsighted.admitted hway hadmits, hthere⟩
    rw [sights_eq] at hvisited
    rw [descend_succ, sights_eq, Task.foldlM_flatMap]
    refine Task.run_foldlM_congr (P := fun w => s.Lists d w.disk) ?_ ?_ r hw
    · rintro r ⟨name, kind⟩ hchild w hw
      obtain ⟨e, he, rfl⟩ := mem_children.mp hchild
      have hbelow' : s.top <+: dir ++ [name] := hbelow.trans (List.prefix_append dir [name])
      have hmem : dir ++ [name] ∈ (d.children dir).flatMap fun child => (dir ++ [child.1]) ::
          if s.admits d (dir ++ [child.1]) then d.sights (s.admits d) (dir ++ [child.1]) else [] :=
        List.mem_flatMap.mpr ⟨_, hchild, List.mem_cons_self⟩
      rw [← path_concat hbelow]
      refine run_meet h hleaves hbelow' he (hvisited _ hmem) hw fun r w hthere hadmits hshort hw => ?_
      refine ih hbelow' hthere (.inr (Admitted.concat hway hadmits)) ?_ hshort hw
      rw [steps_concat hbelow, List.length_append, List.length_singleton]
      omega
    · intro r child hchild w r' w' hw hrun
      refine Task.foldlM_eq_ok (J := fun _ _ w => s.Lists d w.disk) ?_ hw hrun
      intro done y r w r' w' hy hw hround
      exact lists_of_round hleaves (hvisited y (List.mem_flatMap.mpr ⟨child, hchild, hy⟩)) hw hround

/-- **A walk takes its rounds at the sights below its root.** -/
theorem run_walkSource_eq {value : β} (hw : w.disk = d) :
    (walkSource s.root s.skip s.rules visit value).run w =
      ((d.sights (s.admits d) s.top).foldlM (s.round d visit) (value, 0)).run w := by
  subst hw
  have hlook : (Task.look (rootListing · s.root)).run w = .ok (rootListing w.disk s.root) w := rfl
  rw [walkSource, walkTree, EStateM.run_bind, hlook, rootListing_of_find h.found]
  dsimp only
  by_cases hdir : isDirectoryAt w.disk.table s.top = true
  · have hshort : (s.path s.top).text.length < maxPath := by
      rw [path_top]
      exact length_lt_of_find h.found
    rw [if_pos hdir, ← run_descend h hleaves (List.prefix_refl s.top) hdir (.inl rfl)
      (Nat.le_add_right maxPath _) hshort fun _ _ _ => rfl, path_top]
  · rw [if_neg hdir, sights_eq_nil hdir]
    rfl

end

/-- The rounds of a walk are its calls, and a count. -/
theorem foldlM_round (xs : List Location) (value : β) (count : Nat) :
    xs.foldlM (s.round d visit) (value, count) = (do
      let value ← (xs.filter (s.admits d)).foldlM (s.call d visit) value
      return (value, count + (xs.filter fun x => !s.isSkipped x && s.isIgnored d x).length)) := by
  induction xs generalizing value count with
  | nil => simp
  | cons x xs ih =>
    rw [List.foldlM_cons, round, List.filter_cons, List.filter_cons, admits]
    cases s.isSkipped x with
    | true => simp [ih]
    | false =>
      cases s.isIgnored d x with
      | true => simp [ih, Nat.add_assoc, Nat.add_comm 1]
      | false => simp [ih]

/-- The entries that a walk visits, in their order, and those that it leaves out. -/
structure Selects (s : Scope) (d : Disk) (visited leftOut : List Location) : Prop where
  mem_visited : ∀ x, x ∈ visited ↔ s.IsVisited d x
  /-- A directory comes before what it holds, and what it holds in the order of the names. -/
  ordered : visited.Pairwise (· < ·)
  mem_leftOut : ∀ x, x ∈ leftOut ↔ s.IsLeftOut d x
  distinct : leftOut.Nodup

theorem selects (s : Scope) (d : Disk) : s.Selects d (d.tour (s.admits d) s.top)
    ((d.sights (s.admits d) s.top).filter fun x => !s.isSkipped x && s.isIgnored d x) where
  mem_visited x := by rw [mem_tour, isVisited_iff]
  ordered := pairwise_tour ..
  mem_leftOut x := by
    rw [List.mem_filter, mem_sights, Bool.and_eq_true, Bool.not_eq_true']
    constructor
    · rintro ⟨⟨⟨hbelow, hne, hway⟩, hthere⟩, hkept, hignored⟩
      refine ⟨hbelow, hne, hthere, hkept, hignored, fun q hq hqx htop hqne => ?_⟩
      exact (admits_iff.mp (hway q hq hqx htop hqne)).2
    · rintro ⟨hbelow, hne, ⟨e, he⟩, hkept, hignored, habove⟩
      refine ⟨⟨⟨hbelow, hne, fun q hq hqx htop hqne => ?_⟩, e, he⟩, hkept, hignored⟩
      -- what holds an entry that is not passed over is not passed over either
      have hskip : s.isSkipped q = false := by
        cases hskipped : s.isSkipped q with
        | false => rfl
        | true => exact (isSkipped_of_below hq htop he hskipped).symm.trans hkept
      exact admits_iff.mpr ⟨hskip, habove q hq hqx htop hqne⟩
  distinct := ((pairwise_sights ..).filter _).imp fun hlt heq =>
    absurd (heq ▸ hlt) (List.lt_irrefl _)

theorem Spans.of_found (hfound : d.find true s.root = .ok s.top) (hlinkless : d.IsLinkless)
    (htexts : d.IsTextual) : s.Spans d where
  found := hfound
  linkless x _ := hlinkless x
  textual x e _ he name hname := htexts x e he name (List.mem_of_mem_drop hname)

/-- A tree with an ignored directory, one that is passed over, and one with two files. -/
def branched : Disk :=
  let src : Name := Bytes.ofString "src"
  let folder (name : String) (files : List String) (d : Disk) : Disk :=
    files.foldl (fun d file => d.put [src, Bytes.ofString name, Bytes.ofString file]
      (.file Entry.fileMode [])) (d.put [src, Bytes.ofString name] (.directory Entry.directoryMode))
  folder "b" ["x", "y"] (folder "node_modules" ["x"] (folder "out" ["x"]
    (empty.put [src] (.directory Entry.directoryMode))))

/-- A tree with a file in a directory of some length. -/
def lengthy : Disk :=
  let src : Name := Bytes.ofString "src"
  let name : Name := Bytes.ofString "dddddddddddddddddddd"
  ((empty.put [src] (.directory Entry.directoryMode)).put [src, name] (.directory Entry.directoryMode)).put
    [src, name, Bytes.ofString "x.txt"] (.file Entry.fileMode (Bytes.ofString "hello"))

end Stencil.Walk.Scope
