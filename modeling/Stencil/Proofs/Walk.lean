/-
  What a walk does.

  A walk hands the entries below its root to a visitor, who changes the value of the walk and, as the
  case may be, the disk that is walked through.  `Guides` says what is needed of the visitor to know the
  whole walk: on an admitted entry he takes a step of an invariant and enters, on any other he keeps it
  and stays out, and the directories that are entered are found as they were.  Then a walk that
  succeeds takes the steps of the tour, in its order (`Guides.walkTree`).

  The fuel of a walk never runs out: it bounds the depth, and directories so deep have paths that are
  too long to be read.
-/
import Stencil.Proofs.Disk.Lookup
import Stencil.Proofs.Disk.Tour
import Stencil.Proofs.Task
import Stencil.Walk

namespace Stencil.Walk

open Disk

variable {β : Type} {visit : β → Sighting → Task (β × Bool)} {d : Disk} {admits : Location → Bool}
  {top dir : Location} {I : List Location → β → World → Prop} {done : List Location}
  {value value' : β} {w w' : World}

/-- The visitor leads a walk below `top` along the tour of admitted entries.  `I` holds of the entries
    visited, the value and the world; `d` is the disk as the walk sees it. -/
structure Guides (visit : β → Sighting → Task (β × Bool)) (d : Disk) (admits : Location → Bool)
    (top : Location) (I : List Location → β → World → Prop) : Prop where
  /-- An admitted entry is a step, and if it is a directory it is entered. -/
  visited : ∀ {done value w x e value' enter w'}, I done value w → d.get? x = some e →
    Admitted admits top x → (visit value ⟨pathOf x, e.kind⟩).run w = .ok (value', enter) w' →
    I (done ++ [x]) value' w' ∧ (e.kind = .directory → enter = true)
  /-- Any other entry is no step, and is not entered. -/
  passed : ∀ {done value w x e value' enter w'}, I done value w → d.get? x = some e → top <+: x →
    admits x = false → (visit value ⟨pathOf x, e.kind⟩).run w = .ok (value', enter) w' →
    I done value' w' ∧ (e.kind = .directory → enter = false)
  /-- What is read in a directory is what the walk sees there. -/
  read : ∀ {done value w dir listing}, I done value w → isDirectoryAt d.table dir = true →
    (top = dir ∨ Admitted admits top dir) → w.disk.list (pathOf dir) = .ok listing →
    listing = d.children dir

/-- All the directories among some locations have paths that are short enough to be read. -/
def IsReadable (d : Disk) (xs : List Location) : Prop :=
  ∀ x ∈ xs, isDirectoryAt d.table x = true → (pathOf x).text.length < maxPath

/-- A directory that can be read has a short path. -/
theorem length_of_list {p : Path} {listing : List (Name × Kind)} (h : d.list p = .ok listing) :
    p.text.length < maxPath := by
  obtain ⟨x, hfind, -⟩ := exists_of_bind_eq_ok h
  exact length_lt_of_find hfind

/-- What a walk does with an entry of a directory. -/
def meet (visit : β → Sighting → Task (β × Bool)) (unread : β → Error → Task β) (fuel : Nat)
    (path : Path) (kind : Kind) (value : β) : Task β := do
  let inside ← Task.look (·.list path)
  let (value, enter) ← visit value ⟨path, kind⟩
  if kind = .directory ∧ enter then
    match inside with
    | .ok listing => descend visit unread fuel path listing value
    | .error fault => unread value (.walk path fault)
  else return value

/-- A walk goes into a directory entry by entry, and meets each with a step less to go down. -/
theorem descend_succ (unread : β → Error → Task β) (fuel : Nat) (directory : Path)
    (listing : List (Name × Kind)) (value : β) :
    descend visit unread (fuel + 1) directory listing value = listing.foldlM
      (fun value child => meet visit unread fuel (entryPath directory child.1) child.2 value) value :=
  rfl

/-- The directory is listed first, and the listing is used last. -/
theorem meet_eq_ok {unread : β → Error → Task β} {fuel : Nat} {path : Path} {kind : Kind}
    (h : (meet visit unread fuel path kind value).run w = .ok value' w') :
    ∃ value₁ enter w₁, (visit value ⟨path, kind⟩).run w = .ok (value₁, enter) w₁ ∧
      (if kind = .directory ∧ enter then
        match w.disk.list path with
        | .ok listing => descend visit unread fuel path listing value₁
        | .error fault => unread value₁ (.walk path fault)
      else return value₁ : Task β).run w₁ = .ok value' w' := by
  obtain ⟨inside, wl, hinside, h₁⟩ := Task.bind_eq_ok h
  obtain ⟨rfl, rfl⟩ := Task.look_eq_ok hinside
  obtain ⟨⟨value₁, enter⟩, w₁, hvisit, h₂⟩ := Task.bind_eq_ok h₁
  exact ⟨value₁, enter, w₁, hvisit, h₂⟩

/-- The path of an entry is the one of its location. -/
theorem entryPath_pathOf {dir : Location} {name : Name} {e : Entry}
    (he : d.get? (dir ++ [name]) = some e) : entryPath (pathOf dir) name = pathOf (dir ++ [name]) := by
  have hdescent : IsDescent (dir ++ [name]) := isDescent_of_get? he
  exact join_pathOf (fun n hn => hdescent n (List.mem_append_left _ hn)) (hdescent name (by simp))

namespace Guides

variable (h : Guides visit d admits top I)

include h

/-- An admitted entry is visited and then, if it is a directory, walked through. -/
theorem meet_of_admitted {fuel : Nat} {x : Location} {e : Entry} (he : d.get? x = some e)
    (hx : Admitted admits top x) (hI : I done value w)
    (hthrough : ∀ {value w}, isDirectoryAt d.table x = true → (pathOf x).text.length < maxPath →
      I (done ++ [x]) value w →
      (descend visit (fun _ e => throw e) fuel (pathOf x) (d.children x) value).run w =
        .ok value' w' →
      I (done ++ [x] ++ d.tour admits x) value' w' ∧ IsReadable d (d.tour admits x))
    (hrun : (meet visit (fun _ e => throw e) fuel (pathOf x) e.kind value).run w = .ok value' w') :
    I (done ++ x :: d.tour admits x) value' w' ∧ IsReadable d (x :: d.tour admits x) := by
  obtain ⟨value₁, enter, w₁, hvisit, h₂⟩ := meet_eq_ok hrun
  obtain ⟨hstep, henter⟩ := h.visited hI he hx hvisit
  have hkind : isDirectoryAt d.table x = true ↔ e.kind = .directory := by
    rw [isDirectoryAt_of_get? he]
    exact Entry.isDirectory_iff_kind
  rw [List.append_cons]
  by_cases hdirectory : e.kind = .directory
  · rw [if_pos ⟨hdirectory, henter hdirectory⟩] at h₂
    cases hlist : w.disk.list (pathOf x) with
    | error fault =>
      rw [hlist] at h₂
      cases h₂
    | ok listing =>
      rw [hlist] at h₂
      -- the listing was taken before the visit
      obtain rfl := h.read hI (hkind.mpr hdirectory) (.inr hx) hlist
      have hshort := length_of_list hlist
      obtain ⟨hend, hinside⟩ := hthrough (hkind.mpr hdirectory) hshort hstep h₂
      exact ⟨hend, List.forall_mem_cons.mpr ⟨fun _ => hshort, hinside⟩⟩
  · rw [if_neg fun hboth => hdirectory hboth.1] at h₂
    obtain ⟨rfl, rfl⟩ := Task.pure_eq_ok h₂
    have hnone : d.tour admits x = [] := tour_eq_nil fun hthere => hdirectory (hkind.mp hthere)
    rw [hnone, List.append_nil]
    exact ⟨hstep, List.forall_mem_singleton.mpr fun hthere => absurd (hkind.mp hthere) hdirectory⟩

/-- Any other entry is passed by. -/
theorem meet_of_not_admitted {fuel : Nat} {x : Location} {e : Entry} (he : d.get? x = some e)
    (hbelow : top <+: x) (hx : admits x = false) (hI : I done value w)
    (hrun : (meet visit (fun _ e => throw e) fuel (pathOf x) e.kind value).run w = .ok value' w') :
    I done value' w' := by
  obtain ⟨value₁, enter, w₁, hvisit, h₂⟩ := meet_eq_ok hrun
  obtain ⟨hkept, hout⟩ := h.passed hI he hbelow hx hvisit
  rw [if_neg fun hboth => by simp [hout hboth.1] at hboth] at h₂
  obtain ⟨rfl, rfl⟩ := Task.pure_eq_ok h₂
  exact hkept

/-- The walk through a directory takes the steps of its tour, and reads the directories of the tour.  By
    induction on the depth that is left, and for each depth on the children of the directory. -/
theorem descend {fuel : Nat} (hdir : isDirectoryAt d.table dir = true)
    (hway : top = dir ∨ Admitted admits top dir) (hfuel : maxPath ≤ fuel + dir.length)
    (hshort : (pathOf dir).text.length < maxPath) (hI : I done value w)
    (hrun : (Walk.descend visit (fun _ e => throw e) fuel (pathOf dir) (d.children dir) value).run w =
      .ok value' w') :
    I (done ++ d.tour admits dir) value' w' ∧ IsReadable d (d.tour admits dir) := by
  induction fuel generalizing dir done value w value' w' with
  | zero =>
    -- a directory this deep has too long a path
    have hlength := le_length_pathOf (isDescent_of_isDirectoryAt hdir)
    omega
  | succ fuel ih =>
    rw [descend_succ] at hrun
    rw [tour_eq]
    -- after some children, the steps of their tours are taken
    let block (child : Name × Kind) : List Location :=
      if admits (dir ++ [child.1]) then
        (dir ++ [child.1]) :: d.tour admits (dir ++ [child.1])
      else []
    refine Task.foldlM_eq_ok (J := fun children value w => I (done ++ children.flatMap block) value w ∧
      IsReadable d (children.flatMap block)) ?_ (by simpa [IsReadable] using hI) hrun
    rintro before ⟨name, kind⟩ value₀ w₀ value₁ w₁ hchild ⟨hbefore, hread⟩ hmeet
    obtain ⟨e, he, hkind⟩ := mem_children.mp hchild
    obtain rfl : e.kind = kind := hkind
    rw [entryPath_pathOf he] at hmeet
    rw [List.flatMap_append, List.flatMap_singleton, ← List.append_assoc]
    by_cases hadmits : admits (dir ++ [name]) = true
    · have hx : Admitted admits top (dir ++ [name]) := Admitted.concat hway hadmits
      rw [show block (name, e.kind) = _ from if_pos hadmits]
      have hmet := h.meet_of_admitted he hx hbefore (fun hthere hlength hstep hnext => by
        refine ih hthere (.inr hx) ?_ hlength hstep hnext
        rw [List.length_append, List.length_singleton]
        omega) hmeet
      exact ⟨hmet.1, List.forall_mem_append.mpr ⟨hread, hmet.2⟩⟩
    · have hpassed : admits (dir ++ [name]) = false := by simpa using hadmits
      have hbelow : top <+: dir ++ [name] := (prefix_of_way hway).trans (List.prefix_append dir _)
      rw [show block (name, e.kind) = [] from if_neg hadmits, List.append_nil, List.append_nil]
      exact ⟨h.meet_of_not_admitted he hbelow hpassed hbefore hmeet, hread⟩

end Guides

/-- A walk that starts found a directory at its root, or something that is none. -/
theorem rootListing_eq_ok {p : Path} {listing : Option (List (Name × Kind))} (hp : p.Spells top)
    (hplain : d.IsPlain top) (h : rootListing d p = .ok listing) :
    (∃ children, listing = some children ∧ isDirectoryAt d.table top = true ∧
      d.list p = .ok children) ∨ (listing = none ∧ isDirectoryAt d.table top ≠ true) := by
  rw [rootListing] at h
  cases hentry : d.entryItself p with
  | error fault =>
    rw [hentry] at h
    cases h
  | ok e =>
    have hthere := hp.get?_of_entryItself hplain hentry
    rw [hentry] at h
    cases e with
    | directory mode =>
      cases hlist : d.list p with
      | error fault =>
        rw [hlist] at h
        cases h
      | ok children =>
        rw [hlist] at h
        exact .inl ⟨children, (Except.ok.inj h).symm, isDirectoryAt_iff.mpr ⟨mode, hthere⟩, rfl⟩
    | file mode content =>
      refine .inr ⟨(Except.ok.inj h).symm, ?_⟩
      rw [isDirectoryAt_of_get? hthere]
      exact Bool.false_ne_true
    | link target => exact absurd hthere (hplain top (List.prefix_refl top) target)

/-- What is in the root is what is listed in the place that it leads to. -/
theorem rootListing_of_find {p : Path} (h : d.find true p = .ok top) :
    rootListing d p = .ok (if isDirectoryAt d.table top then some (d.children top) else none) := by
  obtain ⟨e, he, hkind⟩ := exists_unlinked_of_find h
  have hentry : d.entry p = .ok e := entry_eq_ok_iff.mpr ⟨top, h, he⟩
  have hlist : d.list p =
      if isDirectoryAt d.table top then .ok (d.children top) else .error .notDirectory := by
    rw [list, h]
    rfl
  have hthere : isDirectoryAt d.table top = e.isDirectory := isDirectoryAt_of_get? he
  -- the root is what it leads to, or a link there
  obtain ⟨y, hitself, hy⟩ := exists_find_of_find h
  have hself : d.entryItself p = .ok e ∨ ∃ target, d.entryItself p = .ok (.link target) := by
    rcases hy with rfl | ⟨target, htarget⟩
    · exact .inl (by simp [entryItself, hitself, Except.bind, he])
    · exact .inr ⟨target, by simp [entryItself, hitself, Except.bind, htarget]⟩
  cases e with
  | link target => exact absurd rfl hkind
  | directory mode =>
    replace hthere : isDirectoryAt d.table top = true := hthere
    rw [if_pos hthere] at hlist ⊢
    rcases hself with hself | ⟨target, hself⟩ <;> simp only [rootListing, hself, hentry, hlist, Except.map]
  | file mode content =>
    replace hthere : isDirectoryAt d.table top = false := hthere
    rw [hthere]
    rcases hself with hself | ⟨target, hself⟩ <;> simp only [rootListing, hself, hentry] <;> rfl

theorem length_of_rootListing {p : Path} {listing : Option (List (Name × Kind))}
    (h : rootListing d p = .ok listing) : p.text.length < maxPath := by
  rw [rootListing] at h
  cases hentry : d.entryItself p with
  | error fault =>
    rw [hentry] at h
    cases h
  | ok e =>
    obtain ⟨x, hfind, -⟩ := exists_of_bind_eq_ok hentry
    exact length_lt_of_find hfind

section

variable (h : Guides visit w.disk admits top I) (htop : IsDescent top) (hplain : w.disk.IsPlain top)
  (hI : I [] value w)
  (hrun : (Stencil.walkTree (pathOf top) visit (fun _ e => throw e) value).run w = .ok value' w')

include h htop hplain hI hrun

theorem Guides.walkTree_and_isReadable : I (w.disk.tour admits top) value' w' ∧
    (pathOf top).text.length < maxPath ∧ IsReadable w.disk (w.disk.tour admits top) := by
  have hspells : (pathOf top).Spells top := spells_pathOf htop
  obtain ⟨listing, wl, hlisting, h₁⟩ := Task.bind_eq_ok hrun
  obtain ⟨rfl, rfl⟩ := Task.look_eq_ok hlisting
  cases hroot : rootListing wl.disk (pathOf top) with
  | error fault =>
    rw [hroot] at h₁
    cases h₁
  | ok listing =>
    rw [hroot] at h₁
    have hshort := length_of_rootListing hroot
    rcases rootListing_eq_ok hspells hplain hroot with ⟨children, rfl, hdir, hlist⟩ | ⟨rfl, hfile⟩
    · obtain rfl := hspells.children_of_list hplain hlist
      obtain ⟨hwhole, hread⟩ := h.descend hdir (.inl rfl) (Nat.le_add_right _ _) hshort hI h₁
      exact ⟨hwhole, hshort, hread⟩
    · obtain ⟨rfl, rfl⟩ := Task.pure_eq_ok h₁
      rw [tour_eq_nil hfile]
      exact ⟨hI, hshort, List.forall_mem_nil _⟩

/-- **A walk is its tour**: a walk that succeeds takes the steps of the tour below its root, in the order
    of the tour. -/
theorem Guides.walkTree : I (w.disk.tour admits top) value' w' :=
  (h.walkTree_and_isReadable htop hplain hI hrun).1

/-- A walk that succeeds has read its root and all the directories of its tour. -/
theorem Guides.isReadable :
    (pathOf top).text.length < maxPath ∧ IsReadable w.disk (w.disk.tour admits top) :=
  (h.walkTree_and_isReadable htop hplain hI hrun).2

end

/-! ## Source trees -/

/-- Is the entry met by a walk through a source tree, neither under a path that is passed over nor left
    out by the rules? -/
def admitsSource (d : Disk) (top : Location) (skip : List Location) (rules : IgnoreRules)
    (x : Location) : Bool :=
  !skip.any (isBelow · x) &&
    match relativePath (pathOf top) (pathOf x) with
    | .ok relative => !rules.ignores relative (isDirectoryAt d.table x)
    | .error _ => false

variable {skip : List Location} {rules : IgnoreRules} {J : List Location → β → World → Prop}
  {visitEntry : β → Sighting → String → Task β}

theorem isBelow_iff {x : Location} : isBelow top x = true ↔ top <+: x := List.isPrefixOf_iff_prefix

/-- What is skipped lies under one of the paths that are passed over. -/
theorem any_isBelow_iff {x : Location} :
    skip.any (isBelow · x) = true ↔ ∃ s ∈ skip, s <+: x := by
  simp only [List.any_eq_true, isBelow_iff]

theorem any_isBelow_eq_false_iff {x : Location} :
    skip.any (isBelow · x) = false ↔ ∀ s ∈ skip, ¬ s <+: x := by
  rw [← Bool.not_eq_true, any_isBelow_iff, not_exists]
  exact forall_congr' fun s => not_and

/-- What a walk admits depends on the entries that it does not pass over. -/
theorem admitsSource_congr {d' : Disk}
    (h : ∀ x, (∀ s ∈ skip, ¬ s <+: x) → d.get? x = d'.get? x) (x : Location) :
    admitsSource d top skip rules x = admitsSource d' top skip rules x := by
  rw [admitsSource, admitsSource]
  cases hskip : skip.any (isBelow · x) with
  | true => rfl
  | false =>
    have hsame : isDirectoryAt d.table x = isDirectoryAt d'.table x :=
      congrArg (Option.any _) (h x (any_isBelow_eq_false_iff.mp hskip))
    rw [hsame]

/-- What is admitted lies beside all that is passed over. -/
theorem not_below_of_admits {s x : Location}
    (h : admitsSource d top skip rules x = true) (hs : s ∈ skip) : ¬ s <+: x := by
  intro hbelow
  rw [admitsSource, any_isBelow_iff.mpr ⟨s, hs, hbelow⟩] at h
  cases h

/-- Whether a path is passed over is a matter of its location. -/
theorem any_startsWith {x : Location} (hskip : ∀ s ∈ skip, IsDescent s) (hx : IsDescent x) :
    (skip.map pathOf).any (pathOf x).startsWith = skip.any (isBelow · x) := by
  rw [List.any_map, Bool.eq_iff_iff, List.any_eq_true, List.any_eq_true]
  refine exists_congr fun s => and_congr_right fun hs => ?_
  rw [isBelow_iff]
  exact (spells_pathOf hx).startsWith_iff (spells_pathOf (hskip s hs))

/-- What a step of the walk through a source tree comes to: nothing where the entry is not admitted,
    nothing but a warning at a link to a directory, and otherwise a visit. -/
theorem visitSource_eq_ok {x : Location} {e : Entry} {ignored ignored' : Nat} {enter : Bool}
    (hskip : ∀ s ∈ skip, IsDescent s) (he : d.get? x = some e)
    (hrun : (visitSource (pathOf top) (skip.map pathOf) rules visitEntry (value, ignored)
      ⟨pathOf x, e.kind⟩).run w = .ok ((value', ignored'), enter) w') :
    (admitsSource d top skip rules x = false ∧ enter = false ∧ value' = value ∧ w' = w) ∨
      ((∃ target, e = .link target) ∧ w.disk.isDirectory (pathOf x) = true ∧ enter = false ∧
        value' = value ∧ w'.disk = w.disk) ∨
      (admitsSource d top skip rules x = true ∧ enter = true ∧
        ∃ relative, relativePath (pathOf top) (pathOf x) = .ok relative ∧
          (visitEntry value ⟨pathOf x, e.kind⟩ relative).run w = .ok value' w') := by
  have hkind : decide (e.kind = .directory) = isDirectoryAt d.table x := by
    rw [isDirectoryAt_of_get? he, Bool.eq_iff_iff, decide_eq_true_eq]
    exact Entry.isDirectory_iff_kind.symm
  rw [visitSource] at hrun
  dsimp only at hrun
  rw [any_startsWith hskip (isDescent_of_get? he), hkind] at hrun
  rw [admitsSource]
  -- passed over, a link to a directory, left out by the rules, or visited
  cases hover : skip.any (isBelow · x) with
  | true =>
    rw [hover, if_pos rfl] at hrun
    obtain ⟨hanswer, rfl⟩ := Task.pure_eq_ok hrun
    cases hanswer
    exact .inl ⟨rfl, rfl, rfl, rfl⟩
  | false =>
    rw [hover, if_neg Bool.false_ne_true] at hrun
    obtain ⟨isFolder, wl, hlook, h₁⟩ := Task.bind_eq_ok hrun
    obtain ⟨hfolder, rfl⟩ := Task.look_eq_ok hlook
    by_cases hlinked : (decide (e.kind = .link) && isFolder) = true
    · rw [if_pos hlinked] at h₁
      obtain ⟨hlink, hthere⟩ := Bool.and_eq_true_iff.mp hlinked
      obtain ⟨u, we, hemit, h₂⟩ := Task.bind_eq_ok h₁
      obtain ⟨hanswer, rfl⟩ := Task.pure_eq_ok h₂
      cases hanswer
      have htarget : ∃ target, e = .link target := by
        cases e with
        | link target => exact ⟨target, rfl⟩
        | file mode content => cases hlink
        | directory mode => cases hlink
      exact .inr (.inl ⟨htarget, hfolder ▸ hthere, rfl, rfl, Task.emit_eq_ok hemit⟩)
    · rw [if_neg hlinked] at h₁
      obtain ⟨relative, wr, hanswer, h₂⟩ := Task.bind_eq_ok h₁
      obtain ⟨hrelative, rfl⟩ := Task.ofExcept_eq_ok hanswer
      rw [hrelative]
      cases hignored : rules.ignores relative (isDirectoryAt d.table x) with
      | true =>
        rw [hignored, if_pos rfl] at h₂
        obtain ⟨hend, rfl⟩ := Task.pure_eq_ok h₂
        cases hend
        exact .inl ⟨by simp [hignored], rfl, rfl, rfl⟩
      | false =>
        rw [hignored, if_neg Bool.false_ne_true] at h₂
        obtain ⟨value₁, w₁, hvisited, h₃⟩ := Task.bind_eq_ok h₂
        obtain ⟨hend, rfl⟩ := Task.pure_eq_ok h₃
        cases hend
        exact .inr (.inr ⟨by simp [hignored], rfl, relative, rfl, hvisited⟩)

/-- A visitor of the admitted entries leads the walk through a source tree.  Links to directories are
    passed by, with a warning. -/
theorem guides_visitSource (hskip : ∀ s ∈ skip, IsDescent s)
    (hvisit : ∀ {done value w x e relative value' w'}, J done value w → d.get? x = some e →
      Admitted (admitsSource d top skip rules) top x →
      relativePath (pathOf top) (pathOf x) = .ok relative →
      (visitEntry value ⟨pathOf x, e.kind⟩ relative).run w = .ok value' w' →
      J (done ++ [x]) value' w')
    (hlinked : ∀ {done value w x target w'}, J done value w → d.get? x = some (.link target) →
      top <+: x → w.disk.isDirectory (pathOf x) = true → w'.disk = w.disk →
      J done value w' ∧ J (done ++ [x]) value w')
    (hread : ∀ {done value w dir listing}, J done value w → isDirectoryAt d.table dir = true →
      (top = dir ∨ Admitted (admitsSource d top skip rules) top dir) →
      w.disk.list (pathOf dir) = .ok listing → listing = d.children dir) :
    Guides (visitSource (pathOf top) (skip.map pathOf) rules visitEntry) d
      (admitsSource d top skip rules) top (fun done r w => J done r.1 w) where
  visited := by
    rintro done ⟨value, ignored⟩ w x e ⟨value', ignored'⟩ enter w' hJ he hx hrun
    rcases visitSource_eq_ok hskip he hrun with
      ⟨hout, -⟩ | ⟨⟨target, rfl⟩, hfolder, -, rfl, hdisk⟩ | ⟨-, rfl, relative, hrelative, hvisited⟩
    · rw [hx.self] at hout
      cases hout
    · exact ⟨(hlinked hJ he hx.below hfolder hdisk).2, fun hkind => by cases hkind⟩
    · exact ⟨hvisit hJ he hx hrelative hvisited, fun _ => rfl⟩
  passed := by
    rintro done ⟨value, ignored⟩ w x e ⟨value', ignored'⟩ enter w' hJ he hbelow hx hrun
    rcases visitSource_eq_ok hskip he hrun with
      ⟨-, rfl, rfl, rfl⟩ | ⟨⟨target, rfl⟩, hfolder, rfl, rfl, hdisk⟩ | ⟨hin, -⟩
    · exact ⟨hJ, fun _ => rfl⟩
    · exact ⟨(hlinked hJ he hbelow hfolder hdisk).1, fun _ => rfl⟩
    · rw [hx] at hin
      cases hin
  read := fun hJ hdir hway hlist => hread hJ hdir hway hlist

/-- **A walk through a source tree is its tour** of the admitted entries. -/
theorem walkSource_eq_ok {ignored : Nat} (hplain : w.disk.IsPlain top) (htop : IsDescent top)
    (hskip : ∀ s ∈ skip, IsDescent s)
    (hvisit : ∀ {done value w₁ x e relative value' w₂}, J done value w₁ → w.disk.get? x = some e →
      Admitted (admitsSource w.disk top skip rules) top x →
      relativePath (pathOf top) (pathOf x) = .ok relative →
      (visitEntry value ⟨pathOf x, e.kind⟩ relative).run w₁ = .ok value' w₂ →
      J (done ++ [x]) value' w₂)
    (hlinked : ∀ {done value w₁ x target w₂}, J done value w₁ →
      w.disk.get? x = some (.link target) → top <+: x → w₁.disk.isDirectory (pathOf x) = true →
      w₂.disk = w₁.disk → J done value w₂ ∧ J (done ++ [x]) value w₂)
    (hread : ∀ {done value w₁ dir listing}, J done value w₁ →
      isDirectoryAt w.disk.table dir = true →
      (top = dir ∨ Admitted (admitsSource w.disk top skip rules) top dir) →
      w₁.disk.list (pathOf dir) = .ok listing → listing = w.disk.children dir)
    (hJ : J [] value w)
    (hrun : (walkSource (pathOf top) (skip.map pathOf) rules visitEntry value).run w =
      .ok (value', ignored) w') :
    J (w.disk.tour (admitsSource w.disk top skip rules) top) value' w' := by
  have hguides : Guides (visitSource (pathOf top) (skip.map pathOf) rules visitEntry) w.disk
      (admitsSource w.disk top skip rules) top (fun done r w => J done r.1 w) :=
    guides_visitSource hskip hvisit hlinked hread
  have hstart : (fun done (r : β × Nat) w => J done r.1 w) [] (value, 0) w := hJ
  exact hguides.walkTree htop hplain hstart hrun

end Stencil.Walk
