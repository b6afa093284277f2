/-
  Where paths lead.

  `Leads d follow loc pieces place` says, one rule a piece, that the pieces of a path lead from `loc` to
  `place`.  Every lookup that succeeds does so by these rules (`leads_of_resolve`); what a lookup finds
  is there, and a free place that it leads to is a proper name in a directory (`Leads.confirmed`).

  A path that spells a location leads there and nowhere else, unless it comes upon a symbolic link
  (`Spells.location_of_locate`).  `IsPlain d loc` says that there is no link from the root to `loc`.  Two
  disks on which the same lies from the root to `loc` answer alike along such a path
  (`Spells.locate_congr`).
-/
import Stencil.Proofs.Disk.Entries
import Stencil.Proofs.Path.Names

namespace Stencil

/-- The location that a path leads to, taken or free. -/
def Place.location : Place → Location
  | found loc => loc
  | vacant loc _ => loc

/-! ## Answers -/

/-- A step that succeeds, with the one behind it, had an answer to go on with. -/
theorem exists_of_bind_eq_ok {α β : Type} {r : Except Fault α} {f : α → Except Fault β} {b : β}
    (h : r.bind f = .ok b) : ∃ a, r = .ok a ∧ f a = .ok b := by
  cases r with
  | error fault => cases h
  | ok a => exact ⟨a, rfl, h⟩

/-- An answer that was put in another form was there before. -/
theorem exists_of_map_eq_ok {α β : Type} {r : Except Fault α} {f : α → β} {b : β}
    (h : r.map f = .ok b) : ∃ a, r = .ok a ∧ f a = b := by
  cases r with
  | error fault => cases h
  | ok a => exact ⟨a, rfl, Except.ok.inj h⟩

namespace Disk

open Path

variable {d d' : Disk} {follow : Bool} {links : Nat} {loc : Location} {piece : Bytes}
  {rest ps : List Bytes} {place : Place} {p : Path}

/-! ## The path of what lies somewhere -/

/-- All that lies on a disk lies under proper names. -/
theorem isDescent_of_get? {e : Entry} (h : d.get? loc = some e) : IsDescent loc :=
  isDescent_of_isProper (isProper_of_get? h)

theorem isDescent_of_isDirectoryAt (h : isDirectoryAt d.table loc = true) : IsDescent loc := by
  obtain ⟨mode, hmode⟩ := isDirectoryAt_iff.mp h
  exact isDescent_of_get? hmode

/-- What lies on a disk has a path that spells its location. -/
theorem spells_of_get? {e : Entry} (h : d.get? loc = some e) : (pathOf loc).Spells loc :=
  spells_pathOf (isDescent_of_get? h)

/-! ## The rules -/

/-- The pieces of a path lead from a location to a place.  `follow`: is a link at the end followed? -/
inductive Leads (d : Disk) (follow : Bool) : Location → List Bytes → Place → Prop
  /-- Behind the last piece one is there. -/
  | here (loc : Location) : Leads d follow loc [] (.found loc)
  | idle {loc : Location} {piece : Bytes} {rest : List Bytes} {place : Place}
      (dir : isDirectoryAt d.table loc = true) (silent : isIdle piece = true)
      (next : Leads d follow loc rest place) : Leads d follow loc (piece :: rest) place
  | up {loc : Location} {rest : List Bytes} {place : Place}
      (dir : isDirectoryAt d.table loc = true)
      (next : Leads d follow loc.dropLast rest place) : Leads d follow loc (back :: rest) place
  /-- A last name under which nothing lies. -/
  | free {loc : Location} {piece : Bytes} {rest : List Bytes}
      (dir : isDirectoryAt d.table loc = true) (proper : isEntryName piece = true)
      (none : d.get? (loc ++ [piece]) = none) (last : rest.all List.isEmpty = true) :
      Leads d follow loc (piece :: rest) (.vacant (loc ++ [piece]) (!rest.isEmpty))
  /-- A link that is wanted itself. -/
  | itself {loc : Location} {piece target : Bytes} (dir : isDirectoryAt d.table loc = true)
      (link : d.get? (loc ++ [piece]) = some (.link target)) (stays : follow = false) :
      Leads d follow loc [piece] (.found (loc ++ [piece]))
  /-- Behind a link its target comes next. -/
  | link {loc : Location} {piece target : Bytes} {rest : List Bytes} {place : Place}
      (dir : isDirectoryAt d.table loc = true) (proper : isEntryName piece = true)
      (link : d.get? (loc ++ [piece]) = some (.link target))
      (next : Leads d follow (startOf target loc) (pieces target ++ rest) place) :
      Leads d follow loc (piece :: rest) place
  | down {loc : Location} {piece : Bytes} {rest : List Bytes} {place : Place} {e : Entry}
      (dir : isDirectoryAt d.table loc = true) (proper : isEntryName piece = true)
      (there : d.get? (loc ++ [piece]) = some e) (unlinked : e.kind ≠ .link)
      (next : Leads d follow (loc ++ [piece]) rest place) : Leads d follow loc (piece :: rest) place

/-- A lookup that succeeds between two links does so by the rules, if it does so behind each link it
    follows. -/
theorem leads_of_advance {expand : Location → List Bytes → Except Fault Place}
    (hexpand : ∀ loc ps place, expand loc ps = .ok place → Leads d follow loc ps place)
    (h : advance d follow expand loc ps = .ok place) : Leads d follow loc ps place := by
  -- the branches of `advance` that do not fail are the rules, in their order
  induction ps generalizing loc with
  | nil =>
    obtain rfl := Except.ok.inj h
    exact .here loc
  | cons piece rest ih =>
    rw [advance] at h
    by_cases hdir : isDirectoryAt d.table loc = true
    swap
    · simp [hdir] at h
    by_cases hidle : isIdle piece = true
    · simp only [hdir, hidle, Bool.not_true, Bool.false_eq_true, if_false, if_true] at h
      exact .idle hdir hidle (ih h)
    by_cases hback : piece = Path.back
    · subst hback
      simp only [hdir, hidle, Bool.not_true, Bool.false_eq_true, if_false, if_true] at h
      exact .up hdir (ih h)
    by_cases hlong : 255 < piece.length
    · simp [hdir, hidle, hback, hlong] at h
    by_cases hproper : isEntryName piece = true
    swap
    · simp [hdir, hidle, hback, hlong, hproper] at h
    simp only [hdir, hidle, hback, hlong, hproper, Bool.not_true, Bool.false_eq_true,
      if_false] at h
    cases hentry : d.get? (loc ++ [piece]) with
    | none =>
      simp only [hentry] at h
      by_cases hlast : rest.all List.isEmpty = true
      · rw [if_pos hlast] at h
        obtain rfl := Except.ok.inj h
        exact .free hdir hproper hentry hlast
      · rw [if_neg hlast] at h
        cases h
    | some e =>
      cases e with
      | link target =>
        simp only [hentry] at h
        by_cases hend : (rest.isEmpty && !follow) = true
        · rw [if_pos hend] at h
          obtain rfl := Except.ok.inj h
          obtain ⟨hrest, hstays⟩ := Bool.and_eq_true_iff.mp hend
          obtain rfl := List.isEmpty_iff.mp hrest
          exact .itself hdir hentry (by simpa using hstays)
        · rw [if_neg hend] at h
          exact .link hdir hproper hentry (hexpand _ _ _ h)
      | file mode content =>
        simp only [hentry] at h
        exact .down hdir hproper hentry Kind.noConfusion (ih h)
      | directory mode =>
        simp only [hentry] at h
        exact .down hdir hproper hentry Kind.noConfusion (ih h)

/-- A lookup that succeeds does so by the rules, by induction on the links that may be followed. -/
theorem leads_of_resolve (h : resolve d follow links loc ps = .ok place) :
    Leads d follow loc ps place := by
  induction links generalizing loc ps place with
  | zero => exact leads_of_advance (fun _ _ _ hloop => by cases hloop) h
  | succ links ih => exact leads_of_advance (fun _ _ _ hnext => ih hnext) h

/-- The path leads from the root or the working directory to the place. -/
def LeadsTo (d : Disk) (follow : Bool) (p : Path) (place : Place) : Prop :=
  Leads d follow (startOf p.text d.here) (pieces p.text) place

/-- A path that was looked up leads to where it was found to lead. -/
theorem leadsTo_of_locate (h : d.locate follow p = .ok place) : d.LeadsTo follow p place := by
  rw [locate] at h
  split at h
  · cases h
  · split at h
    · cases h
    · split at h
      · cases h
      · exact leads_of_resolve h

/-- A path is followed from its start whatever its length, unless it is empty or has a zero byte in it. -/
theorem reach_eq_ok_iff : d.reach p = .ok loc ↔ p.text.contains 0 = false ∧ p.text.isEmpty = false ∧
    resolve d true maxLinks (startOf p.text d.here) (pieces p.text) = .ok (.found loc) := by
  rw [reach]
  cases p.text.contains 0 with
  | true => simp
  | false =>
    cases p.text.isEmpty with
    | true => simp
    | false =>
      cases resolve d true maxLinks (startOf p.text d.here) (pieces p.text) with
      | error fault => simp
      | ok place => cases place <;> simp

/-- What is reached is what the path leads to when its links are followed. -/
theorem leadsTo_of_reach (h : d.reach p = .ok loc) : d.LeadsTo true p (.found loc) :=
  leads_of_resolve (reach_eq_ok_iff.mp h).2.2

/-- As a list of none or one, the location that a path reaches. -/
theorem mem_toList_reach {s : Location} : s ∈ (d.reach p).toOption.toList ↔ d.reach p = .ok s := by
  cases d.reach p <;> simp [Except.toOption, eq_comm]

/-- The path of what a path reaches, if it reaches anything. -/
theorem toList_realPath (d : Disk) (p : Path) :
    (d.realPath p).toOption.toList = (d.reach p).toOption.toList.map pathOf := by
  rw [realPath]
  cases d.reach p <;> rfl

/-- A path that is short enough to be looked up reaches what it leads to. -/
theorem reach_eq_find (h : p.text.length < maxPath) : d.reach p = d.find true p := by
  rw [reach, find, locate]
  by_cases hnul : p.text.contains 0 = true
  · rw [if_pos hnul, if_pos hnul]
  rw [if_neg hnul, if_neg hnul]
  by_cases hempty : p.text.isEmpty = true
  · rw [if_pos hempty, if_pos hempty]
  rw [if_neg hempty, if_neg hempty, if_neg (Nat.not_le_of_lt h)]

/-- What is found is a place that is taken. -/
theorem find_eq_ok_iff : d.find follow p = .ok loc ↔ d.locate follow p = .ok (.found loc) := by
  rw [find]
  cases d.locate follow p with
  | error fault => simp
  | ok place => cases place <;> simp

/-- What a lookup does at a name in a directory. -/
theorem advance_of_isEntryName {expand : Location → List Bytes → Except Fault Place}
    (hdir : isDirectoryAt d.table loc = true) (hname : isEntryName piece = true) :
    advance d follow expand loc (piece :: rest) =
      match d.get? (loc ++ [piece]) with
      | none =>
        if rest.all List.isEmpty then .ok (.vacant (loc ++ [piece]) (!rest.isEmpty)) else .error .notFound
      | some (.link target) =>
        if rest.isEmpty && !follow then .ok (.found (loc ++ [piece]))
        else expand (startOf target loc) (pieces target ++ rest)
      | some _ => advance d follow expand (loc ++ [piece]) rest := by
  have hstep := isStep_of_isEntryName hname
  have honward : ¬ piece = [0x2E, 0x2E] := hstep.onward
  have hshort : ¬ 255 < piece.length := by
    simp only [isEntryName, Bool.and_eq_true, decide_eq_true_eq] at hname
    exact Nat.not_lt.mpr hname.2
  rw [advance, hdir, Bool.not_true, if_neg Bool.false_ne_true, hstep.speaks, if_neg Bool.false_ne_true,
    if_neg honward, if_neg hshort, hname, Bool.not_true]
  exact if_neg Bool.false_ne_true

/-! ## What is found is there -/

/-- Something lies at a place that was found, and nothing at a free one, which is a proper name in a
    directory. -/
inductive Confirmed (d : Disk) : Place → Prop
  | found {loc : Location} {e : Entry} (there : d.get? loc = some e) : Confirmed d (.found loc)
  | vacant {dir : Location} {name : Name} {slashed : Bool}
      (rooted : isDirectoryAt d.table dir = true) (proper : isEntryName name = true)
      (free : d.get? (dir ++ [name]) = none) : Confirmed d (.vacant (dir ++ [name]) slashed)

/-- **What the rules lead to is there**, by induction on them: each has looked up what it goes through. -/
theorem Leads.confirmed (h : Leads d follow loc ps place)
    (hstart : ps = [] → ∃ e, d.get? loc = some e) : Confirmed d place := by
  induction h with
  | here loc =>
    obtain ⟨e, he⟩ := hstart rfl
    exact .found he
  | idle dir _ _ ih =>
    obtain ⟨mode, hmode⟩ := isDirectoryAt_iff.mp dir
    exact ih fun _ => ⟨_, hmode⟩
  | up dir _ ih =>
    obtain ⟨mode, hmode⟩ := isDirectoryAt_iff.mp dir
    obtain ⟨mode, habove⟩ := isDirectoryAt_iff.mp (isDirectoryAt_dropLast hmode)
    exact ih fun _ => ⟨_, habove⟩
  | free dir proper none _ => exact .vacant dir proper none
  | itself _ link _ => exact .found link
  | @link loc _ target rest _ _ _ _ _ ih =>
    -- a target has at least one piece
    exact ih fun hnil => absurd (List.append_eq_nil_iff.mp hnil).1 (pieces_ne_nil target)
  | down _ _ there _ _ ih => exact ih fun _ => ⟨_, there⟩

/-- A path has at least one piece, so that nothing has to be known of where it starts. -/
theorem LeadsTo.confirmed (h : d.LeadsTo follow p place) : Confirmed d place :=
  Leads.confirmed h fun hnil => absurd hnil (pieces_ne_nil _)

/-- Something lies where a path was found to lead. -/
theorem exists_get?_of_find (h : d.find follow p = .ok loc) : ∃ e, d.get? loc = some e := by
  cases (leadsTo_of_locate (find_eq_ok_iff.mp h)).confirmed with
  | found there => exact ⟨_, there⟩

/-- Something lies at the location that a path reaches. -/
theorem exists_get?_of_reach (h : d.reach p = .ok loc) : ∃ e, d.get? loc = some e := by
  cases (leadsTo_of_reach h).confirmed with
  | found there => exact ⟨_, there⟩

/-- A link is not where a path leads whose links are followed. -/
theorem Leads.unlinked (h : Leads d true loc ps place)
    (hstart : ps = [] → ∃ e, d.get? loc = some e ∧ e.kind ≠ .link) {x : Location}
    (hplace : place = .found x) : ∃ e, d.get? x = some e ∧ e.kind ≠ .link := by
  have hdirectory : ∀ {y}, isDirectoryAt d.table y = true →
      ∃ e, d.get? y = some e ∧ e.kind ≠ .link := by
    intro y hy
    obtain ⟨mode, hmode⟩ := isDirectoryAt_iff.mp hy
    exact ⟨_, hmode, Kind.noConfusion⟩
  induction h with
  | here loc =>
    obtain rfl := Place.found.inj hplace
    exact hstart rfl
  | idle dir _ _ ih => exact ih (fun _ => hdirectory dir) hplace
  | up dir _ ih =>
    obtain ⟨mode, hmode⟩ := isDirectoryAt_iff.mp dir
    exact ih (fun _ => hdirectory (isDirectoryAt_dropLast hmode)) hplace
  | free => cases hplace
  | itself _ _ stays => cases stays
  | @link loc _ target rest _ _ _ _ _ ih =>
    exact ih (fun hnil => absurd (List.append_eq_nil_iff.mp hnil).1 (pieces_ne_nil target)) hplace
  | down _ _ there unlinked _ ih => exact ih (fun _ => ⟨_, there, unlinked⟩) hplace

/-- What is found through all links is not a link. -/
theorem exists_unlinked_of_find {x : Location} (h : d.find true p = .ok x) :
    ∃ e, d.get? x = some e ∧ e.kind ≠ .link :=
  Leads.unlinked (leadsTo_of_locate (find_eq_ok_iff.mp h))
    (fun hnil => absurd hnil (pieces_ne_nil _)) rfl

theorem exists_unlinked_of_reach {x : Location} (h : d.reach p = .ok x) :
    ∃ e, d.get? x = some e ∧ e.kind ≠ .link :=
  Leads.unlinked (leadsTo_of_reach h) (fun hnil => absurd hnil (pieces_ne_nil _)) rfl

/-- Longer paths lead nowhere. -/
theorem length_lt_of_find {x : Location} (h : d.find follow p = .ok x) : p.text.length < maxPath := by
  rw [find_eq_ok_iff, locate] at h
  split at h
  · cases h
  split at h
  · cases h
  split at h
  · cases h
  · omega

/-- What is found is reached: the length of a path is all that a lookup asks for besides. -/
theorem reach_of_find {x : Location} (h : d.find true p = .ok x) : d.reach p = .ok x :=
  (reach_eq_find (length_lt_of_find h)).trans h

/-- What is found behind a path whose links are followed is found, itself or a link to it, where the last
    link is not followed. -/
theorem advance_of_followed {expand expand' : Location → List Bytes → Except Fault Place} {x : Location}
    (hexpand : ∀ loc ps x, expand loc ps = .ok (.found x) → ∃ y, expand' loc ps = .ok (.found y) ∧
      (y = x ∨ ∃ target, d.get? y = some (.link target)))
    (h : advance d true expand loc ps = .ok (.found x)) :
    ∃ y, advance d false expand' loc ps = .ok (.found y) ∧
      (y = x ∨ ∃ target, d.get? y = some (.link target)) := by
  induction ps generalizing loc with
  | nil => exact ⟨loc, rfl, .inl (Place.found.inj (Except.ok.inj h))⟩
  | cons piece rest ih =>
    rw [advance] at h ⊢
    by_cases hdir : (!isDirectoryAt d.table loc) = true
    · rw [if_pos hdir] at h
      cases h
    rw [if_neg hdir] at h ⊢
    by_cases hidle : isIdle piece = true
    · rw [if_pos hidle] at h ⊢
      exact ih h
    rw [if_neg hidle] at h ⊢
    by_cases hback : piece = Path.back
    · rw [if_pos hback] at h ⊢
      exact ih h
    rw [if_neg hback] at h ⊢
    by_cases hlong : 255 < piece.length
    · rw [if_pos hlong] at h
      cases h
    rw [if_neg hlong] at h ⊢
    by_cases hnul : (!isEntryName piece) = true
    · rw [if_pos hnul] at h
      cases h
    rw [if_neg hnul] at h ⊢
    cases hentry : d.get? (loc ++ [piece]) with
    | none =>
      simp only [hentry] at h
      split at h <;> cases h
    | some e =>
      cases e with
      | file mode content =>
        simp only [hentry] at h ⊢
        exact ih h
      | directory mode =>
        simp only [hentry] at h ⊢
        exact ih h
      | link target =>
        -- a link at the end is found itself, any other is followed as before
        simp only [hentry, Bool.not_true, Bool.and_false, Bool.false_eq_true, if_false] at h
        simp only [Bool.not_false, Bool.and_true]
        split
        · exact ⟨_, rfl, .inr ⟨target, hentry⟩⟩
        · exact hexpand _ _ _ h

/-- Where a path leads somewhere through all links, it leads somewhere also when the last link is not
    followed: there, or to a link. -/
theorem exists_find_of_find {x : Location} (h : d.find true p = .ok x) :
    ∃ y, d.find false p = .ok y ∧ (y = x ∨ ∃ target, d.get? y = some (.link target)) := by
  have hresolve : ∀ links loc ps x, resolve d true links loc ps = .ok (.found x) →
      ∃ y, resolve d false links loc ps = .ok (.found y) ∧
        (y = x ∨ ∃ target, d.get? y = some (.link target)) := by
    intro links
    induction links with
    | zero => exact fun _ _ _ hfound => advance_of_followed (fun _ _ _ hloop => by cases hloop) hfound
    | succ links ih => exact fun _ _ _ hfound => advance_of_followed ih hfound
  rw [find_eq_ok_iff, locate] at h
  simp only [find_eq_ok_iff, locate]
  split at h
  · cases h
  rw [if_neg ‹_›]
  split at h
  · cases h
  rw [if_neg ‹_›]
  split at h
  · cases h
  rw [if_neg ‹_›]
  exact hresolve _ _ _ _ h

/-- The entry of a path is what lies where it leads through all links. -/
theorem entry_eq_ok_iff {e : Entry} :
    d.entry p = .ok e ↔ ∃ loc, d.find true p = .ok loc ∧ d.get? loc = some e := by
  rw [entry]
  cases hfind : d.find true p with
  | error fault => simp [Except.bind]
  | ok loc =>
    obtain ⟨e', he'⟩ := exists_get?_of_find hfind
    simp [Except.bind, he']

/-- What is read is the content of a file. -/
theorem exists_entry_of_read {content : Bytes} (h : d.read p = .ok content) :
    ∃ mode, d.entry p = .ok (.file mode content) := by
  rw [Disk.read] at h
  split at h
  · rename_i mode bytes hentry
    cases h
    exact ⟨mode, hentry⟩
  · cases h
  · cases h
  · cases h

/-- The text of a file that is found is read. -/
theorem readText_of_find {mode : Mode} {content : Bytes} {text : String} (hfound : d.find true p = .ok loc)
    (hfile : d.get? loc = some (.file mode content)) (htext : Bytes.toString? content = some text) :
    d.readText p = .ok text := by
  have hread : d.read p = .ok content := by
    rw [Disk.read, entry_eq_ok_iff.mpr ⟨loc, hfound, hfile⟩]
  rw [Disk.readText, hread]
  simp only [Except.bind, htext]

theorem isFile_of_find {mode : Mode} {content : Bytes} (hfound : d.find true p = .ok loc)
    (hfile : d.get? loc = some (.file mode content)) : d.isFile p = true := by
  rw [isFile, entry_eq_ok_iff.mpr ⟨loc, hfound, hfile⟩]

/-- A path is there when it leads somewhere: links that lead nowhere are not. -/
theorem exists_find_of_isThere (h : d.isThere p = true) : ∃ loc, d.find true p = .ok loc := by
  rw [isThere] at h
  cases hentry : d.entry p with
  | error fault =>
    rw [hentry] at h
    cases h
  | ok e =>
    obtain ⟨loc, hfound, -⟩ := entry_eq_ok_iff.mp hentry
    exact ⟨loc, hfound⟩

/-- Where there is no entry, not even a link that leads nowhere, a path leads nowhere. -/
theorem find_ne_ok_of_entryItself {fault : Fault} (h : d.entryItself p = .error fault)
    (loc : Location) : d.find true p ≠ .ok loc := by
  intro hfollowed
  obtain ⟨y, hfound, -⟩ := exists_find_of_find hfollowed
  obtain ⟨e, he⟩ := exists_get?_of_find hfound
  simp [entryItself, hfound, Except.bind, he] at h

/-- A canonical path spells the place that the path was found to lead to. -/
theorem canonical_eq_ok {root : Path} (h : d.canonical p = .ok root) :
    ∃ loc, d.find true p = .ok loc ∧ root = pathOf loc := by
  obtain ⟨loc, hfind, hroot⟩ := exists_of_map_eq_ok h
  exact ⟨loc, hfind, hroot.symm⟩

/-- A real path spells the place that its own path leads to. -/
theorem realPath_eq_ok {root : Path} (h : d.realPath p = .ok root) :
    ∃ loc, d.reach p = .ok loc ∧ root = pathOf loc := by
  obtain ⟨loc, hreach, hroot⟩ := exists_of_map_eq_ok h
  exact ⟨loc, hreach, hroot.symm⟩

/-! ## Paths without links and steps back -/

/-- There is no symbolic link from the root to the location. -/
def IsPlain (d : Disk) (loc : Location) : Prop :=
  ∀ q, q <+: loc → ∀ target, d.get? q ≠ some (.link target)

/-- There is no symbolic link on the disk. -/
def IsLinkless (d : Disk) : Prop := ∀ loc target, d.get? loc ≠ some (.link target)

/-- No link lies where no target of one is found. -/
theorem kind_ne_link {e : Entry} (h : ∀ target, d.get? loc ≠ some (.link target))
    (he : d.get? loc = some e) : e.kind ≠ .link := by
  intro hlink
  cases e with
  | link target => exact h target he
  | file mode content => cases hlink
  | directory mode => cases hlink

/-- What holds of all that the table lists holds of whatever lies below the root. -/
theorem of_all_table {f : Location × Entry → Bool} {e : Entry} (h : d.table.all f = true)
    (hne : loc ≠ []) (he : d.get? loc = some e) : f (loc, e) = true := by
  rw [get?_of_ne_nil hne, lookup_eq_some_iff_mem d.sound.nodup] at he
  exact List.all_eq_true.mp h _ he

/-- That there is no link on a given disk can be seen from its table, entry by entry. -/
theorem isLinkless_of_all (h : (d.table.all fun e => e.2.kind != .link) = true) : d.IsLinkless := by
  intro loc target hloc
  by_cases hne : loc = []
  · rw [hne, get?_nil] at hloc
    cases hloc
  · have hkind := of_all_table h hne hloc
    cases hkind

/-- Two directories with a file of the same name in each. -/
def twoFolders : Disk :=
  let folder (name : String) (content : Bytes) (d : Disk) : Disk :=
    (d.put [Bytes.ofString name] (.directory Entry.directoryMode)).put
      [Bytes.ofString name, Bytes.ofString "a"] (.file Entry.fileMode content)
  folder "old" [2] (folder "src" [1] empty)

theorem isLinkless_twoFolders : twoFolders.IsLinkless := isLinkless_of_all (by decide +kernel)

/-- On a disk without links every way is plain. -/
theorem IsLinkless.isPlain (h : d.IsLinkless) (loc : Location) : d.IsPlain loc := fun q _ => h q

/-- Where something other than a link lies, there is no link on the way. -/
theorem isPlain_of_get? {e : Entry} (he : d.get? loc = some e) (hkind : e.kind ≠ .link) :
    d.IsPlain loc := by
  intro q hq target htarget
  by_cases heq : q = loc
  · rw [heq, he] at htarget
    obtain rfl := Option.some.inj htarget
    exact hkind rfl
  · obtain ⟨mode, hmode⟩ := isDirectoryAt_iff.mp (isDirectoryAt_above he hq heq)
    rw [htarget] at hmode
    cases hmode

theorem spoken_cons_of_isEntryName (h : isEntryName piece = true) :
    spoken (piece :: rest) = piece :: spoken rest := by
  rw [spoken, List.filter_cons, if_pos (by rw [(isStep_of_isEntryName h).speaks]; rfl)]
  rfl

/-- **On a plain way the names that a path speaks are the way it takes**, by induction on the rules: there
    is no step back, and no link is met. -/
theorem Leads.location_eq (h : Leads d follow loc ps place) (hback : back ∉ ps)
    (hplain : d.IsPlain (loc ++ spoken ps)) : place.location = loc ++ spoken ps := by
  induction h with
  | here loc => exact (List.append_nil loc).symm
  | @idle loc piece rest place _ silent _ ih =>
    have hspoken : spoken (piece :: rest) = spoken rest := by simp [spoken, silent]
    rw [hspoken] at hplain ⊢
    exact ih (fun hmem => hback (List.mem_cons_of_mem _ hmem)) hplain
  | up => exact absurd List.mem_cons_self hback
  | @free loc piece rest _ proper _ last =>
    have hrest : spoken rest = [] := by
      rw [spoken, List.filter_eq_nil_iff]
      intro x hx
      have hempty := List.all_eq_true.mp last x hx
      rw [List.isEmpty_iff.mp hempty]
      decide
    rw [spoken_cons_of_isEntryName proper, hrest]
    rfl
  | @itself loc piece target _ link _ =>
    have hproper : IsStep piece :=
      isDescent_of_get? link piece (by simp)
    rw [spoken, List.filter_cons, if_pos (by rw [hproper.speaks]; rfl)]
    rfl
  | @link loc piece target rest _ _ proper link _ _ =>
    -- on a plain way there is none
    refine absurd link (hplain _ ?_ target)
    rw [spoken_cons_of_isEntryName proper]
    exact (List.prefix_append_right_inj loc).mpr (List.prefix_append [piece] _)
  | @down loc piece rest place e _ proper _ _ _ ih =>
    rw [spoken_cons_of_isEntryName proper, List.append_cons] at hplain ⊢
    exact ih (fun hmem => hback (List.mem_cons_of_mem _ hmem)) hplain

/-- The same lies on both disks from the root to the location. -/
def AgreeTo (d d' : Disk) (loc : Location) : Prop := ∀ q, q <+: loc → d.get? q = d'.get? q

/-- Directories on the way are the same on both disks. -/
theorem AgreeTo.isDirectoryAt_eq {q : Location} (h : AgreeTo d d' loc) (hq : q <+: loc) :
    isDirectoryAt d.table q = isDirectoryAt d'.table q := congrArg (Option.any _) (h q hq)

/-- A lookup on a plain way asks for what lies there and nothing else. By induction on the pieces that
    are left; where they lead behind a link makes no difference, since none is met. -/
theorem advance_congr {expand expand' : Location → List Bytes → Except Fault Place}
    (hback : back ∉ ps) (hplain : d.IsPlain (loc ++ spoken ps))
    (hagree : AgreeTo d d' (loc ++ spoken ps)) :
    advance d follow expand loc ps = advance d' follow expand' loc ps := by
  induction ps generalizing loc with
  | nil => rfl
  | cons piece rest ih =>
    have hrest : back ∉ rest := fun hmem => hback (List.mem_cons_of_mem piece hmem)
    have hpiece : piece ≠ back := fun heq => hback (heq ▸ List.mem_cons_self)
    rw [advance, advance, hagree.isDirectoryAt_eq (List.prefix_append loc _)]
    cases hidle : isIdle piece with
    | true =>
      have hspoken : spoken (piece :: rest) = spoken rest := by simp [spoken, hidle]
      rw [hspoken] at hplain hagree
      rw [if_pos rfl, if_pos rfl, ih hrest hplain hagree]
    | false =>
      have hspoken : loc ++ spoken (piece :: rest) = loc ++ [piece] ++ spoken rest := by
        simp [spoken, hidle]
      rw [hspoken] at hplain hagree
      have hunlinked := hplain (loc ++ [piece]) (List.prefix_append _ _)
      rw [← hagree (loc ++ [piece]) (List.prefix_append _ _)]
      simp only [Bool.false_eq_true, if_false, if_neg hpiece]
      cases hentry : d.get? (loc ++ [piece]) with
      | none => rfl
      | some e =>
        cases e with
        | link target => exact absurd hentry (hunlinked target)
        | file mode content =>
          simp only []
          rw [ih hrest hplain hagree]
        | directory mode =>
          simp only []
          rw [ih hrest hplain hagree]

end Disk

namespace Path.Spells

open Disk

variable {d d' : Disk} {follow : Bool} {loc x : Location} {place : Place} {p : Path} {e : Entry}

/-- A path that spells a location starts at the root, wherever the working directory is. -/
theorem startOf_eq (hp : p.Spells loc) (here : Location) : startOf p.text here = [] :=
  if_pos hp.absolute

theorem back_not_mem_pieces (hp : p.Spells loc) : back ∉ pieces p.text :=
  Path.back_not_mem_pieces hp.back_not_mem_names

/-- Without links, a path leads where it says. -/
theorem location_of_leadsTo (hp : p.Spells loc) (hplain : d.IsPlain loc)
    (h : d.LeadsTo follow p place) : place.location = loc := by
  have hloc : [] ++ spoken (pieces p.text) = loc := hp.names
  rw [LeadsTo, hp.startOf_eq] at h
  rw [h.location_eq hp.back_not_mem_pieces (hloc.symm ▸ hplain), hloc]

/-- So does a path that is looked up. -/
theorem location_of_locate (hp : p.Spells loc) (hplain : d.IsPlain loc)
    (h : d.locate follow p = .ok place) : place.location = loc :=
  hp.location_of_leadsTo hplain (leadsTo_of_locate h)

/-- Without links a path is found to lead to the location that it spells. -/
theorem eq_of_find (hp : p.Spells loc) (hplain : d.IsPlain loc)
    (h : d.find follow p = .ok x) : x = loc :=
  hp.location_of_locate hplain (find_eq_ok_iff.mp h)

theorem eq_of_reach (hp : p.Spells loc) (hplain : d.IsPlain loc) (h : d.reach p = .ok x) : x = loc :=
  hp.location_of_leadsTo hplain (leadsTo_of_reach h)

/-- The entry of a path that spells a location is what lies there, if there is no link on the way. -/
theorem get?_of_entry (hp : p.Spells loc) (hplain : d.IsPlain loc) (h : d.entry p = .ok e) :
    d.get? loc = some e := by
  obtain ⟨x, hx, he⟩ := entry_eq_ok_iff.mp h
  exact hp.eq_of_find hplain hx ▸ he

theorem get?_of_entryItself (hp : p.Spells loc) (hplain : d.IsPlain loc)
    (h : d.entryItself p = .ok e) : d.get? loc = some e := by
  obtain ⟨x, hfind, hthere⟩ := exists_of_bind_eq_ok h
  obtain rfl := hp.eq_of_find hplain hfind
  cases hentry : d.get? x with
  | none =>
    rw [hentry] at hthere
    cases hthere
  | some e' =>
    rw [hentry] at hthere
    exact congrArg some (Except.ok.inj hthere)

/-- A directory that is asked for by its path is one in its place. -/
theorem isDirectoryAt_of_isDirectory (hp : p.Spells loc) (hplain : d.IsPlain loc)
    (h : d.isDirectory p = true) : isDirectoryAt d.table loc = true := by
  rw [Disk.isDirectory] at h
  cases hentry : d.entry p with
  | error fault =>
    rw [hentry] at h
    cases h
  | ok e =>
    rw [hentry] at h
    have hthere := hp.get?_of_entry hplain hentry
    rw [isDirectoryAt_of_get? hthere]
    exact h

/-- Only a file can be read. -/
theorem get?_of_read {content : Bytes} (hp : p.Spells loc) (hplain : d.IsPlain loc)
    (h : d.read p = .ok content) : ∃ mode, d.get? loc = some (.file mode content) := by
  obtain ⟨mode, hentry⟩ := exists_entry_of_read h
  exact ⟨mode, hp.get?_of_entry hplain hentry⟩

/-- What can be listed are the children of a directory. -/
theorem children_of_list {listing : List (Name × Kind)} (hp : p.Spells loc) (hplain : d.IsPlain loc)
    (h : d.list p = .ok listing) : listing = d.children loc := by
  obtain ⟨x, hfind, hlisted⟩ := exists_of_bind_eq_ok h
  obtain rfl := hp.eq_of_find hplain hfind
  split at hlisted
  · exact (Except.ok.inj hlisted).symm
  · cases hlisted

/-- A free place that a path leads to is one in which anything fits. -/
theorem fits_of_vacant {slashed : Bool} (hp : p.Spells loc) (hplain : d.IsPlain loc)
    (h : d.locate follow p = .ok (.vacant x slashed)) :
    x = loc ∧ d.get? loc = none ∧ ∀ e, Fits d.table loc e := by
  obtain rfl : x = loc := hp.location_of_locate hplain h
  cases (leadsTo_of_locate h).confirmed with
  | vacant rooted proper free => exact ⟨rfl, free, fits_of_none rooted proper free⟩

/-- **Without links a path is looked up alike on disks that agree on the way to its location.** -/
theorem locate_congr (hp : p.Spells loc) (hplain : d.IsPlain loc) (hagree : AgreeTo d d' loc) :
    d.locate follow p = d'.locate follow p := by
  have hloc : [] ++ spoken (pieces p.text) = loc := hp.names
  have hresolve : ∀ links, resolve d follow links [] (pieces p.text) =
      resolve d' follow links [] (pieces p.text) := by
    intro links
    cases links <;>
      exact advance_congr hp.back_not_mem_pieces (hloc.symm ▸ hplain) (hloc.symm ▸ hagree)
  rw [locate, locate, hp.startOf_eq, hp.startOf_eq, hresolve]

theorem find_congr (hp : p.Spells loc) (hplain : d.IsPlain loc) (hagree : AgreeTo d d' loc) :
    d.find follow p = d'.find follow p := by
  rw [find, find, hp.locate_congr hplain hagree]

/-- The entry of a path depends on the way to its location alone. -/
theorem entry_congr (hp : p.Spells loc) (hplain : d.IsPlain loc) (hagree : AgreeTo d d' loc) :
    d.entry p = d'.entry p := by
  rw [entry, entry, hp.find_congr hplain hagree]
  cases hfind : d'.find true p with
  | error fault => rfl
  | ok x =>
    rw [← hp.find_congr hplain hagree] at hfind
    obtain rfl := hp.eq_of_find hplain hfind
    simp only [Except.bind]
    rw [hagree x (List.prefix_refl x)]

/-- So does what is read by it. -/
theorem read_congr (hp : p.Spells loc) (hplain : d.IsPlain loc) (hagree : AgreeTo d d' loc) :
    d.read p = d'.read p := by
  rw [Disk.read, Disk.read, hp.entry_congr hplain hagree]

end Path.Spells

end Stencil
