/-
  Where a path will lead once the directories on it are made.

  `d.AimsAt p x` follows the path `p` on the disk `d` with its links, and takes what is missing for a
  directory.  So it says before anything is made where a path leads afterwards: directories that are
  made on the way do not change it (`aimsAt_of_leadsTo`), and all that is made for some paths lies where
  these aim (`grown_of_makeDirectoriesFrom_aim`).

  A path can aim at something that is there though it leads nowhere yet: `missing/../there` does.
  Without a step back that cannot happen (`free_of_makeDirectories`): behind the first directory that
  has to be made everything is new.
-/
import Stencil.Proofs.Disk.Operations

namespace Stencil.Disk

open Path

variable {d d' d₁ d₂ : Disk} {follow : Bool} {loc x y : Location} {ps rest : List Bytes} {place : Place}
  {p q : Path} {P : Location → Prop}

/-! ## Aims -/

/-- The pieces of a path aim at a location: links are followed, and what is missing is taken for a
    directory. -/
inductive Aims (d : Disk) : Location → List Bytes → Location → Prop
  | here (loc : Location) : Aims d loc [] loc
  | idle {loc x : Location} {piece : Bytes} {rest : List Bytes} (silent : isIdle piece = true)
      (next : Aims d loc rest x) : Aims d loc (piece :: rest) x
  | up {loc x : Location} {rest : List Bytes} (next : Aims d loc.dropLast rest x) :
      Aims d loc (back :: rest) x
  | link {loc x : Location} {piece target : Bytes} {rest : List Bytes}
      (speaks : isIdle piece = false) (onward : piece ≠ back)
      (link : d.get? (loc ++ [piece]) = some (.link target))
      (next : Aims d (startOf target loc) (pieces target ++ rest) x) : Aims d loc (piece :: rest) x
  | down {loc x : Location} {piece : Bytes} {rest : List Bytes}
      (speaks : isIdle piece = false) (onward : piece ≠ back)
      (unlinked : ∀ target, d.get? (loc ++ [piece]) ≠ some (.link target))
      (next : Aims d (loc ++ [piece]) rest x) : Aims d loc (piece :: rest) x

/-- The path aims at the location, from the root or the working directory. -/
def AimsAt (d : Disk) (p : Path) (x : Location) : Prop :=
  Aims d (startOf p.text d.here) (pieces p.text) x

/-- A path aims at one location. -/
theorem Aims.unique (h : Aims d loc ps x) (h' : Aims d loc ps y) : x = y := by
  induction h with
  | here loc =>
    cases h'
    rfl
  | idle silent _ ih =>
    cases h' with
    | idle _ next => exact ih next
    | up => exact absurd silent (by decide)
    | link speaks => rw [silent] at speaks; cases speaks
    | down speaks => rw [silent] at speaks; cases speaks
  | up _ ih =>
    cases h' with
    | idle silent => exact absurd silent (by decide)
    | up next => exact ih next
    | link _ onward => exact absurd rfl onward
    | down _ onward => exact absurd rfl onward
  | link speaks onward link _ ih =>
    cases h' with
    | idle silent => rw [silent] at speaks; cases speaks
    | up => exact absurd rfl onward
    | link _ _ link' next =>
      rw [link] at link'
      cases link'
      exact ih next
    | down _ _ unlinked => exact absurd link (unlinked _)
  | down speaks onward unlinked _ ih =>
    cases h' with
    | idle silent => rw [silent] at speaks; cases speaks
    | up => exact absurd rfl onward
    | link _ _ link => exact absurd link (unlinked _)
    | down _ _ _ next => exact ih next

/-- A path aims at one location. -/
theorem AimsAt.unique (h : d.AimsAt p x) (h' : d.AimsAt p y) : x = y := Aims.unique h h'

/-- Idle pieces at the start aim nowhere else. -/
theorem Aims.after_idle {idle : List Bytes} (h : Aims d loc ps x)
    (hidle : ∀ piece ∈ idle, isIdle piece = true) : Aims d loc (idle ++ ps) x := by
  induction idle with
  | nil => exact h
  | cons piece idle ih =>
    exact .idle (hidle piece List.mem_cons_self)
      (ih fun q hq => hidle q (List.mem_cons_of_mem piece hq))

/-- Behind one aim the next begins. -/
theorem Aims.append {qs : List Bytes} (h : Aims d loc ps x) (hqs : Aims d x qs y) :
    Aims d loc (ps ++ qs) y := by
  induction h with
  | here loc => exact hqs
  | idle silent _ ih => exact .idle silent (ih hqs)
  | up _ ih => exact .up (ih hqs)
  | @link loc x piece target rest speaks onward link _ ih =>
    have hnext := ih hqs
    rw [List.append_assoc] at hnext
    exact .link speaks onward link hnext
  | down speaks onward unlinked _ ih => exact .down speaks onward unlinked (ih hqs)

/-- Where some pieces aim depends on those alone that say something. -/
theorem Aims.of_spoken {qs : List Bytes} (h : Aims d loc ps x) (heq : spoken ps = spoken qs) :
    Aims d loc qs x := by
  -- `qs` is followed rule by rule like `ps`, once the idle pieces before it are passed over
  induction h generalizing qs with
  | here loc =>
    have hidle : ∀ q ∈ qs, isIdle q = true := fun q hq => by
      simpa using List.filter_eq_nil_iff.mp heq.symm q hq
    simpa using (Aims.here loc).after_idle hidle
  | @idle loc x piece rest silent _ ih =>
    have hsame : spoken (piece :: rest) = spoken rest := by simp [spoken, silent]
    exact ih (hsame ▸ heq)
  | up _ ih =>
    obtain ⟨idle, rest', rfl, hidle, hrest⟩ := exists_idle_of_spoken_eq (by decide) heq
    exact (Aims.up (ih hrest)).after_idle hidle
  | link speaks onward link _ ih =>
    obtain ⟨idle, rest', rfl, hidle, hrest⟩ := exists_idle_of_spoken_eq speaks heq
    refine (Aims.link speaks onward link (ih ?_)).after_idle hidle
    rw [spoken_append, spoken_append, hrest]
  | down speaks onward unlinked _ ih =>
    obtain ⟨idle, rest', rfl, hidle, hrest⟩ := exists_idle_of_spoken_eq speaks heq
    exact (Aims.down speaks onward unlinked (ih hrest)).after_idle hidle

/-- Where a path aims depends on its start and its names. -/
theorem AimsAt.of_names (h : d.AimsAt p x) (hstart : p.isAbsolute = q.isAbsolute)
    (hnames : p.names = q.names) : d.AimsAt q x := by
  have hsame : startOf q.text d.here = startOf p.text d.here := by
    show (if q.isAbsolute then _ else _) = if p.isAbsolute then _ else _
    rw [hstart]
  rw [AimsAt, hsame]
  exact Aims.of_spoken h hnames

theorem Grown.unlinked (h : Grown P d d') {target : Bytes} (hx : d'.get? x ≠ some (.link target)) :
    d.get? x ≠ some (.link target) := fun htarget => hx (h.get?_of_some htarget)

/-- On a disk with more directories a path leads where it aimed before.  A link at the end has to be
    followed, unless the place is free. -/
theorem aims_of_leads (hgrown : Grown P d d') (h : Leads d' follow loc ps place)
    (hend : follow = true ∨ ∃ x slashed, place = .vacant x slashed) :
    Aims d loc ps place.location := by
  induction h with
  | here loc => exact .here loc
  | idle _ silent _ ih => exact .idle silent (ih hend)
  | up _ _ ih => exact .up (ih hend)
  | free _ proper none last =>
    have hstep := isStep_of_isEntryName proper
    refine .down hstep.speaks hstep.onward (fun target => ?_) (Aims.of_spoken (.here _) ?_)
    · refine hgrown.unlinked ?_
      rw [none]
      exact (Option.some_ne_none _).symm
    · refine (List.filter_eq_nil_iff.mpr fun piece hpiece => ?_).symm
      rw [List.isEmpty_iff.mp (List.all_eq_true.mp last piece hpiece)]
      decide
  | itself _ _ stays =>
    -- the link is followed by an aim, but not by this lookup
    rcases hend with hfollow | ⟨x, slashed, hvacant⟩
    · rw [stays] at hfollow
      cases hfollow
    · cases hvacant
  | @link loc piece target rest place _ proper link _ ih =>
    have hstep := isStep_of_isEntryName proper
    exact .link hstep.speaks hstep.onward (hgrown.of_link link) (ih hend)
  | @down loc piece rest place e _ proper there unlinked _ ih =>
    have hstep := isStep_of_isEntryName proper
    refine .down hstep.speaks hstep.onward (fun target => ?_) (ih hend)
    refine hgrown.unlinked ?_
    rw [there]
    intro heq
    obtain rfl := Option.some.inj heq
    exact unlinked rfl

/-- **Where a path leads after directories were made, it aimed before**: it ends at a free name, or
    behind all its links. -/
theorem aimsAt_of_leadsTo (hgrown : Grown P d d') (hhere : d'.here = d.here)
    (h : d'.LeadsTo follow p place) (hend : follow = true ∨ ∃ x slashed, place = .vacant x slashed) :
    d.AimsAt p place.location := by
  rw [LeadsTo, hhere] at h
  exact aims_of_leads hgrown h hend

/-- A path aims where it leads. -/
theorem aimsAt_of_find (h : d.find true p = .ok x) : d.AimsAt p x :=
  aimsAt_of_leadsTo (P := fun _ => True) (Grown.refl d) rfl (leadsTo_of_locate (find_eq_ok_iff.mp h))
    (.inl rfl)

/-! ## Making directories -/

/-- A directory is made at a free place that its path aims at. -/
theorem changed_of_makeDirectory (hgrown : Grown P d d₁) (hhere : d₁.here = d.here)
    (h : d₁.makeDirectory p = .ok d₂) :
    ∃ x, d.AimsAt p x ∧ d₁.get? x = none ∧ d₂.here = d₁.here ∧
      Changed d₁ d₂ x (.directory Entry.directoryMode) := by
  obtain ⟨x, slashed, hplace, rfl⟩ := makeDirectory_eq_ok h
  have hleads := leadsTo_of_locate hplace
  have haims : d.AimsAt p x :=
    (aimsAt_of_leadsTo hgrown hhere hleads (.inr ⟨x, slashed, rfl⟩)).of_names
      (isAbsolute_withoutSlashes p) (names_withoutSlashes p)
  cases hleads.confirmed with
  | vacant rooted proper free =>
    exact ⟨_, haims, free, here_put .., changed_put (fits_of_none rooted proper free _)⟩

/-- All directories that are made lie where one of the paths aims. -/
theorem grown_of_makeDirectoriesFrom_aim (d : Disk) (qs : List Path) :
    (d.makeDirectoriesFrom qs).1.here = d.here ∧
      Grown (fun x => ∃ q ∈ qs, d.AimsAt q x) d (d.makeDirectoriesFrom qs).1 := by
  refine makeDirectoriesFrom_preserves
    (P := fun d' => d'.here = d.here ∧ Grown _ d d') ?_ ⟨rfl, Grown.refl d⟩
  rintro q hq d₁ d₂ ⟨hhere, hgrown⟩ hmake
  obtain ⟨x, haims, hfree, hhere₂, hput⟩ := changed_of_makeDirectory hgrown hhere hmake
  exact ⟨hhere₂.trans hhere, hgrown.step ⟨q, hq, haims⟩ hfree hput⟩

/-- The path, or one above it, aims at the location. -/
def IsOnWay (d : Disk) (p : Path) (x : Location) : Prop :=
  ∃ q ∈ pathAndAbove p.text.length p, d.AimsAt q x

theorem grown_of_makeDirectories_aim (h : d.makeDirectories p = (d', .ok ())) :
    d'.here = d.here ∧ Grown (d.IsOnWay p) d d' := by
  have hmade := grown_of_makeDirectoriesFrom_aim d (pathAndAbove p.text.length p)
  rw [← makeDirectories, h] at hmade
  exact hmade

/-- A path whose directories were made leads where it aimed before. -/
theorem aimsAt_of_makeDirectories (h : d.makeDirectories p = (d', .ok ()))
    (hx : d'.find true p = .ok x) : d.AimsAt p x := by
  obtain ⟨hhere, hgrown⟩ := grown_of_makeDirectories_aim h
  exact aimsAt_of_leadsTo hgrown hhere (leadsTo_of_locate (find_eq_ok_iff.mp hx)) (.inl rfl)

/-! ## Paths without a step back -/

/-- Names aim where they go down to, if there are no links on the way. -/
theorem aims_of_isPlain {steps : Location} (hsteps : IsDescent steps)
    (hplain : d.IsPlain (loc ++ steps)) : Aims d loc steps (loc ++ steps) := by
  induction steps generalizing loc with
  | nil =>
    rw [List.append_nil]
    exact .here loc
  | cons n steps ih =>
    have hn : IsStep n := hsteps n List.mem_cons_self
    rw [List.append_cons] at hplain ⊢
    exact .down hn.speaks hn.onward (hplain _ (List.prefix_append _ steps))
      (ih (fun m hm => hsteps m (List.mem_cons_of_mem n hm)) hplain)

/-- A path that spells a location aims where its names lead from the root. -/
theorem aimsAt_iff_of_spells (hp : p.Spells loc) : d.AimsAt p x ↔ Aims d [] loc x := by
  have hspoken : spoken loc = loc := IsDescent.spoken_eq fun _ => hp.isStep
  have hsame : spoken (pieces p.text) = spoken loc := hp.names.trans hspoken.symm
  rw [AimsAt, hp.startOf_eq]
  exact ⟨fun h => h.of_spoken hsame, fun h => h.of_spoken hsame.symm⟩

/-- A path aims where it spells, if there are no links on the way. -/
theorem aimsAt_of_spells (hp : p.Spells loc) (hplain : d.IsPlain loc) : d.AimsAt p loc :=
  (aimsAt_iff_of_spells hp).mpr (aims_of_isPlain (fun _ => hp.isStep) hplain)

/-- What is on the way of such a path is on the way to its place. -/
theorem IsOnWay.isPrefix (h : d.IsOnWay p x) (hp : p.Spells loc) (hplain : d.IsPlain loc) :
    x <+: loc := by
  obtain ⟨q, hq, haims⟩ := h
  obtain ⟨above, habove, hspells⟩ := hp.of_mem_pathAndAbove hq
  have hplain' : d.IsPlain above := fun r hr => hplain r (hr.trans habove)
  rw [haims.unique (aimsAt_of_spells hspells hplain')]
  exact habove

/-- Where the parent of a path aims at something missing, the path does, if it does not step back. -/
theorem exists_missing_of_parent? (hback : back ∉ p.names) (hq : p.parent? = some q)
    (haims : d.AimsAt q y) (hfree : d.get? y = none) : ∃ x, d.AimsAt p x ∧ d.get? x = none := by
  obtain ⟨hstart, ⟨hempty, hnames⟩ | ⟨last, hlast⟩⟩ := names_parent? hq
  · have hnone : q.names = [] := by rw [names, hempty]; rfl
    exact ⟨y, haims.of_names hstart (hnone.trans hnames.symm), hfree⟩
  · -- what lies behind the last name would lie below something that is missing
    have hbelow : d.get? (y ++ [last]) = none := get?_eq_none_below hfree (List.prefix_append y _)
    have hmem : last ∈ p.names := hlast ▸ List.mem_append_right q.names List.mem_cons_self
    have hstep : IsStep last := isStep_of_mem_names hmem fun heq => hback (heq ▸ hmem)
    have hdown : Aims d y [last] (y ++ [last]) := by
      refine .down hstep.speaks hstep.onward (fun target => ?_) (.here _)
      rw [hbelow]
      exact (Option.some_ne_none _).symm
    have hsame : startOf p.text d.here = startOf q.text d.here := by
      show (if p.isAbsolute then _ else _) = if q.isAbsolute then _ else _
      rw [hstart]
    have hspoken : spoken (pieces q.text ++ [last]) = spoken (pieces p.text) := by
      have hsingle : spoken [last] = [last] := by simp [spoken, hstep.speaks]
      rw [spoken_append, hsingle]
      exact hlast.symm
    refine ⟨_, ?_, hbelow⟩
    rw [AimsAt, hsame]
    exact (haims.append hdown).of_spoken hspoken

/-- A path that never steps back aims at something new, once a directory had to be made for it.  By
    induction on the path: a missing directory has only missing ones below it. -/
theorem makeDirectoriesFrom_of_straight {fuel : Nat} (hback : back ∉ p.names)
    (h : d.makeDirectoriesFrom (pathAndAbove fuel p) = (d', .ok ())) :
    d' = d ∨ ∃ x, d.AimsAt p x ∧ d.get? x = none := by
  induction fuel generalizing p d' with
  | zero => exact .inl (Prod.mk.inj h).1.symm
  | succ fuel ih =>
    rw [pathAndAbove] at h
    split at h
    · exact .inl (Prod.mk.inj h).1.symm
    cases hparent : p.parent? with
    | none =>
      rw [hparent] at h
      exact .inl (Prod.mk.inj h).1.symm
    | some parent =>
      rw [hparent] at h
      have hmade : ∀ d₁ d₂, Grown (fun _ => True) d d₁ → d₁.here = d.here →
          d₁.makeDirectory p = .ok d₂ → ∃ x, d.AimsAt p x ∧ d.get? x = none := by
        intro d₁ d₂ hgrown hhere hmake
        obtain ⟨x, haims, hfree, -⟩ := changed_of_makeDirectory hgrown hhere hmake
        exact ⟨x, haims, hgrown.get?_of_none hfree⟩
      rcases makeDirectoriesFrom_cons_eq_ok h with hmake | ⟨hd', -⟩ | ⟨d₁, hmissing, habove, hlast⟩
      · exact .inr (hmade d d' (Grown.refl d) rfl hmake)
      · exact .inl hd'
      · rcases hlast with hmake | ⟨rfl, hoccupied, -⟩
        · obtain ⟨hhere, hgrown⟩ :=
            grown_of_makeDirectoriesFrom_aim d (pathAndAbove fuel parent)
          rw [habove] at hhere hgrown
          exact .inr (hmade d₁ d' (hgrown.mono fun _ _ => trivial) hhere hmake)
        · -- the parent was made, and it aims at something new by induction
          have hback' : back ∉ parent.names := by
            obtain ⟨-, ⟨hempty, -⟩ | ⟨last, hlast⟩⟩ := names_parent? hparent
            · rw [names, hempty]
              decide
            · exact fun hmem => hback (hlast ▸ List.mem_append_left _ hmem)
          rcases ih hback' habove with rfl | ⟨y, haims, hfree⟩
          · rw [hmissing] at hoccupied
            cases hoccupied
          · exact .inr (exists_missing_of_parent? hback hparent haims hfree)

/-- **Directories that are made for a path without a step back are new.**  Where such a path led nowhere,
    it leads to a place that was free before, once its directories are made. -/
theorem free_of_makeDirectories (hback : back ∉ p.names) (hmissing : ∀ y, d.find true p ≠ .ok y)
    (h : d.makeDirectories p = (d', .ok ())) (hx : d'.find true p = .ok x) : d.get? x = none := by
  rcases makeDirectoriesFrom_of_straight hback h with rfl | ⟨y, hy, hfree⟩
  · -- nothing was made, so the path led somewhere before
    exact absurd hx (hmissing x)
  · exact (aimsAt_of_makeDirectories h hx).unique hy ▸ hfree

/-! ## Directories in a directory that is there -/

theorem makeDirectory_of_find (hp : withoutSlashes p = p) (h : d.find false p = .ok x) :
    d.makeDirectory p = .error .occupied := by
  rw [makeDirectory, hp, find_eq_ok_iff.mp h]

/-- Nothing is made for a parent that is there. -/
theorem makeDirectoriesFrom_of_isThere {fuel : Nat} (hp : withoutSlashes p = p)
    (hthere : p.text.isEmpty = true ∨ d.isThere p = true)
    (h : d.makeDirectoriesFrom (pathAndAbove fuel p) = (d', .ok ())) : d' = d := by
  cases fuel with
  | zero => exact (Prod.mk.inj h).1.symm
  | succ fuel =>
    rw [pathAndAbove] at h
    split at h
    · exact (Prod.mk.inj h).1.symm
    rename_i hsays
    cases habove : p.parent? with
    | none =>
      rw [habove] at h
      exact (Prod.mk.inj h).1.symm
    | some above =>
      rw [habove] at h
      have hoccupied : d.makeDirectory p = .error .occupied := by
        obtain ⟨x, hfound⟩ := exists_find_of_isThere (hthere.resolve_left hsays)
        obtain ⟨y, hitself, -⟩ := exists_find_of_find hfound
        exact makeDirectory_of_find hp hitself
      rcases makeDirectoriesFrom_cons_eq_ok h with hmake | ⟨hd', -⟩ | ⟨d₁, hmissing, -⟩
      · rw [hoccupied] at hmake
        cases hmake
      · exact hd'
      · rw [hoccupied] at hmissing
        cases hmissing

/-- **A directory that is made where nothing is, in a parent that is there**, is all that changes. -/
theorem changed_of_makeDirectories (hmissing : ∀ y, d.find true p ≠ .ok y)
    (hparent : ∀ parent, p.directory? = some parent → d.isThere parent = true)
    (h : d.makeDirectories p = (d', .ok ())) (hx : d'.find true p = .ok x) :
    d.get? x = none ∧ Changed d d' x (.directory Entry.directoryMode) := by
  have haims : d.AimsAt p x := aimsAt_of_makeDirectories h hx
  have hchange : d' ≠ d := by
    rintro rfl
    exact hmissing x hx
  have hmade : d.makeDirectory p = .ok d' := by
    rw [makeDirectories] at h
    cases hfuel : p.text.length with
    | zero =>
      rw [hfuel] at h
      exact absurd (Prod.mk.inj h).1.symm hchange
    | succ fuel =>
      rw [hfuel, pathAndAbove] at h
      split at h
      · exact absurd (Prod.mk.inj h).1.symm hchange
      cases habove : p.parent? with
      | none =>
        rw [habove] at h
        exact absurd (Prod.mk.inj h).1.symm hchange
      | some parent =>
        rw [habove] at h
        have hthere : parent.text.isEmpty = true ∨ d.isThere parent = true := by
          cases hsays : parent.text.isEmpty with
          | true => exact .inl rfl
          | false => exact .inr (hparent parent (by simp [directory?, habove, hsays]))
        -- the parent is there, so that the second attempt is like the first
        rcases makeDirectoriesFrom_cons_eq_ok h with hmake | ⟨hd', -⟩ | ⟨d₁, hnone, hfirst, hlast⟩
        · exact hmake
        · exact absurd hd' hchange
        · obtain rfl := makeDirectoriesFrom_of_isThere (withoutSlashes_parent? habove) hthere hfirst
          rcases hlast with hmake | ⟨hd', -⟩
          · exact hmake
          · exact absurd hd' hchange
  obtain ⟨y, haims', hfree, -, hput⟩ :=
    changed_of_makeDirectory (P := fun _ => False) (Grown.refl d) rfl hmade
  obtain rfl := haims.unique haims'
  exact ⟨hfree, hput⟩

end Stencil.Disk
