/-
  What the operations on a disk change.

  An operation that succeeds changes what lies at one location, the one that its path leads to:
  `Changed d d' loc e` says that `d'` differs from `d` by `e` at `loc`.  Making directories fills in
  missing ones from the root to a location, and nothing else; when it fails, some of them are there
  (`Spells.grown_of_makeDirectories`).
-/
import Stencil.Proofs.Disk.Lookup

namespace Stencil.Disk

open Path

variable {d d' : Disk} {loc x : Location} {p source : Path} {e : Entry} {mode : Mode} {content : Bytes}

/-! ## One change -/

/-- The disk `d'` is `d` with `e` at a location where `e` fits. -/
structure Changed (d d' : Disk) (loc : Location) (e : Entry) : Prop where
  fits : Fits d.table loc e
  get? : ∀ x, d'.get? x = if x = loc then some e else d.get? x

/-- Putting an entry where it fits changes that place alone. -/
theorem changed_put (h : Fits d.table loc e) : Changed d (d.put loc e) loc e := ⟨h, get?_put h⟩

@[simp] theorem here_put (d : Disk) (loc : Location) (e : Entry) : (d.put loc e).here = d.here := by
  rw [put]
  split <;> rfl

namespace Changed

/-- The new entry is in its place. -/
theorem get?_self (h : Changed d d' loc e) : d'.get? loc = some e := by rw [h.get?, if_pos rfl]

/-- All other places are as they were. -/
theorem get?_of_ne (h : Changed d d' loc e) (hne : x ≠ loc) : d'.get? x = d.get? x := by
  rw [h.get?, if_neg hne]

end Changed

/-- A directory is made at a free place that its path leads to. -/
theorem makeDirectory_eq_ok (h : d.makeDirectory p = .ok d') :
    ∃ loc slashed, d.locate false (withoutSlashes p) = .ok (.vacant loc slashed) ∧
      d' = d.put loc (.directory Entry.directoryMode) := by
  rw [makeDirectory] at h
  split at h
  · cases h
  · rename_i loc slashed hplace
    exact ⟨loc, slashed, hplace, (Except.ok.inj h).symm⟩
  · cases h

/-- Where a file is written, there is no directory. -/
theorem target_eq_ok {newMode : Mode} (hp : p.Spells loc) (hplain : d.IsPlain loc)
    (h : d.target p newMode = .ok (x, mode)) :
    x = loc ∧ (∀ e, Fits d.table loc e) ∧
      ((d.get? loc = none ∧ mode = newMode) ∨ ∃ content, d.get? loc = some (.file mode content)) := by
  rw [target] at h
  split at h
  · -- a slash at the end asks for a directory
    cases hplace : d.locate false (withoutSlashes p) <;> rw [hplace] at h <;> cases h
  · cases hplace : d.locate true p with
    | error fault =>
      rw [hplace] at h
      cases h
    | ok place =>
      cases place with
      | vacant y slashed =>
        rw [hplace] at h
        cases slashed <;> cases h
        obtain ⟨rfl, hnone, hfits⟩ := hp.fits_of_vacant hplain hplace
        exact ⟨rfl, hfits, .inl ⟨hnone, rfl⟩⟩
      | found y =>
        obtain rfl : y = loc := hp.location_of_locate hplain hplace
        rw [hplace] at h
        simp only at h
        cases hentry : d.get? y with
        | none =>
          rw [hentry] at h
          cases h
        | some e =>
          cases e with
          | file mode' content =>
            rw [hentry] at h
            cases h
            exact ⟨rfl, fits_of_file hentry, .inr ⟨content, rfl⟩⟩
          | directory mode' =>
            rw [hentry] at h
            cases h
          | link target =>
            rw [hentry] at h
            cases h

/-- What was at the place of a file that is written. -/
inductive Replaced (d : Disk) (loc : Location) : Mode → Prop
  | nothing (none : d.get? loc = none) : Replaced d loc Entry.fileMode
  | file {mode : Mode} {content : Bytes} (there : d.get? loc = some (.file mode content)) :
      Replaced d loc mode

/-- **Writing through a path that spells a location changes that location alone**, and leaves a file
    with the content there. -/
theorem changed_of_write (hp : p.Spells loc) (hplain : d.IsPlain loc)
    (h : d.write p content = .ok d') :
    ∃ mode, Replaced d loc mode ∧ Changed d d' loc (.file mode content) := by
  obtain ⟨⟨x, mode⟩, htarget, rfl⟩ := exists_of_map_eq_ok h
  obtain ⟨rfl, hfits, hbefore⟩ := target_eq_ok hp hplain htarget
  refine ⟨mode, ?_, changed_put (hfits _)⟩
  rcases hbefore with ⟨hnone, rfl⟩ | ⟨content, hfile⟩
  · exact .nothing hnone
  · exact .file hfile

/-- A copy has the mode and the content of its source; a file copied onto itself is emptied. -/
theorem changed_of_copy (hp : p.Spells loc) (hplain : d.IsPlain loc)
    (h : d.copy source p = .ok d') :
    ∃ origin mode content, d.find true source = .ok origin ∧
      d.get? origin = some (.file mode content) ∧
      Changed d d' loc (.file mode (if loc = origin then [] else content)) := by
  obtain ⟨origin, hfind, hcopied⟩ := exists_of_bind_eq_ok h
  split at hcopied
  · rename_i mode content hfile
    obtain ⟨⟨x, mode'⟩, htarget, rfl⟩ := exists_of_map_eq_ok hcopied
    obtain ⟨rfl, hfits, -⟩ := target_eq_ok hp hplain htarget
    exact ⟨origin, mode, content, hfind, hfile, changed_put (hfits _)⟩
  · cases hcopied
  · cases hcopied

/-- The permission bits of a file are set, its content stays. -/
theorem changed_of_setMode_file {old : Mode} (hp : p.Spells loc)
    (hfile : d.get? loc = some (.file old content)) (h : d.setMode p mode = .ok d') :
    Changed d d' loc (.file mode content) := by
  obtain ⟨x, hfind, hset⟩ := exists_of_bind_eq_ok h
  obtain rfl := hp.eq_of_find (isPlain_of_get? hfile Kind.noConfusion) hfind
  rw [hfile] at hset
  obtain rfl := Except.ok.inj hset
  exact changed_put (fits_of_file hfile _)

/-! ## Making directories -/

/-- What every making of a directory keeps, the making of several keeps, also if it fails. -/
theorem makeDirectoriesFrom_preserves {P : Disk → Prop} {ps : List Path}
    (hstep : ∀ q ∈ ps, ∀ d d', P d → d.makeDirectory q = .ok d' → P d') (hd : P d) :
    P (d.makeDirectoriesFrom ps).1 := by
  induction ps with
  | nil => exact hd
  | cons q above ih =>
    have habove := ih fun q hq => hstep q (List.mem_cons_of_mem _ hq)
    rw [makeDirectoriesFrom]
    cases hfirst : d.makeDirectory q with
    | ok d₁ => exact hstep q List.mem_cons_self d d₁ hd hfirst
    | error fault =>
      cases fault with
      | notFound =>
        simp only
        cases hmade : d.makeDirectoriesFrom above with
        | mk d₁ result =>
          rw [hmade] at habove
          cases result with
          | error fault => exact habove
          | ok _ =>
            simp only
            cases hsecond : d₁.makeDirectory q with
            | ok d₂ => exact hstep q List.mem_cons_self d₁ d₂ habove hsecond
            | error fault => exact habove
      -- after any other fault nothing more is made
      | _ => exact hd

/-- How the making of a directory and those above it succeeds: the directory can be made, or it is there,
    or it can be made or is there once those above it are made. -/
theorem makeDirectoriesFrom_cons_eq_ok {q : Path} {above : List Path}
    (h : d.makeDirectoriesFrom (q :: above) = (d', .ok ())) :
    d.makeDirectory q = .ok d' ∨ (d' = d ∧ d.isDirectory q = true) ∨
      ∃ d₁, d.makeDirectory q = .error .notFound ∧ d.makeDirectoriesFrom above = (d₁, .ok ()) ∧
        (d₁.makeDirectory q = .ok d' ∨
          (d' = d₁ ∧ d₁.makeDirectory q = .error .occupied ∧ d₁.isDirectory q = true)) := by
  -- a fault is forgiven only where the place is taken, and by a directory
  have hoccupied : ∀ (d₁ : Disk) (fault : Fault),
      (d₁, if fault = .occupied ∧ d₁.isDirectory q = true then Except.ok () else .error fault) =
        (d', Except.ok ()) → d' = d₁ ∧ fault = .occupied ∧ d₁.isDirectory q = true := by
    intro d₁ fault heq
    obtain ⟨rfl, hresult⟩ := Prod.mk.inj heq
    split at hresult
    · rename_i hthere
      exact ⟨rfl, hthere⟩
    · cases hresult
  rw [makeDirectoriesFrom] at h
  cases hfirst : d.makeDirectory q with
  | ok d₁ =>
    rw [hfirst] at h
    exact .inl (congrArg Except.ok (Prod.mk.inj h).1)
  | error fault =>
    rw [hfirst] at h
    cases fault with
    | notFound =>
      simp only at h
      cases hmade : d.makeDirectoriesFrom above with
      | mk d₁ result =>
        rw [hmade] at h
        cases result with
        | error fault => cases h
        | ok _ =>
          refine .inr (.inr ⟨d₁, rfl, rfl, ?_⟩)
          simp only at h
          cases hsecond : d₁.makeDirectory q with
          | ok d₂ =>
            rw [hsecond] at h
            exact .inl (congrArg Except.ok (Prod.mk.inj h).1)
          | error fault =>
            rw [hsecond] at h
            obtain ⟨hd, rfl, hthere⟩ := hoccupied d₁ fault h
            exact .inr ⟨hd, rfl, hthere⟩
    | _ =>
      obtain ⟨hd, -, hthere⟩ := hoccupied d _ h
      exact .inr (.inl ⟨hd, hthere⟩)

/-- The disk `d'` is `d` with directories at some of the free locations that `P` allows. -/
def Grown (P : Location → Prop) (d d' : Disk) : Prop :=
  ∀ x, d'.get? x = d.get? x ∨
    (P x ∧ d.get? x = none ∧ d'.get? x = some (.directory Entry.directoryMode))

namespace Grown

variable {P : Location → Prop}

theorem refl (d : Disk) : Grown P d d := fun _ => .inl rfl

/-- What lies where nothing lay is a directory. -/
theorem eq_directory (h : Grown P d d') (hnone : d.get? x = none) (he : d'.get? x = some e) :
    e = .directory Entry.directoryMode := by
  rcases h x with hsame | ⟨-, -, hnew⟩
  · rw [hsame, hnone] at he
    cases he
  · rw [hnew] at he
    exact (Option.some.inj he).symm

/-- No link is new. -/
theorem of_link (h : Grown P d d') {target : Bytes} (hlink : d'.get? x = some (.link target)) :
    d.get? x = some (.link target) := by
  rcases h x with hsame | ⟨-, -, hnew⟩
  · exact hsame.symm.trans hlink
  · rw [hnew] at hlink
    cases hlink

/-- No link comes to lie on a plain way. -/
theorem isPlain (h : Grown P d d') (hplain : d.IsPlain x) : d'.IsPlain x :=
  fun q hq target hlink => hplain q hq target (h.of_link hlink)

theorem isLinkless (h : Grown P d d') (hlinkless : d.IsLinkless) : d'.IsLinkless := fun x =>
  h.isPlain (hlinkless.isPlain x) x (List.prefix_refl x)

/-- What was there stays as it is. -/
theorem get?_of_some (h : Grown P d d') (he : d.get? x = some e) : d'.get? x = some e := by
  rcases h x with hsame | ⟨-, hnone, -⟩
  · rw [hsame, he]
  · rw [hnone] at he
    cases he

/-- Directories stay directories. -/
theorem keeps_directory (h : Grown P d d') (hx : isDirectoryAt d.table x = true) :
    isDirectoryAt d'.table x = true := by
  obtain ⟨mode, hmode⟩ := isDirectoryAt_iff.mp hx
  exact isDirectoryAt_iff.mpr ⟨mode, h.get?_of_some hmode⟩

/-- What is free still was free before. -/
theorem get?_of_none (h : Grown P d d') (hnone : d'.get? x = none) : d.get? x = none := by
  cases he : d.get? x with
  | none => rfl
  | some e =>
    rw [h.get?_of_some he] at hnone
    cases hnone

theorem mono {Q : Location → Prop} (h : Grown P d d') (hPQ : ∀ x, P x → Q x) : Grown Q d d' :=
  fun x => (h x).imp_right fun hnew => ⟨hPQ x hnew.1, hnew.2⟩

/-- **Growing goes on**: twice within the same places is once within them. -/
theorem trans {d₁ d₂ : Disk} (h : Grown P d d₁) (h' : Grown P d₁ d₂) : Grown P d d₂ := by
  intro x
  rcases h' x with hsame | ⟨hx, hnone, hnew⟩
  · rw [hsame]
    exact h x
  · exact .inr ⟨hx, h.get?_of_none hnone, hnew⟩

/-- A further directory at a free location. -/
theorem step {d₁ d₂ : Disk} (h : Grown P d d₁) (hloc : P loc)
    (hnone : d₁.get? loc = none) (hput : Changed d₁ d₂ loc (.directory Entry.directoryMode)) :
    Grown P d d₂ := by
  intro y
  by_cases hy : y = loc
  · rw [hy]
    exact .inr ⟨hloc, h.get?_of_none hnone, hput.get?_self⟩
  · rw [hput.get?_of_ne hy]
    exact h y

end Grown

end Disk

namespace Path

/-- The paths at and above one that goes down from the root go down from the root. -/
theorem Spells.of_mem_pathAndAbove {p q : Path} {loc : Location} {fuel : Nat} (h : p.Spells loc)
    (hq : q ∈ Disk.pathAndAbove fuel p) : ∃ above, above <+: loc ∧ q.Spells above := by
  induction fuel generalizing p loc with
  | zero => cases hq
  | succ fuel ih =>
    rw [Disk.pathAndAbove] at hq
    split at hq
    · cases hq
    · cases hparent : p.parent? with
      | none =>
        rw [hparent] at hq
        cases hq
      | some above =>
        rw [hparent] at hq
        rcases List.mem_cons.mp hq with rfl | hq
        · exact ⟨loc, List.prefix_refl loc, h⟩
        · obtain ⟨loc', hpre, hspells⟩ := ih (h.parent? hparent).1 hq
          exact ⟨loc', hpre.trans (List.dropLast_prefix loc), hspells⟩

end Path

namespace Disk

/-- Paths that go down towards a location make directories on the way to it. -/
theorem grown_of_makeDirectoriesFrom {ps : List Path} (hplain : d.IsPlain loc)
    (hps : ∀ q ∈ ps, ∃ above, above <+: loc ∧ q.Spells above) :
    Grown (· <+: loc) d (d.makeDirectoriesFrom ps).1 := by
  refine makeDirectoriesFrom_preserves (P := Grown (· <+: loc) d) ?_ (Grown.refl d)
  intro q hq d₁ d₂ hd₁ hmake
  obtain ⟨above, hpre, hspells⟩ := hps q hq
  obtain ⟨x, slashed, hplace, rfl⟩ := makeDirectory_eq_ok hmake
  have hplain₁ : d₁.IsPlain above := hd₁.isPlain fun r hr => hplain r (hr.trans hpre)
  obtain ⟨rfl, hnone, hfits⟩ := hspells.withoutSlashes.fits_of_vacant hplain₁ hplace
  exact hd₁.step hpre hnone (changed_put (hfits _))

end Disk

namespace Path.Spells

open Disk

variable {d d' : Disk} {loc : Location} {p : Path}

/-- Making a directory and those above it fills in missing directories on the way, and after a success
    the directory is there. -/
theorem grown_of_makeDirectories {result : Except Fault Unit} (hp : p.Spells loc)
    (hplain : d.IsPlain loc) (h : d.makeDirectories p = (d', result)) :
    Grown (· <+: loc) d d' ∧ (result = .ok () → isDirectoryAt d'.table loc = true) := by
  have hmade : Grown (· <+: loc) d d' := by
    have hd' : d' = (d.makeDirectories p).1 := (congrArg Prod.fst h).symm
    rw [hd']
    exact grown_of_makeDirectoriesFrom hplain fun q hq => hp.of_mem_pathAndAbove hq
  refine ⟨hmade, ?_⟩
  rintro rfl
  obtain ⟨rest, htext⟩ := hp.text_eq
  rw [makeDirectories, htext, List.length_cons, pathAndAbove, htext, List.isEmpty_cons,
    if_neg Bool.false_ne_true] at h
  cases hparent : p.parent? with
  | none =>
    rw [hp.eq_nil_of_parent? hparent]
    exact isDirectoryAt_nil d'
  | some parent =>
    rw [hparent] at h
    have hplace : ∀ d₁ d₂ : Disk, d₁.IsPlain loc → d₁.makeDirectory p = .ok d₂ →
        isDirectoryAt d₂.table loc = true := by
      intro d₁ d₂ hplain₁ hmake
      obtain ⟨x, slashed, hfree, rfl⟩ := makeDirectory_eq_ok hmake
      obtain ⟨rfl, -, hfits⟩ := hp.withoutSlashes.fits_of_vacant hplain₁ hfree
      exact isDirectoryAt_iff.mpr ⟨_, (changed_put (hfits _)).get?_self⟩
    rcases makeDirectoriesFrom_cons_eq_ok h with hmake | ⟨rfl, hthere⟩ | ⟨d₁, -, habove, hlast⟩
    · exact hplace d d' hplain hmake
    · exact hp.isDirectoryAt_of_isDirectory hplain hthere
    · -- the directories above are made first, on the same way
      have hmade₁ : Grown (· <+: loc) d d₁ := by
        have hd₁ : d₁ = (d.makeDirectoriesFrom (pathAndAbove rest.length parent)).1 :=
          (congrArg Prod.fst habove).symm
        rw [hd₁]
        refine grown_of_makeDirectoriesFrom hplain fun q hq => ?_
        obtain ⟨above, hpre, hspells⟩ := (hp.parent? hparent).1.of_mem_pathAndAbove hq
        exact ⟨above, hpre.trans (List.dropLast_prefix loc), hspells⟩
      have hplain₁ := hmade₁.isPlain hplain
      rcases hlast with hmake | ⟨rfl, -, hthere⟩
      · exact hplace d₁ d' hplain₁ hmake
      · exact hp.isDirectoryAt_of_isDirectory hplain₁ hthere

end Path.Spells

end Stencil
