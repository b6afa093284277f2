/-
  Lookups that keep their answers.

  A disk keeps another one when all that lies there lies here too, a directory as a directory, a link
  with its target, and a file with whatever content.  Whatever a path was found to lead to, it leads to
  still (`Keeps.find`).  Only what is not found can change: something may come to lie there.

  Writing, copying and making directories keep the disk, successful or not (`keeps_write` and so on).  So
  during a run of operations a path that `Reaches` a location leads there or nowhere.
-/
import Stencil.Proofs.Disk.Operations

namespace Stencil.Disk

open Path

variable {d d' d'' : Disk} {follow : Bool} {loc x : Location} {ps : List Bytes} {p : Path} {e : Entry}

/-- The two entries lead a path alike. -/
inductive Alike : Entry → Entry → Prop
  | refl (e : Entry) : Alike e e
  | file (mode mode' : Mode) (content content' : Bytes) :
      Alike (.file mode content) (.file mode' content')
  | directory (mode mode' : Mode) : Alike (.directory mode) (.directory mode')

/-- What leads alike twice leads alike. -/
theorem Alike.trans {e e' e'' : Entry} (h : Alike e e') (h' : Alike e' e'') : Alike e e'' := by
  cases h with
  | refl => exact h'
  | file => cases h' <;> constructor
  | directory => cases h' <;> constructor

/-- What leads a path alike is a link only if it is the same one. -/
theorem Alike.kind_ne_link {e' : Entry} (h : Alike e e') (hkind : e.kind ≠ .link) :
    e'.kind ≠ .link := by
  cases h with
  | refl => exact hkind
  | file => exact Kind.noConfusion
  | directory => exact Kind.noConfusion

/-- All that lies on `d` lies on `d'` too and leads a path alike. -/
structure Keeps (d d' : Disk) : Prop where
  here : d'.here = d.here
  alike : ∀ {x e}, d.get? x = some e → ∃ e', d'.get? x = some e' ∧ Alike e e'

/-- A disk with the same entries, whatever their order in the table. -/
theorem Keeps.of_get? (hhere : d'.here = d.here) (h : ∀ x, d'.get? x = d.get? x) : Keeps d d' :=
  ⟨hhere, fun he => ⟨_, (h _).trans he, .refl _⟩⟩

/-- **Keeping is handed on**, so that it holds of a whole run of operations if it holds of each. -/
theorem Keeps.trans (h : Keeps d d') (h' : Keeps d' d'') : Keeps d d'' where
  here := h'.here.trans h.here
  alike := fun he => by
    obtain ⟨e', he', hlike⟩ := h.alike he
    obtain ⟨e'', he'', hlike'⟩ := h'.alike he'
    exact ⟨e'', he'', hlike.trans hlike'⟩

namespace Keeps

/-- Directories stay directories, maybe with other permission bits. -/
theorem isDirectoryAt (h : Keeps d d') (hx : isDirectoryAt d.table x = true) :
    isDirectoryAt d'.table x = true := by
  obtain ⟨mode, hmode⟩ := isDirectoryAt_iff.mp hx
  obtain ⟨e', he', hlike⟩ := h.alike hmode
  cases hlike with
  | refl => exact isDirectoryAt_iff.mpr ⟨mode, he'⟩
  | directory _ mode' => exact isDirectoryAt_iff.mpr ⟨mode', he'⟩

/-- A lookup takes the same steps on the disk that keeps the other one: at each name it meets what leads
    it alike. Links are followed by what `expand` finds behind them, which is found still. -/
theorem advance (h : Keeps d d') {expand expand' : Location → List Bytes → Except Fault Place}
    (hexpand : ∀ loc ps x, expand loc ps = .ok (.found x) → expand' loc ps = .ok (.found x))
    (hx : advance d follow expand loc ps = .ok (.found x)) :
    Disk.advance d' follow expand' loc ps = .ok (.found x) := by
  induction ps generalizing loc with
  | nil => exact hx
  | cons piece rest ih =>
    rw [Disk.advance] at hx ⊢
    by_cases hdir : Disk.isDirectoryAt d.table loc = true
    swap
    · simp [hdir] at hx
    rw [if_neg (by simp [hdir])] at hx
    rw [if_neg (by simp [h.isDirectoryAt hdir])]
    by_cases hidle : isIdle piece = true
    · rw [if_pos hidle] at hx ⊢
      exact ih hx
    rw [if_neg hidle] at hx ⊢
    by_cases hback : piece = Path.back
    · rw [if_pos hback] at hx ⊢
      exact ih hx
    rw [if_neg hback] at hx ⊢
    by_cases hlong : 255 < piece.length
    · rw [if_pos hlong] at hx
      cases hx
    rw [if_neg hlong] at hx ⊢
    by_cases hproper : (!isEntryName piece) = true
    · rw [if_pos hproper] at hx
      cases hx
    rw [if_neg hproper] at hx ⊢
    cases hentry : d.get? (loc ++ [piece]) with
    | none =>
      -- a free place is not found
      simp only [hentry] at hx
      split at hx <;> cases hx
    | some e =>
      obtain ⟨e', he', hlike⟩ := h.alike hentry
      rw [he']
      simp only [hentry] at hx
      cases hlike with
      | file =>
        simp only at hx ⊢
        exact ih hx
      | directory =>
        simp only at hx ⊢
        exact ih hx
      | refl =>
        cases e with
        | file mode content =>
          simp only at hx ⊢
          exact ih hx
        | directory mode =>
          simp only at hx ⊢
          exact ih hx
        | link target =>
          simp only at hx ⊢
          split at hx
          · rw [if_pos ‹_›]
            exact hx
          · rw [if_neg ‹_›]
            exact hexpand _ _ _ hx

/-- The same with the links that may be followed, by induction on their number. -/
theorem resolve (h : Keeps d d') {links : Nat}
    (hx : resolve d follow links loc ps = .ok (.found x)) :
    Disk.resolve d' follow links loc ps = .ok (.found x) := by
  induction links generalizing loc ps x with
  | zero => exact h.advance (fun _ _ _ hloop => by cases hloop) hx
  | succ links ih => exact h.advance (fun _ _ _ hnext => ih hnext) hx

/-- **What is found is found still.** -/
theorem find (h : Keeps d d') (hx : d.find follow p = .ok x) : d'.find follow p = .ok x := by
  rw [find_eq_ok_iff, locate] at hx ⊢
  split at hx
  · cases hx
  rw [if_neg ‹_›]
  split at hx
  · cases hx
  rw [if_neg ‹_›]
  split at hx
  · cases hx
  rw [if_neg ‹_›, h.here]
  exact h.resolve hx

/-- A path of any length reaches what it reached. -/
theorem reach (h : Keeps d d') (hx : d.reach p = .ok x) : d'.reach p = .ok x := by
  obtain ⟨hnul, hempty, hfound⟩ := reach_eq_ok_iff.mp hx
  exact reach_eq_ok_iff.mpr ⟨hnul, hempty, h.here.symm ▸ h.resolve hfound⟩

/-- A path that leads to a file leads to one still. -/
theorem exists_entry_file (h : Keeps d d') {mode : Mode} {content : Bytes}
    (he : d.entry p = .ok (.file mode content)) :
    ∃ mode' content', d'.entry p = .ok (.file mode' content') := by
  obtain ⟨x, hx, hfile⟩ := entry_eq_ok_iff.mp he
  obtain ⟨e', he', hlike⟩ := h.alike hfile
  cases hlike with
  | refl => exact ⟨mode, content, entry_eq_ok_iff.mpr ⟨x, h.find hx, he'⟩⟩
  | file _ mode' _ content' => exact ⟨mode', content', entry_eq_ok_iff.mpr ⟨x, h.find hx, he'⟩⟩

/-- A path that leads to a directory leads to one still. -/
theorem isDirectory (h : Keeps d d') (hdir : d.isDirectory p = true) : d'.isDirectory p = true := by
  rw [Disk.isDirectory] at hdir ⊢
  cases hentry : d.entry p with
  | error fault =>
    rw [hentry] at hdir
    cases hdir
  | ok e =>
    rw [hentry] at hdir
    obtain ⟨x, hx, he⟩ := entry_eq_ok_iff.mp hentry
    obtain ⟨e', he', hlike⟩ := h.alike he
    rw [entry_eq_ok_iff.mpr ⟨x, h.find hx, he'⟩]
    cases hlike with
    | refl => exact hdir
    | file => cases hdir
    | directory => rfl

end Keeps

/-- On two disks with the same entries a path reaches the same. -/
theorem toOption_reach_congr (hhere : d'.here = d.here) (h : ∀ x, d'.get? x = d.get? x) (p : Path) :
    (d'.reach p).toOption = (d.reach p).toOption := by
  have hforth := Keeps.of_get? hhere h
  have hback := Keeps.of_get? hhere.symm fun x => (h x).symm
  cases hreach : d.reach p with
  | ok x => rw [hforth.reach hreach]
  | error fault =>
    cases hreach' : d'.reach p with
    | ok x =>
      rw [hback.reach hreach'] at hreach
      cases hreach
    | error fault' => rfl

/-! ## Operations -/

/-- A change in one place keeps the disk if the new entry leads alike to the old one there, if any. -/
theorem Changed.keeps (h : Changed d d' loc e) (hhere : d'.here = d.here)
    (hlike : ∀ old, d.get? loc = some old → Alike old e) : Keeps d d' where
  here := hhere
  alike := by
    intro x old hold
    by_cases hx : x = loc
    · rw [hx] at hold ⊢
      exact ⟨e, h.get?_self, hlike old hold⟩
    · exact ⟨old, (h.get?_of_ne hx).trans hold, .refl old⟩

/-- A file is put where nothing or another file is. -/
theorem keeps_put_file {mode : Mode} {content : Bytes}
    (h : ∀ e, d.get? loc = some e → e.kind = .file) : Keeps d (d.put loc (.file mode content)) := by
  by_cases hfits : Fits d.table loc (.file mode content)
  · refine (changed_put hfits).keeps (here_put ..) fun old hold => ?_
    have hkind := h old hold
    cases old with
    | file mode' content' => exact .file ..
    | directory mode' => cases hkind
    | link target => cases hkind
  · rw [put, dif_neg hfits]
    exact .of_get? rfl fun _ => rfl

/-- A file is written to a free place, or over another file. -/
theorem kind_of_target {newMode mode : Mode} (h : d.target p newMode = .ok (loc, mode)) :
    ∀ e, d.get? loc = some e → e.kind = .file := by
  rw [target] at h
  split at h
  · cases hplace : d.locate false (withoutSlashes p) <;> rw [hplace] at h <;> cases h
  · cases hplace : d.locate true p with
    | error fault =>
      rw [hplace] at h
      cases h
    | ok place =>
      rw [hplace] at h
      cases place with
      | vacant y slashed =>
        cases slashed <;> cases h
        intro e he
        cases (leadsTo_of_locate hplace).confirmed with
        | vacant _ _ free =>
          rw [free] at he
          cases he
      | found y =>
        simp only at h
        split at h
        · rename_i mode' content hfile
          cases h
          intro e he
          rw [hfile] at he
          cases he
          rfl
        · cases h

/-- Writing a file keeps the disk: it takes the place of a file or of nothing. -/
theorem keeps_write {content : Bytes} (h : d.write p content = .ok d') : Keeps d d' := by
  obtain ⟨⟨x, mode⟩, htarget, rfl⟩ := exists_of_map_eq_ok h
  exact keeps_put_file (kind_of_target htarget)

/-- So does copying one, which writes where a write would. -/
theorem keeps_copy {source : Path} (h : d.copy source p = .ok d') : Keeps d d' := by
  obtain ⟨origin, -, hcopied⟩ := exists_of_bind_eq_ok h
  split at hcopied
  · obtain ⟨⟨x, mode⟩, htarget, rfl⟩ := exists_of_map_eq_ok hcopied
    exact keeps_put_file (kind_of_target htarget)
  · cases hcopied
  · cases hcopied

/-- Other permission bits lead no path elsewhere. -/
theorem keeps_setMode {mode : Mode} (h : d.setMode p mode = .ok d') : Keeps d d' := by
  obtain ⟨x, -, hset⟩ := exists_of_bind_eq_ok h
  split at hset
  · rename_i hfile
    cases hset
    refine keeps_put_file fun e he => ?_
    rw [hfile] at he
    cases he
    rfl
  · rename_i old hdirectory
    cases hset
    by_cases hfits : Fits d.table x (.directory mode)
    · refine (changed_put hfits).keeps (here_put ..) fun e he => ?_
      rw [hdirectory] at he
      cases he
      exact .directory ..
    · rw [put, dif_neg hfits]
      exact .of_get? rfl fun _ => rfl
  · cases hset

/-- Directories are only made where nothing lies, so that making them keeps the disk even where it stops
    half-way. -/
theorem keeps_makeDirectories (d : Disk) (p : Path) : Keeps d (d.makeDirectories p).1 := by
  refine makeDirectoriesFrom_preserves (P := Keeps d) (fun q _ d₁ d₂ hkeeps hmake => ?_)
    (.of_get? rfl fun _ => rfl)
  obtain ⟨x, slashed, hplace, rfl⟩ := makeDirectory_eq_ok hmake
  refine hkeeps.trans ?_
  cases (leadsTo_of_locate hplace).confirmed with
  | vacant rooted proper free =>
    refine (changed_put (fits_of_none rooted proper free _)).keeps (here_put ..) fun old hold => ?_
    rw [free] at hold
    cases hold

/-! ## Where a path leads whatever is added -/

/-- Whatever is added to the disk, the path leads to the location or nowhere. -/
def Reaches (d : Disk) (p : Path) (loc : Location) : Prop :=
  ∀ {d' x}, Keeps d d' → d'.find true p = .ok x → x = loc

/-- What is added may come in several steps. -/
theorem Reaches.of_keeps (h : d.Reaches p loc) (hkeeps : Keeps d d') : d'.Reaches p loc :=
  fun hnext hx => h (hkeeps.trans hnext) hx

theorem Reaches.eq (h : d.Reaches p loc) (hx : d.find true p = .ok x) : x = loc :=
  h (.of_get? rfl fun _ => rfl) hx

/-- A path that was found to lead to a location leads nowhere else later. -/
theorem reaches_of_find (h : d.find true p = .ok loc) : d.Reaches p loc := fun hkeeps hx =>
  Except.ok.inj (hx.symm.trans (hkeeps.find h))

/-- The path of a file or directory leads to it alone: no link comes to lie on the way to it. -/
theorem reaches_of_get? (he : d.get? loc = some e) (hkind : e.kind ≠ .link) :
    d.Reaches (pathOf loc) loc := by
  intro d' x hkeeps hx
  obtain ⟨e', he', hlike⟩ := hkeeps.alike he
  exact (spells_of_get? he).eq_of_find (isPlain_of_get? he' (hlike.kind_ne_link hkind)) hx

end Stencil.Disk
