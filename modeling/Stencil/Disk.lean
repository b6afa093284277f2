/-
  The files on a disk.

  A disk is a table from locations to entries.  A location is the list of names that leads to an entry
  from the root; the root itself is always a directory and does not stand in the table.  That every
  entry has a proper name and lies in a directory is part of the type, so all that can be done to a
  disk is `put`, which does nothing where the entry would not fit, and `eraseTree`, which takes an
  entry away with all that lies below it.

  A process that works on the disk has a working directory, `here`.
-/
import Stencil.Keyed
import Stencil.Path
import Stencil.Sorted

namespace Stencil

/-- Where an entry lies: the names that lead to it from the root. -/
abbrev Location := List Name

/-- The permission bits of a file or directory. -/
abbrev Mode := Nat

/-- What lies at a location. -/
inductive Entry where
  | file (mode : Mode) (content : Bytes)
  | directory (mode : Mode)
  | link (target : Bytes)
  deriving DecidableEq

namespace Entry

/-- The permission bits of a new directory. -/
def directoryMode : Mode := 0o755

/-- The permission bits of a new file. -/
def fileMode : Mode := 0o644

/-- Is it a directory? -/
def isDirectory : Entry → Bool
  | directory _ => true
  | _ => false

end Entry

/-- What kind of entry a listing shows. -/
inductive Kind where
  | file
  | directory
  | link
  deriving DecidableEq

/-- The kind of an entry. -/
def Entry.kind : Entry → Kind
  | file _ _ => .file
  | directory _ => .directory
  | link _ => .link

namespace Disk

/-- A table of entries by location. -/
abbrev Table := List (Location × Entry)

/-- What lies at a location.  The root is a directory. -/
def entryAt (t : Table) (loc : Location) : Option Entry :=
  if loc = [] then some (.directory Entry.directoryMode) else t.lookup loc

/-- Is there a directory at the location? -/
def isDirectoryAt (t : Table) (loc : Location) : Bool := (entryAt t loc).any Entry.isDirectory

/-- Are all names of a location names that entries can have? -/
def isProper (loc : Location) : Bool := loc.all Path.isEntryName

/-- Every location stands in the table once, it is proper, and the one above it is a directory. -/
structure Sound (t : Table) : Prop where
  nodup : (t.map Prod.fst).Nodup
  proper : ∀ loc ∈ t.map Prod.fst, loc ≠ [] ∧ isProper loc = true
  rooted : ∀ loc ∈ t.map Prod.fst, isDirectoryAt t loc.dropLast = true

end Disk

/-- The files on a disk, and the working directory of the process that works on it. -/
structure Disk where
  table : Disk.Table
  sound : Disk.Sound table
  here : Location
  hereProper : Disk.isProper here = true
  deriving DecidableEq

namespace Disk

/-- The disk on which there is only the root. -/
def empty : Disk where
  table := []
  sound := ⟨List.nodup_nil, by simp, by simp⟩
  here := []
  hereProper := rfl

/-- What lies at a location. -/
def get? (d : Disk) (loc : Location) : Option Entry := entryAt d.table loc

/-- Can the entry stand at the location: under a proper name, in a directory, and not in the place of a
    directory unless it is one? -/
structure Fits (t : Table) (loc : Location) (e : Entry) : Prop where
  notRoot : loc ≠ []
  proper : isProper loc = true
  rooted : isDirectoryAt t loc.dropLast = true
  keeps : isDirectoryAt t loc = true → e.isDirectory = true

theorem fits_iff {t : Table} {loc : Location} {e : Entry} :
    Fits t loc e ↔ loc ≠ [] ∧ isProper loc = true ∧ isDirectoryAt t loc.dropLast = true ∧
      (isDirectoryAt t loc = true → e.isDirectory = true) :=
  ⟨fun h => ⟨h.1, h.2, h.3, h.4⟩, fun h => ⟨h.1, h.2.1, h.2.2.1, h.2.2.2⟩⟩

instance (t : Table) (loc : Location) (e : Entry) : Decidable (Fits t loc e) :=
  decidable_of_iff _ fits_iff.symm

/-- Directories stay directories when an entry is put where it fits. -/
theorem isDirectoryAt_insertKey {t : Table} {loc : Location} {e : Entry} (h : Fits t loc e)
    {dir : Location} (hd : isDirectoryAt t dir = true) :
    isDirectoryAt (insertKey loc e t) dir = true := by
  by_cases hl : dir = loc
  · subst hl
    simp [isDirectoryAt, entryAt, h.notRoot, h.keeps hd]
  · simpa [isDirectoryAt, entryAt, lookup_insertKey_of_ne hl] using hd

/-- **A sound table stays sound** when an entry is put where it fits. -/
theorem sound_insertKey {t : Table} (s : Sound t) {loc : Location} {e : Entry} (h : Fits t loc e) :
    Sound (insertKey loc e t) where
  nodup := nodup_insertKey s.nodup
  proper := by
    intro x hx
    rcases mem_keys_insertKey.1 hx with rfl | hx
    · exact ⟨h.notRoot, h.proper⟩
    · exact s.proper x hx
  rooted := by
    intro x hx
    rcases mem_keys_insertKey.1 hx with rfl | hx
    · exact isDirectoryAt_insertKey h h.rooted
    · exact isDirectoryAt_insertKey h (s.rooted x hx)

/-- Puts an entry at a location, if it fits there. -/
def put (d : Disk) (loc : Location) (e : Entry) : Disk :=
  if h : Fits d.table loc e then { d with table := insertKey loc e d.table, sound := sound_insertKey d.sound h }
  else d

/-- Does `loc` lie at or below `top`? -/
def isBelow (top loc : Location) : Bool := top.isPrefixOf loc

/-- The table without what lies at or below a location. -/
def eraseBelow (top : Location) (t : Table) : Table := t.filter fun e => !isBelow top e.1

/-- What does not lie below is looked up as before. -/
theorem lookup_eraseBelow {top loc : Location} (h : isBelow top loc = false) (t : Table) :
    (eraseBelow top t).lookup loc = t.lookup loc := by
  induction t with
  | nil => rfl
  | cons e t ih =>
    obtain ⟨x, e⟩ := e
    simp only [eraseBelow, List.filter_cons] at ih ⊢
    cases hx : isBelow top x with
    | false => simp [List.lookup_cons, ih]
    | true =>
      have hne : loc ≠ x := by
        rintro rfl
        rw [h] at hx
        cases hx
      simp [List.lookup_cons, beq_eq_false_iff_ne.mpr hne, ih]

theorem isBelow_dropLast {top loc : Location} (h : isBelow top loc = false) :
    isBelow top loc.dropLast = false := by
  cases hc : isBelow top loc.dropLast with
  | false => rfl
  | true =>
    have hp : top <+: loc := (List.isPrefixOf_iff_prefix.1 hc).trans (List.dropLast_prefix loc)
    rw [isBelow, List.isPrefixOf_iff_prefix.2 hp] at h
    exact h

/-- **A sound table stays sound** when a tree is taken out of it: nothing is left that lay in it. -/
theorem sound_eraseBelow {t : Table} (s : Sound t) (top : Location) : Sound (eraseBelow top t) where
  nodup := by
    have hs : ((eraseBelow top t).map Prod.fst).Sublist (t.map Prod.fst) :=
      List.Sublist.map _ List.filter_sublist
    exact hs.nodup s.nodup
  proper := by
    intro loc hloc
    obtain ⟨e, he, rfl⟩ := List.mem_map.1 hloc
    exact s.proper e.1 (List.mem_map.2 ⟨e, (List.mem_filter.1 he).1, rfl⟩)
  rooted := by
    intro loc hloc
    obtain ⟨e, he, rfl⟩ := List.mem_map.1 hloc
    obtain ⟨ht, hb⟩ := List.mem_filter.1 he
    have hb : isBelow top e.1 = false := by simpa using hb
    have hd := s.rooted e.1 (List.mem_map.2 ⟨e, ht, rfl⟩)
    unfold isDirectoryAt entryAt at *
    by_cases hroot : e.1.dropLast = []
    · simp [hroot, Entry.isDirectory]
    · simp only [hroot, if_false] at *
      rw [lookup_eraseBelow (isBelow_dropLast hb)]
      exact hd

/-- Takes away what lies at a location and below it. -/
def eraseTree (d : Disk) (top : Location) : Disk :=
  { d with table := eraseBelow top d.table, sound := sound_eraseBelow d.sound top }

/-- The names in a directory with the kinds of their entries, in the order of their bytes. -/
def children (d : Disk) (dir : Location) : List (Name × Kind) :=
  sortBy (fun a b => a.1 ≤ b.1) (d.table.filterMap fun (loc, e) =>
    if loc.dropLast = dir then loc.getLast?.map fun name => (name, e.kind) else none)

/-- The path of a location. -/
def pathOf (loc : Location) : Path := ⟨Bytes.slash :: List.intercalate [Bytes.slash] loc⟩

end Disk

end Stencil
