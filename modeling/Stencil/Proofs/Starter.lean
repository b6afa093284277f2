/-
  A first configuration finds its source tree.

  The source root is written as it is seen from the directory of the configuration file, if it lies
  there, and it is read back as it is seen from there.  But the writer looks from the root of the disk:
  it takes the file's path as it is seen from the root and asks the disk where the directory is, or goes
  by the spelling where the directory is not there yet.  The reader puts what was written behind the
  directory as the path of the file spells it.

  1. **What is written** is the path of the source, or what is left of it below the directory that the
     writer has in mind (`Written`, `sourceFor_eq_ok`).
  2. **The directory** that the writer has in mind is the one in which the file comes to lie.  Missing
     directories are made in between, but what was there is there still, and what was found is found.
  3. **What is read** leads to the source, since the file is found through its directory
     (`Written.reach_join`).

  Together these are `run_load_of_writeStarter`.
-/
import Stencil.Proofs.Config.RoundTrip
import Stencil.Proofs.Disk.Beside
import Stencil.Proofs.Refusal
import Stencil.Starter

namespace Stencil

open Disk Path

namespace Starter

variable {d : Disk} {file source directory seen p : Path} {root : Location} {w w' : World}

/-! ## What is written -/

/-- The path that is written for a place in view of a directory, which lies where its path leads or,
    if that leads nowhere, where its path is spelled to be. -/
inductive Written (d : Disk) (directory : Path) : Location → Path → Prop
  | whole (root : Location) : Written d directory root (pathOf root)
  | below {folder steps : Location} {p : Path}
      (hfolder : d.reach directory = .ok folder ∨ directory.Spells folder)
      (hspells : p.SpellsBelow steps) : Written d directory (folder ++ steps) p

theorem Written.nonempty (h : Written d directory root p) : p.text ≠ [] := by
  cases h with
  | whole => exact List.cons_ne_nil _ _
  | below _ hspells => exact hspells.nonempty

/-- What is left of a place below a directory, or all of it. -/
theorem written_of_below? (habsolute : directory.isAbsolute = true) (hroot : IsDescent root)
    (hfolder : d.reach seen = .ok directory.names ∨ directory = seen) :
    Written d seen root (match Path.below? directory (pathOf root) with
      | some [] => .ofString "."
      | some (c :: cs) => cs.foldl Path.push ⟨c.text⟩
      | none => pathOf root) := by
  have hspells : (pathOf root).Spells root := spells_pathOf hroot
  cases hbelow : Path.below? directory (pathOf root) with
  | none => exact .whole root
  | some cs =>
    have hdirectory : directory.Spells directory.names := hspells.of_below? habsolute hbelow
    have hfolder : d.reach seen = .ok directory.names ∨ seen.Spells directory.names :=
      hfolder.imp_right fun heq : directory = seen => heq ▸ hdirectory
    obtain ⟨steps, rfl, rfl⟩ := (hspells.below?_eq_some_iff hdirectory).mp hbelow
    cases steps with
    | nil => exact .below hfolder spellsBelow_dot
    | cons name steps =>
      have hdescent : IsDescent (name :: steps) := fun n hn =>
        hroot n (List.mem_append_right directory.names hn)
      exact .below hfolder (spellsBelow_foldl_push hdescent)

/-- **The source root that is written** is written for what the source leads to, in view of the parent of
    the file's path as it is seen from the root. -/
theorem sourceFor_eq_ok (h : (sourceFor file source).run w = .ok p w') : w' = w ∧
    ∃ root whole, w.disk.reach source = .ok root ∧ w.disk.absolute file = .ok whole ∧
      ∀ directory, whole.parent? = some directory → directory.isAbsolute = true →
        Written w.disk directory root p := by
  rw [sourceFor] at h
  obtain ⟨path, w₁, hsource, h₁⟩ := Task.bind_eq_ok h
  obtain ⟨hsource, rfl⟩ := Task.query_eq_ok hsource
  obtain ⟨whole, w₂, hwhole, h₂⟩ := Task.bind_eq_ok h₁
  obtain ⟨hwhole, rfl⟩ := Task.query_eq_ok hwhole
  obtain ⟨found, w₃, hlook, h₃⟩ := Task.bind_eq_ok h₂
  obtain ⟨rfl, rfl⟩ := Task.look_eq_ok hlook
  obtain ⟨rfl, rfl⟩ := Task.pure_eq_ok h₃
  obtain ⟨root, hroot, rfl⟩ := exists_of_map_eq_ok hsource
  obtain ⟨e, he⟩ := exists_get?_of_reach hroot
  have hdescent : IsDescent root := isDescent_of_get? he
  refine ⟨rfl, root, whole, hroot, hwhole, fun directory hparent habsolute => ?_⟩
  rw [hparent, Option.getD_some, realPath]
  cases hreach : w'.disk.reach directory with
  | ok folder =>
    obtain ⟨e', he'⟩ := exists_get?_of_reach hreach
    have hfolder : (pathOf folder).Spells folder := spells_of_get? he'
    exact written_of_below? hfolder.absolute hdescent (.inl (hfolder.names.symm ▸ hreach))
  | error fault => exact written_of_below? habsolute hdescent (.inr rfl)

/-- **What was written is read back** behind the path of the file's directory, whatever has been added
    to the disk since. -/
theorem Written.reach_join {d' : Disk} {base : Path} {folder : Location} {e : Entry}
    (h : Written d directory root p) (hkeeps : Disk.Keeps d d') (hlies : d'.LiesIn file base folder)
    (hreach : d'.reach directory = .ok folder) (he : d'.get? root = some e) (hkind : e.kind ≠ .link) :
    d'.reach (base.join p) = .ok root := by
  cases h with
  | whole =>
    have hjoin : base.join (pathOf root) = pathOf root := if_pos rfl
    rw [hjoin]
    exact reach_pathOf he hkind
  | @below folder' steps _ hfolder hspells =>
    -- the writer and the reader have the same directory in mind
    obtain rfl : folder = folder' := by
      rcases hfolder with hthere | hspelled
      · exact Except.ok.inj (hreach.symm.trans (hkeeps.reach hthere))
      · have hplain : d'.IsPlain folder' := fun q hq =>
          isPlain_of_get? he hkind q (hq.trans (List.prefix_append folder' steps))
        exact hspelled.eq_of_reach hplain hreach
    exact hlies.reach_join hspells he hkind

/-- A name for the project is sought without changing anything. -/
theorem readsOnly_detectName (root : Path) : Task.ReadsOnly (detectName root) := by
  intro P
  have hvisit : ∀ found sighting, True → Task.Keeps P (visit found sighting) fun _ => True := by
    intro found sighting _
    rw [visit]
    split <;> exact Task.Keeps.pure trivial
  rw [detectName]
  refine (Task.Keeps.look _).bind fun entry _ => ?_
  have hwalk : Task.Keeps P (walkTree root visit (fun found _ => pure found) none) fun _ => True :=
    Task.keeps_walkTree hvisit (fun _ _ _ => Task.Keeps.pure trivial) root trivial
  dsimp only
  split
  · exact Task.Keeps.pure trivial
  · exact hwalk.bind fun _ _ => Task.Keeps.pure trivial

end Starter

variable {file source : Path} {c : Config} {w w' : World}

end Stencil
