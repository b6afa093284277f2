/-
  Where a project is put.

  The name of a project takes the place of the last name of the output path.  It is a text that someone
  gave, and it is read as a path.

  1. **The components of the result.**  A name that starts with a slash is the result.  The names of any
     other stand behind the directory of the output path (`components_projectOutput`).
  2. **One entry.**  So the project lands beside the output path, in the same directory, exactly if what is
     read behind that directory is a single name and no step back (`landsBeside_of_some`).  A name without
     a slash that is neither `.` nor `..` is its own single name (`names_of_plain`).
-/
import Stencil.Proofs.Path.Absolute
import Stencil.Proofs.Path.Places
import Stencil.Proofs.Transform.Blank

namespace Stencil

namespace Path

variable {xs ys : List Name}

theorem said_injective : Function.Injective said := by
  intro a b h
  have htext := congrArg Component.text h
  rwa [text_said, text_said] at htext

/-- Where one list of names says what another one says, and then one entry, that is its last name. -/
theorem map_said_eq_concat_iff : (∃ entry, xs.map said = ys.map said ++ [.normal entry]) ↔
    ∃ entry, entry ≠ back ∧ xs = ys ++ [entry] := by
  constructor
  · rintro ⟨entry, h⟩
    obtain ⟨front, last, rfl, hfront, hlast⟩ := List.map_eq_append_iff.mp h
    obtain ⟨name, rfl, hname⟩ := List.map_eq_singleton_iff.mp hlast
    refine ⟨name, ?_, by rw [List.map_injective_iff.mpr said_injective hfront]⟩
    rintro rfl
    cases hname
  · rintro ⟨entry, hback, rfl⟩
    refine ⟨entry, ?_⟩
    rw [List.map_append, List.map_singleton, said, if_neg hback]

end Path

open Path

variable {output directory : Path} {values : Values} {name : String} {last : Name}

/-- Does the project lie in the directory of the output path, as one entry of it?  Without a project name
    it is the output path itself. -/
def LandsBeside (output : Path) (values : Values) : Prop :=
  match projectName? values with
  | none => projectOutput output values = output
  | some _ => ∃ directory entry, output.parent? = some directory ∧
      (projectOutput output values).components = directory.components ++ [.normal entry]

/-- Does the name, read as a path, come to a single entry of the directory?  A name that starts with a
    slash has to go through the names of the directory for that. -/
def NamesEntry (directory : Path) (name : String) : Prop :=
  ∃ entry, entry ≠ back ∧ (Path.ofString name).names =
    (if (Path.ofString name).isAbsolute then directory.names else []) ++ [entry]

/-- A project name shows something. -/
theorem isBlank_of_projectName? (h : projectName? values = some name) : isBlank name = false := by
  obtain ⟨value, -, hvalue⟩ := Option.bind_eq_some_iff.mp h
  split at hvalue
  · cases hvalue
  · rename_i hshows
    rw [← Option.some.inj hvalue]
    exact isBlank_trim (Bool.not_eq_true _ ▸ hshows)

/-- The directory of an absolute path is absolute, and the path names one entry of it. -/
theorem components_of_parent? (habsolute : output.isAbsolute = true)
    (hparent : output.parent? = some directory) : directory.isAbsolute = true ∧
    ∀ last, output.fileName? = some last → output.components = directory.components ++ [.normal last] := by
  obtain ⟨hstart, hnames⟩ := names_parent? hparent
  have hdirectory : directory.isAbsolute = true := hstart.trans habsolute
  refine ⟨hdirectory, ?_⟩
  intro last hlast
  obtain ⟨hempty, -⟩ | ⟨final, hfinal⟩ := hnames
  · rw [isAbsolute, hempty] at hdirectory
    cases hdirectory
  · have hcomponents : output.components = directory.components ++ [said final] := by
      rw [components_of_absolute habsolute, components_of_absolute hdirectory, hfinal, List.map_append]
      rfl
    rw [fileName?, hcomponents, List.getLast?_concat] at hlast
    split at hlast
    · rename_i name hname
      rw [hcomponents, Option.some.inj hname, Option.some.inj hlast]
    · cases hlast

/-- **The components of the result.** -/
theorem components_projectOutput (hdirectory : directory.isAbsolute = true)
    (hparent : output.parent? = some directory) (hname : projectName? values = some name) :
    (projectOutput output values).components = if (Path.ofString name).isAbsolute then
      (Path.ofString name).components
      else directory.components ++ (Path.ofString name).names.map said := by
  have houtput : projectOutput output values = directory.join (.ofString name) := by
    simp only [projectOutput, hname, hparent]
  rw [houtput]
  split
  · rename_i hrooted
    rw [join, if_pos hrooted]
  · rename_i hrelative
    have hne : directory.text ≠ [] := by
      intro hempty
      rw [isAbsolute, hempty] at hdirectory
      cases hdirectory
    exact components_join_relative hne (Bool.not_eq_true _ ▸ hrelative)

example : projectOutput (.ofString "/apps/new-app") (NameMap.ofList [("name", "../app")]) =
    .ofString "/apps/../app" := by decide +kernel

/-- **When the project lands beside the output path.** -/
theorem landsBeside_of_some (hdirectory : directory.isAbsolute = true)
    (hparent : output.parent? = some directory) (hname : projectName? values = some name) :
    LandsBeside output values ↔ NamesEntry directory name := by
  have hunfold : LandsBeside output values ↔ ∃ entry,
      (projectOutput output values).components = directory.components ++ [.normal entry] := by
    simp only [LandsBeside, hname, hparent, Option.some.injEq, exists_and_left, exists_eq_left']
  rw [hunfold, components_projectOutput hdirectory hparent hname, NamesEntry]
  split
  · rename_i hrooted
    rw [← map_said_eq_concat_iff, components_of_absolute hrooted, components_of_absolute hdirectory]
    simp only [List.cons_append, List.cons.injEq, true_and]
  · rw [← map_said_eq_concat_iff]
    simp only [List.append_cancel_left_eq, List.map_nil, List.nil_append]

/-- A name without a slash is a single name, unless it is a dot or two. -/
theorem names_of_plain (hname : isBlank name = false) (hslash : '/' ∉ name.toList) (hdot : name ≠ ".") :
    (Path.ofString name).isAbsolute = false ∧ (Path.ofString name).names = [Bytes.ofString name] := by
  have hwhole : Bytes.slash ∉ Bytes.ofString name := by
    intro hmem
    obtain ⟨c, hc, hbyte⟩ := List.mem_flatMap.mp hmem
    exact Bytes.slash_not_mem_encode (fun heq => hslash (heq ▸ hc)) hbyte
  have hspeaks : isIdle (Bytes.ofString name) = false := by
    have hempty : Bytes.ofString name ≠ [] := by
      refine Bytes.ofString_ne_nil ?_
      rintro rfl
      cases hname
    have hdots : Bytes.ofString name ≠ [0x2E] := fun heq => hdot (Bytes.ofString_injective heq)
    simp [isIdle, hempty, hdots]
  exact ⟨isAbsolute_of_whole hwhole, names_of_whole hspeaks hwhole⟩

/-- **Where the project of an absolute output path lands.**
    (1) The output path is an entry of its directory.
    (2) Without a project name it is the result.
    (3) With one, the result is an entry of the same directory exactly if the name, read as a path, comes to
        a single entry of it.
    (4) That is so for every name without a slash that is neither `.` nor `..`, and it is that entry. -/
theorem landsBeside_iff (habsolute : output.isAbsolute = true)
    (hparent : output.parent? = some directory) (hlast : output.fileName? = some last)
    (values : Values) :
    output.components = directory.components ++ [.normal last] ∧
    (projectName? values = none → projectOutput output values = output) ∧
    (LandsBeside output values ↔
      ∀ name, projectName? values = some name → NamesEntry directory name) ∧
    ∀ name, projectName? values = some name → '/' ∉ name.toList → name ≠ "." → name ≠ ".." →
      (projectOutput output values).components =
        directory.components ++ [.normal (Bytes.ofString name)] := by
  obtain ⟨hdirectory, hentry⟩ := components_of_parent? habsolute hparent
  have hstays : projectName? values = none → projectOutput output values = output := by
    intro hname
    simp only [projectOutput, hname]
  refine ⟨hentry last hlast, hstays, ?_, ?_⟩
  · cases hname : projectName? values with
    | none => simpa [LandsBeside, hname] using hstays hname
    | some name =>
      rw [landsBeside_of_some hdirectory hparent hname]
      simp
  · intro name hname hslash hdot hback
    obtain ⟨hrelative, hnames⟩ := names_of_plain (isBlank_of_projectName? hname) hslash hdot
    have honward : Bytes.ofString name ≠ back := fun heq => hback (Bytes.ofString_injective heq)
    rw [components_projectOutput hdirectory hparent hname, hrelative, hnames, List.map_singleton, said,
      if_neg honward]
    rfl

/-- A name with white space around it and a slash at its end. -/
theorem landsBeside_spaced :
    (Path.ofString "/apps/new-app").isAbsolute = true ∧
    (Path.ofString "/apps/new-app").parent? = some (.ofString "/apps") ∧
    (Path.ofString "/apps/new-app").fileName? = some (Bytes.ofString "new-app") ∧
    LandsBeside (.ofString "/apps/new-app") (NameMap.ofList [("PROJECT_NAME", " Shop/ ")]) := by
  have habsolute : (Path.ofString "/apps/new-app").isAbsolute = true := by decide
  have hparent : (Path.ofString "/apps/new-app").parent? = some (.ofString "/apps") := by
    decide +kernel
  have hlast : (Path.ofString "/apps/new-app").fileName? = some (Bytes.ofString "new-app") := by
    decide +kernel
  have hname : projectName? (NameMap.ofList [("PROJECT_NAME", " Shop/ ")]) = some "Shop/" := by
    decide +kernel
  have hentry : NamesEntry (.ofString "/apps") "Shop/" :=
    ⟨Bytes.ofString "Shop", by decide +kernel, by decide +kernel⟩
  refine ⟨habsolute, hparent, hlast, ?_⟩
  refine (landsBeside_iff habsolute hparent hlast _).2.2.1.mpr fun name h => ?_
  rw [hname] at h
  exact Option.some.inj h ▸ hentry

/-- A name that starts with a slash leaves the directory. -/
theorem not_landsBeside_rooted :
    projectOutput (.ofString "/apps/new-app") (NameMap.ofList [("PROJECT_NAME", "/app")]) =
      .ofString "/app" ∧
    ¬ LandsBeside (.ofString "/apps/new-app") (NameMap.ofList [("PROJECT_NAME", "/app")]) := by
  have hname : projectName? (NameMap.ofList [("PROJECT_NAME", "/app")]) = some "/app" := by
    decide +kernel
  have houtput : projectOutput (.ofString "/apps/new-app") (NameMap.ofList [("PROJECT_NAME", "/app")]) =
      .ofString "/app" := by decide +kernel
  refine ⟨houtput, ?_⟩
  rw [LandsBeside, hname]
  rintro ⟨directory, entry, hparent, hcomponents⟩
  have hdirectory : (Path.ofString "/apps/new-app").parent? = some (.ofString "/apps") := by
    decide +kernel
  rw [hdirectory] at hparent
  rw [houtput, ← Option.some.inj hparent] at hcomponents
  -- the result has one name, and the directory has one already
  have hlength := congrArg List.length hcomponents
  rw [List.length_append, List.length_singleton] at hlength
  exact absurd hlength (by decide +kernel)

end Stencil
