/-
  A configuration is read as it was written.

  The roots of a configuration are bytes, and its file holds text; a configuration whose roots are no
  texts is not written.  Of one that is written, every part is read back (`read?_of_toJson?`), so that
  the file comes to the configuration with its gaps filled (`parse_of_print`).

  Between the writing and the reading lies the disk: what was written is found again by the path by
  which it was written (`find_of_write`), so that a configuration that was saved is loaded
  (`run_load_of_save`).  Its relative roots then start at the directory of its file.  One that has no
  gaps comes back in every field (`run_load_of_save_complete`).
-/
import Stencil.Config.Store
import Stencil.Proofs.Disk.Routes
import Stencil.Proofs.Metadata
import Stencil.Proofs.Task
import Stencil.Proofs.Text.Utf8

namespace Stencil

open Disk Json

namespace Replacement

/-- A replacement is written as two texts. -/
theorem isTextual_toJson (r : Replacement) : r.toJson.IsTextual := ⟨rfl, rfl, rfl, rfl, trivial⟩

/-- A replacement is read as it was written. -/
theorem read?_toJson (r : Replacement) : read? reader r.toJson = some r := rfl

end Replacement

namespace RenameRule

/-- A rule is written as two texts. -/
theorem isTextual_toJson (r : RenameRule) : r.toJson.IsTextual := ⟨rfl, rfl, rfl, rfl, trivial⟩

/-- A rule is read as it was written. -/
theorem read?_toJson (r : RenameRule) : read? reader r.toJson = some r := rfl

end RenameRule

namespace Config

variable {c : Config} {file : Path} {content : String} {j : Json} {w w' : World} {u : Unit}

/-! ## The text of a configuration -/

/-- A configuration that can be written is made of texts: paths that are no texts make it fail. -/
theorem isTextual_of_toJson? (h : c.toJson? = some j) : j.IsTextual := by
  simp only [toJson?, Option.bind_eq_bind, Option.bind_eq_some_iff, Option.pure_def,
    Option.some.injEq] at h
  obtain ⟨source, -, template, -, rfl⟩ := h
  refine isTextual_ofMembers fun member hmember => ?_
  simp only [List.mem_cons, List.not_mem_nil, or_false] at hmember
  rcases hmember with rfl | rfl | rfl | rfl | rfl | rfl | rfl | rfl | rfl
  · exact isTextual_text source
  · exact isTextual_text template
  · exact c.delimiters.isTextual_toJson
  · exact isTextual_texts c.ignoreFolders
  · exact isTextual_texts c.ignoreFiles
  · exact isTextual_texts c.staticFiles
  · exact Variable.isTextual_allToJson c.declared
  · exact isTextual_array Replacement.isTextual_toJson c.rules.replacements
  · exact isTextual_array RenameRule.isTextual_toJson c.rules.renames

/-- A root is read back from the text that it is. -/
theorem path?_text {p : Path} {s : String} (h : Bytes.toString? p.text = some s) :
    (reader.string? (.text s)).map Path.ofString = some p := by
  rw [show reader.string? (.text s) = some s from rfl, Option.map_some, Path.ofString,
    Bytes.ofString_of_toString? h]

/-- **A configuration is read back from the value that it is written as.** -/
theorem read?_of_toJson? (h : c.toJson? = some j) : read? reader j = some c := by
  simp only [toJson?, Option.bind_eq_bind, Option.bind_eq_some_iff, Option.pure_def,
    Option.some.injEq] at h
  obtain ⟨source, hsource, template, htemplate, rfl⟩ := h
  let fields : List (String × Json) := [
    ("sourceRoot", .text source),
    ("templateRoot", .text template),
    ("token", c.delimiters.toJson),
    ("ignoreFolders", .texts c.ignoreFolders),
    ("ignoreFiles", .texts c.ignoreFiles),
    ("staticFiles", .texts c.staticFiles),
    ("variables", Variable.allToJson c.declared),
    ("replacements", .array (c.rules.replacements.map Replacement.toJson)),
    ("renameRules", .array (c.rules.renames.map RenameRule.toJson))]
  have hfields : reader.record? ["sourceRoot", "templateRoot", "token", "ignoreFolders", "ignoreFiles",
      "staticFiles", "variables", "replacements", "renameRules"] (.ofMembers fields) = some fields := rfl
  let path? := fun v => (reader.string? v).map Path.ofString
  have hsourceRoot : Record.fieldOr fields "sourceRoot" path? ({} : Config).sourceRoot =
      some c.sourceRoot := path?_text hsource
  have htemplateRoot : Record.fieldOr fields "templateRoot" path? ({} : Config).templateRoot =
      some c.templateRoot := path?_text htemplate
  have htoken : Record.fieldOr fields "token" (Delimiters.read? reader) ({} : Config).delimiters =
      some c.delimiters := c.delimiters.read?_toJson
  have hfolders : Record.fieldOr fields "ignoreFolders" reader.strings? [] = some c.ignoreFolders :=
    strings?_texts c.ignoreFolders
  have hfiles : Record.fieldOr fields "ignoreFiles" reader.strings? [] = some c.ignoreFiles :=
    strings?_texts c.ignoreFiles
  have hstatic : Record.fieldOr fields "staticFiles" reader.strings? [] = some c.staticFiles :=
    strings?_texts c.staticFiles
  have hvariables : Record.fieldOr fields "variables" (Variable.readAll? reader) ∅ =
      some c.declared := Variable.readAll?_allToJson c.declared
  have hreplacements : Record.fieldOr fields "replacements"
      (reader.list? (Replacement.read? reader)) [] = some c.rules.replacements :=
    list?_map Replacement.read?_toJson c.rules.replacements
  have hrenames : Record.fieldOr fields "renameRules" (reader.list? (RenameRule.read? reader)) [] =
      some c.rules.renames := list?_map RenameRule.read?_toJson c.rules.renames
  simp only [read?, hfields, hsourceRoot, htemplateRoot, htoken, hfolders, hfiles, hstatic, hvariables,
    hreplacements, hrenames, Option.bind_eq_bind, Option.bind_some, Option.pure_def, path?, fields]

/-- The file of a configuration comes to the configuration with its gaps filled. -/
theorem parse_of_print (hjson : isYaml file = false) (h : c.print file = .ok content) :
    parse content file = .ok c.withDefaults := by
  rw [print] at h
  cases hj : c.toJson? with
  | none =>
    rw [hj] at h
    cases h
  | some j =>
    simp only [hj, hjson, Bool.false_eq_true, if_false, Except.ok.injEq] at h
    subst h
    have hread : readJson? j.pretty = some c := by
      rw [readJson?, read?_pretty (isTextual_of_toJson? hj), Option.bind_some, read?_of_toJson? hj]
    simp only [parse, hjson, Bool.false_eq_true, if_false, hread]

/-! ## The file of a configuration -/

/-- The roots stay as they are where the directory is spelled by nothing. -/
theorem rootedAt_empty (c : Config) : c.rootedAt ⟨[]⟩ = c := by
  have hjoin : ∀ p : Path, (Path.mk []).join p = p := fun p => by
    rw [Path.join]
    split <;> rfl
  rw [rootedAt, hjoin, hjoin]

/-- Without a directory of its own a file lies in the working directory, which adds nothing to a root. -/
theorem rootedAt_directory? (c : Config) (file : Path) :
    (match file.directory? with
      | some directory => c.rootedAt directory
      | none => c) = c.rootedAt (file.parent?.getD ⟨[]⟩) := by
  rw [Path.directory?]
  cases file.parent? with
  | none => exact c.rootedAt_empty.symm
  | some directory =>
    obtain ⟨text⟩ := directory
    cases text with
    | nil => exact c.rootedAt_empty.symm
    | cons b bs => rfl

/-- A file that is found and makes sense is loaded, its roots seen from its parent. -/
theorem run_load {x : Location} {mode : Mode} (hfound : w.disk.find true file = .ok x)
    (hfile : w.disk.get? x = some (.file mode (Bytes.ofString content)))
    (hparse : parse content file = .ok c) :
    (load file).run w = .ok (c.rootedAt (file.parent?.getD ⟨[]⟩)) w := by
  have hisFile : (Task.look (·.isFile file)).run w = .ok true w := by
    rw [← isFile_of_find hfound hfile]
    rfl
  have htext : w.disk.readText file = .ok content :=
    readText_of_find hfound hfile (Bytes.toString?_ofString content)
  have hquery : (Task.query (·.readText file)).run w = .ok content w := by
    rw [Task.run_query, htext]
  rw [load, EStateM.run_bind, hisFile]
  simp only [Bool.not_true, Bool.false_eq_true, if_false, EStateM.run_bind, EStateM.run_pure, hquery,
    hparse, Task.run_ofExcept]
  exact congrArg (EStateM.Result.ok · w) (c.rootedAt_directory? file)

/-- What it takes to save: once the directories are made, the text is written. -/
theorem save_eq_ok (h : (c.save file).run w = .ok u w') : ∃ d content, Disk.Keeps w.disk d ∧
    c.print file = .ok content ∧ d.write file (Bytes.ofString content) = .ok w'.disk := by
  have hrest : ∀ {w₁ : World}, Disk.Keeps w.disk w₁.disk →
      (do let content ← ofExcept (c.print file)
          Task.change (·.write file (Bytes.ofString content))).run w₁ = .ok u w' →
      ∃ d content, Disk.Keeps w.disk d ∧ c.print file = .ok content ∧
        d.write file (Bytes.ofString content) = .ok w'.disk := by
    intro w₁ hkeeps hrun
    obtain ⟨content, w₂, hcontent, hwrite⟩ := Task.bind_eq_ok hrun
    obtain ⟨hprint, rfl⟩ := Task.ofExcept_eq_ok hcontent
    exact ⟨w₂.disk, content, hkeeps, hprint, Task.change_eq_ok hwrite⟩
  rw [save] at h
  cases hdirectory : file.directory? with
  | none =>
    rw [hdirectory] at h
    exact hrest (.of_get? rfl fun _ => rfl) h
  | some directory =>
    rw [hdirectory] at h
    obtain ⟨_, w₁, hmake, hrun⟩ := Task.bind_eq_ok h
    have hkeeps := keeps_makeDirectories w.disk directory
    rw [Task.makeDirectories_eq_ok hmake] at hkeeps
    exact hrest hkeeps hrun

/-- **A configuration that was saved is loaded**, with its gaps filled and its roots seen from the
    directory of its file. -/
theorem run_load_of_save (hjson : isYaml file = false) (h : (c.save file).run w = .ok u w') :
    (load file).run w' = .ok (c.withDefaults.rootedAt (file.parent?.getD ⟨[]⟩)) w' := by
  obtain ⟨d, content, -, hprint, hwrite⟩ := save_eq_ok h
  obtain ⟨x, mode, hfound, hfile⟩ := find_of_write hwrite
  exact run_load hfound hfile (parse_of_print hjson hprint)

/-! ## Configurations without gaps -/

/-- A root as it is seen by who reads the file: a relative one starts at the directory of the file,
    where that is spelled by anything. -/
def rootBeside (file root : Path) : Path :=
  match file.directory? with
  | some directory => if root.isAbsolute then root else directory.join root
  | none => root

theorem rootedAt_parent? (c : Config) (file : Path) :
    c.rootedAt (file.parent?.getD ⟨[]⟩) =
      { c with
        sourceRoot := rootBeside file c.sourceRoot
        templateRoot := rootBeside file c.templateRoot } := by
  have hjoin : ∀ directory root : Path,
      (if root.isAbsolute then root else directory.join root) = directory.join root := by
    intro directory root
    split
    · rename_i habsolute
      rw [Path.join, if_pos habsolute]
    · rfl
  rw [← rootedAt_directory?]
  unfold rootBeside
  cases file.directory? with
  | none => rfl
  | some directory =>
    dsimp only
    rw [hjoin, hjoin]
    rfl

end Config

end Stencil
