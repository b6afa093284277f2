/-
  A template says what it was built from.

  A build saves the description last, at the root of the template as the system spells it.  A generation
  loads it by the path that it is given.  What is written is read back (`Metadata.read?_print`), so it is
  left to show that the two paths lead to one file, whatever the build has left there.

  1. **The root.**  The path as it is given leads where the path seen from the root leads
     (`leadsTo_of_absolute`).  It did so once the root was made, and does so still.
  2. **The file.**  In the place of the description there may be a file of the source tree, or a link
     from before.  What was written is found there, behind the link or not (`leadsTo_of_write`).

  So the description is loaded (`run_load_of_build`), if the system looks its path up at all: it refuses
  a spelling that is too long, and to follow too many links, though it made the template by a shorter
  path (`not_loaded`).
-/
import Stencil.Proofs.Build.Root
import Stencil.Proofs.Disk.Routes
import Stencil.Proofs.Pipeline.Roots

namespace Stencil

open Disk

namespace Disk

variable {d d' : Disk} {p : Path} {x : Location} {e : Entry}

theorem isDirectoryAt_of_keeps (h : Keeps d d') (he : d.get? x = some e)
    (hdir : isDirectoryAt d'.table x = true) : isDirectoryAt d.table x = true := by
  obtain ⟨e', he', hlike⟩ := h.alike he
  rw [isDirectoryAt_of_get? he'] at hdir
  rw [isDirectoryAt_of_get? he]
  cases hlike with
  | refl => exact hdir
  | file => cases hdir
  | directory => rfl

/-- A path is admitted with a name behind it, if it is once it is seen from the root. -/
theorem noNul_join {name : Name} {q : Path} (hp : d.absolute p = .ok q) (hq : q.Admissible)
    (hname : Path.IsStep name) (hzero : (0 : UInt8) ∉ name) :
    (p.join ⟨name⟩).text.contains 0 = false :=
  Path.noNul_join (noNul_of_absolute hp hq.noNul) hname hzero

end Disk

namespace Build

variable {c : Config} {template p : Path} {now : Timestamp} {report : BuildReport} {w w' : World}
  {source top : Location} {d d' : Disk}

/-- Once its root is made, the path of a template leads there as it is given. -/
theorem TemplateStart.leadsTo (h : TemplateStart template d source p top d') (hhere : d.IsPlain d.here)
    (htop : isDirectoryAt d'.table top = true) : d'.LeadsTo true template (.found top) := by
  obtain ⟨hsame, hgrown⟩ := grown_of_makeDirectories_aim h.made
  have hhere' : d'.here = d.here := hsame.trans (here_cleared d p)
  have hplain : d'.IsPlain d'.here := by
    intro q hq target hlink
    rw [hhere'] at hq
    exact hhere q hq target (get?_of_get?_cleared h.outside (hgrown.of_link hlink))
  exact leadsTo_of_absolute ((absolute_congr hhere' template).trans h.named) hplain htop
    (leadsTo_of_locate (find_eq_ok_iff.mp h.found))

/-- **A template is loaded as it was built**: with the delimiters of the configuration, normalized, its
    variables and all its static patterns, whatever lay in the place of the description.  The working
    directory is spelled without links, the point in time can be told, and the path of the description is
    neither too long nor leads through too many links. -/
theorem run_load_of_build (hhere : w.disk.IsPlain w.disk.here)
    (htime : Timestamp.read? now.toText = some now)
    (hshort : (Metadata.file template).text.length < maxPath)
    (hloop : w'.disk.find true (Metadata.file template) ≠ .error .linkLoop)
    (hbuild : (buildTemplate c template now).run w = .ok report w') :
    (Metadata.load template).run w' = .ok
      { delimiters := c.delimiters.normalized, declared := c.declared, staticFiles := c.staticGlobs,
        generatedAt := now } w' := by
  obtain ⟨source, p, top, ignored, ws, ww, -, hstart, hwalk, hsave⟩ := buildTemplate_eq_ok hbuild
  have hkeeps : Disk.Keeps ws.disk w'.disk := keeps_of_walk_and_save hwalk hsave
  obtain ⟨e, he⟩ := exists_get?_of_find hstart.found
  have hdescent : IsDescent top := isDescent_of_get? he
  obtain ⟨e', he', hkind⟩ := exists_unlinked_of_find (hkeeps.find hstart.found)
  -- the description is found in the root
  obtain ⟨x, mode, hwritten, hfile⟩ := leadsTo_of_write (Task.change_eq_ok hsave)
  have hdescription : Metadata.file (pathOf top) =
      pathOf (top ++ [Bytes.ofString Defaults.metadataFile]) := join_pathOf hdescent isStep_metadataFile
  rw [hdescription] at hwritten
  have hdown := leads_of_leadsTo_pathOf hwritten hdescent isStep_metadataFile
    (isPlain_of_get? he' hkind)
  have hdir : isDirectoryAt w'.disk.table top = true := isDirectoryAt_of_leads hdown
  -- and so by the path that was given
  have hleads : w'.disk.LeadsTo true template (.found top) :=
    (hstart.leadsTo hhere (isDirectoryAt_of_keeps hkeeps he hdir)).keeps hkeeps
  have hnonempty : template.text ≠ [] := text_ne_nil_of_absolute hstart.named
  have hjoined : w'.disk.LeadsTo true (Metadata.file template) (.found x) :=
    leadsTo_join hleads hdir isStep_metadataFile hdown
  have hadmissible : (Metadata.file template).Admissible :=
    ⟨noNul_join hstart.named (Path.admissible_of_find hstart.found) isStep_metadataFile (by decide),
      hshort⟩
  have hnonempty' : (Metadata.file template).text ≠ [] := by
    rw [Metadata.file, Path.join]
    split
    · decide
    · split <;> simp [hnonempty]
  have hfound := find_of_leadsTo hjoined hadmissible hnonempty' hloop
  refine run_load hfound hfile ?_
  have hnow : (Metadata.ofConfig c now).generatedAt = now := rfl
  rw [Metadata.read?_print, hnow, htime, Option.map_some]
  simp only [Metadata.ofConfig, Delimiters.normalized_normalized]

/-- A file of the source tree comes first in the place of the description. -/
theorem run_load_renamed :
    let name : Variable := { kind := "string", required := true, transform := some "slug-kebab" }
    let c : Config := {
      sourceRoot := .ofString "src"
      delimiters := ⟨" << ", ""⟩
      declared := NameMap.ofList [("NAME", name)]
      staticFiles := ["*.bin"]
      rules := { renames := [⟨"a", Defaults.metadataFile⟩] } }
    let template : Path := .ofString "./t/"
    ∃ w', (buildTemplate c template default).run ⟨twoFolders, []⟩ = .ok ⟨1, 1, 0⟩ w' ∧
      (Metadata.load template).run w' = .ok
        { delimiters := ⟨"<<", "\x7d\x7d"⟩, declared := NameMap.ofList [("NAME", name)],
          staticFiles := c.staticGlobs, generatedAt := default } w' := by
  intro name c template
  have hevaluated : ((buildTemplate c template default).observe
      fun d => decide (d.find true (Metadata.file template) = .error .linkLoop)).answer?
        ⟨twoFolders, []⟩ = some (⟨1, 1, 0⟩, false) := by decide +kernel
  obtain ⟨w', hobserved⟩ := Task.exists_run_of_answer? hevaluated
  obtain ⟨hbuild, hseen⟩ := Task.observe_eq_ok hobserved
  have hdelimiters : c.delimiters.normalized = ⟨"<<", "\x7d\x7d"⟩ := by decide +kernel
  refine ⟨w', hbuild, ?_⟩
  rw [← hdelimiters]
  exact run_load_of_build (isLinkless_twoFolders.isPlain _) (by decide +kernel) (by decide +kernel)
    (of_decide_eq_false hseen) hbuild

/-- A short path that is spelled at length. -/
def longPath : Path := ⟨(List.replicate 2048 [0x2E, Bytes.slash]).flatten ++ Bytes.ofString "t"⟩

/-- Twenty links one behind the other, the last one to a path. -/
def chain (letter : UInt8) (last : String) (d : Disk) : Disk :=
  (List.range 20).foldl (fun d i =>
    let target := if i = 19 then Bytes.ofString last else [Bytes.slash, letter, 98 + i.toUInt8]
    d.put [[letter, 97 + i.toUInt8]] (.link target)) d

/-- A root of a template behind twenty links, with a link in the place of the description, behind which
    there are twenty more. -/
def chained : Disk :=
  (chain 107 "/t" (chain 109 "/m"
    (twoFolders.put [Bytes.ofString "t"] (.directory Entry.directoryMode)))).put
      [Bytes.ofString "t", Bytes.ofString Defaults.metadataFile] (.link (Bytes.ofString "/ma"))

/-- A build by a path that is spelled at length succeeds, but the description is not loaded by it.  Nor is
    it when the root lies behind some links and the description behind some more. -/
theorem not_loaded :
    let c : Config := { sourceRoot := .ofString "/src" }
    let linked : Path := .ofString "/ka/x/.."
    (∃ w', (buildTemplate c longPath default).run ⟨twoFolders, []⟩ = .ok ⟨1, 1, 0⟩ w' ∧
      (Metadata.load longPath).run w' =
        .error (.metadata longPath (.unreadable .nameTooLong)) w') ∧
    ∃ w', (buildTemplate c linked default).run ⟨chained, []⟩ = .ok ⟨1, 1, 0⟩ w' ∧
      (Metadata.load linked).run w' = .error (.metadata linked (.unreadable .linkLoop)) w' := by
  intro c linked
  have hload : ∀ {template : Path} {fault : Fault} {w : World},
      w.disk.readText (Metadata.file template) = .error fault →
      (Metadata.load template).run w = .error (.metadata template (.unreadable fault)) w := by
    intro template fault w hfault
    have hlook : (Task.look (·.readText (Metadata.file template))).run w = .ok (.error fault) w := by
      rw [← hfault]
      rfl
    rw [Metadata.load, EStateM.run_bind, hlook]
    rfl
  have hlong : ((buildTemplate c longPath default).observe
      fun d => d.readText (Metadata.file longPath)).answer? ⟨twoFolders, []⟩ =
        some (⟨1, 1, 0⟩, .error .nameTooLong) := by decide +kernel
  have hlinked : ((buildTemplate c linked default).observe
      fun d => d.readText (Metadata.file linked)).answer? ⟨chained, []⟩ =
        some (⟨1, 1, 0⟩, .error .linkLoop) := by decide +kernel
  obtain ⟨w₁, hobserved₁⟩ := Task.exists_run_of_answer? hlong
  obtain ⟨hbuild₁, hseen₁⟩ := Task.observe_eq_ok hobserved₁
  obtain ⟨w₂, hobserved₂⟩ := Task.exists_run_of_answer? hlinked
  obtain ⟨hbuild₂, hseen₂⟩ := Task.observe_eq_ok hobserved₂
  exact ⟨⟨w₁, hbuild₁, hload hseen₁⟩, w₂, hbuild₂, hload hseen₂⟩

end Build

end Stencil
