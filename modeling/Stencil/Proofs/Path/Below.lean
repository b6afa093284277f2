/-
  Texts and the places below a root.

  `joinUnder` reads a text as a place below a root, `relativePath` reads the text off a place.  They speak
  two languages, segments between slashes and components of a path, and this is where they meet.

  1. **What a text says** are the segments behind its leading slashes that are neither empty nor a dot
     (`saidSegments`).  Read as a path, it has these names (`names_ofString`).
  2. **Down.**  A text that says `..` anywhere is refused.  Any other one leads to the root with what it
     says behind it, one name each, in order (`PlacedBelow`): nothing leads out of the root.
  3. **And back.**  The place of a text is read back as what the text says.  Texts are not unique, so the
     text that is read back is the straight one; places are, and each place below the root whose names are
     texts is found again.
-/
import Stencil.Proofs.Path.Absolute
import Stencil.Proofs.Path.Places

namespace Stencil

open Path

/-- The segments of a text that say something below a root: not the empty ones, and no dots. -/
def saidSegments (relative : String) : List String :=
  ((segments (dropLeadingSlashes relative.toList)).filter fun s => s != [] && s != ['.']).map
    String.ofList

/-- The path is `root` with the names `steps` behind it, and so it is read. -/
structure PlacedBelow (root : Path) (steps : List String) (p : Path) : Prop where
  /-- It is spelled as the root with a name behind it for each step. -/
  spelled : p = steps.foldl (fun q s => q.join (.ofString s)) root
  components : p.components = root.components ++ (steps.map Bytes.ofString).map .normal
  startsWith : p.startsWith root = true
  relativePath : relativePath root p = .ok ("/".intercalate steps)

/-! ## What a text says -/

theorem isIdle_ofChars (cs : List Char) : (!isIdle (Bytes.ofChars cs)) = (cs != [] && cs != ['.']) := by
  have hofChars : ∀ ds : List Char, (Bytes.ofChars cs == Bytes.ofChars ds) = (cs == ds) := fun ds => by
    rw [Bool.eq_iff_iff, beq_iff_eq, beq_iff_eq]
    refine ⟨fun h => ?_, congrArg Bytes.ofChars⟩
    have hstring : String.ofList cs = String.ofList ds := Bytes.ofString_injective (by
      rwa [Bytes.ofString, Bytes.ofString, String.toList_ofList, String.toList_ofList])
    exact String.ofList_injective hstring
  have hempty : (Bytes.ofChars cs == []) = (cs == []) := hofChars []
  have hdot : (Bytes.ofChars cs == [0x2E]) = (cs == ['.']) := hofChars ['.']
  rw [isIdle, hempty, hdot, Bool.not_or]
  rfl

/-- **Read as a path, a text has the names that it says.** -/
theorem names_ofString (relative : String) :
    (Path.ofString relative).names = (saidSegments relative).map Bytes.ofString := by
  have hofString : (Bytes.ofString ∘ String.ofList) = Bytes.ofChars :=
    funext fun cs => by rw [Function.comp_apply, Bytes.ofString, String.toList_ofList]
  rw [Path.ofString, Bytes.ofString, ← Disk.names_dropLeadingSlashes, names, pieces_ofChars, spoken,
    List.filter_map, saidSegments, List.map_map, hofString]
  refine congrArg _ (List.filter_congr fun segment _ => ?_)
  exact isIdle_ofChars segment

theorem back_mem_names_iff (relative : String) :
    back ∈ (Path.ofString relative).names ↔ ".." ∈ saidSegments relative := by
  have hback : back = Bytes.ofString ".." := by decide
  have hinjective : Function.Injective Bytes.ofString := fun _ _ => Bytes.ofString_injective
  rw [names_ofString, hback, List.mem_map_of_injective hinjective]

/-! ## Names behind a root -/

/-- Behind a root, texts that are single names are placed one below the other. -/
theorem placedBelow_foldl {steps : List String} (h : ∀ s ∈ steps, IsStep (Bytes.ofString s))
    (root : Path) : PlacedBelow root steps (steps.foldl (fun q s => q.join (.ofString s)) root) := by
  have hnames : ∀ n ∈ steps.map Bytes.ofString, IsStep n := by
    intro n hn
    obtain ⟨s, hs, rfl⟩ := List.mem_map.mp hn
    exact h s hs
  have hcomponents := components_foldl_join hnames root
  rw [List.foldl_map] at hcomponents
  exact ⟨rfl, hcomponents, startsWith_iff_isPrefix.mpr ⟨_, hcomponents.symm⟩,
    Disk.relativePath_of_components hcomponents⟩

/-- The place of a text below a root: there is none if the text steps back, and otherwise it is the root
    with what the text says behind it. -/
def PlacesText (root : Path) (relative : String) : Prop :=
  if ".." ∈ saidSegments relative then
    joinUnder root relative =
      .error (.invalidPath (.leaves (String.ofList (dropLeadingSlashes relative.toList)) root))
  else ∃ p, joinUnder root relative = .ok p ∧ PlacedBelow root (saidSegments relative) p

/-- **Every text is placed below the root**, or refused. -/
theorem joinUnder_spec (root : Path) (relative : String) : PlacesText root relative := by
  rw [PlacesText, Disk.joinUnder_eq_names, if_congr (back_mem_names_iff relative) rfl rfl]
  split
  · rfl
  · rename_i hstraight
    refine ⟨_, rfl, ?_⟩
    rw [names_ofString, List.foldl_map]
    refine placedBelow_foldl (fun s hs => ?_) root
    have hmem : Bytes.ofString s ∈ (Path.ofString relative).names := by
      rw [names_ofString]
      exact List.mem_map_of_mem hs
    refine isStep_of_mem_names hmem fun hback => hstraight ?_
    exact (back_mem_names_iff relative).mp (hback ▸ hmem)

/-- Steps that are single names are what the straight text says. -/
theorem saidSegments_intercalate {steps : List String} (h : ∀ s ∈ steps, IsStep (Bytes.ofString s)) :
    saidSegments ("/".intercalate steps) = steps := by
  have hdescent : Disk.IsDescent (steps.map Bytes.ofString) := by
    intro n hn
    obtain ⟨s, hs, rfl⟩ := List.mem_map.mp hn
    exact h s hs
  have hnames := Disk.names_of_ofString_eq hdescent (Disk.ofString_intercalate steps)
  rw [names_ofString] at hnames
  exact List.map_injective_iff.mpr (fun _ _ => Bytes.ofString_injective) hnames

/-- **The places below a root are the texts that do not step back.**  Every text is refused if it says
    `..`, and leads to the root with what it says behind it otherwise, which is read back as what it says.
    Every path that is the root with texts behind it has a text, and that leads to the path again: to one
    with the same components, by which paths are compared. -/
theorem joinUnder_relativePath (root : Path) :
    (∀ relative, PlacesText root relative) ∧
    ∀ (p : Path) (steps : List String),
      p.components = root.components ++ (steps.map Bytes.ofString).map .normal →
      ∃ relative q, relativePath root p = .ok relative ∧ joinUnder root relative = .ok q ∧
        q.components = p.components := by
  refine ⟨joinUnder_spec root, fun p steps hp => ?_⟩
  have hsteps : ∀ s ∈ steps, IsStep (Bytes.ofString s) := fun s hs =>
    isStep_of_normal_mem (p := p) (hp ▸ List.mem_append_right _
      (List.mem_map_of_mem (List.mem_map_of_mem hs)))
  have hstraight : ".." ∉ steps := fun hmem => (hsteps ".." hmem).onward (by decide)
  -- the path is read as the straight text of its steps, which leads to these steps
  have hrelative : relativePath root p = .ok ("/".intercalate steps) :=
    Disk.relativePath_of_components hp
  have hjoin := joinUnder_spec root ("/".intercalate steps)
  rw [PlacesText, saidSegments_intercalate hsteps, if_neg hstraight] at hjoin
  obtain ⟨q, hq, hplaced⟩ := hjoin
  exact ⟨_, q, hrelative, hq, hplaced.components.trans hp.symm⟩

/-- An entry that is spelled with a doubled slash, a dot and a slash at its end is found again. -/
theorem joinUnder_relativePath_respelled :
    (Path.ofString "./out//a/./é/").components =
      (Path.ofString "./out/").components ++ (["a", "é"].map Bytes.ofString).map .normal ∧
    ∃ relative q, relativePath (Path.ofString "./out/") (Path.ofString "./out//a/./é/") = .ok relative ∧
      joinUnder (Path.ofString "./out/") relative = .ok q ∧
      q.components = (Path.ofString "./out//a/./é/").components := by
  have hcomponents : (Path.ofString "./out//a/./é/").components =
      (Path.ofString "./out/").components ++ (["a", "é"].map Bytes.ofString).map .normal := by decide
  exact ⟨hcomponents, (joinUnder_relativePath _).2 _ _ hcomponents⟩

example : saidSegments "//a/./b//c.d/" = ["a", "b", "c.d"] := by decide

end Stencil
