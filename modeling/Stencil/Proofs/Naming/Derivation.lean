/-
  Which rules two names give.

  A convention that spells both names asks for a change, from its spelling of the old name to that of the
  new one, unless the old spelling is empty or both are equal.  Several conventions can spell the old name
  alike and ask for different things.

  1. **One convention decides.**  Of the conventions that ask for a change of one old spelling, the first
     in the order of precedence has its way (`changesFrom_eq_filter`).  So there is one rule for every old
     spelling that some convention changes, and no other rule.
  2. **One list of changes.**  The replacements and the rename rules are made from the same changes.
     Sorting by the length of the old spelling can be done before that, so both stand in one order: the
     longest first, and the conventions in their order among equal lengths (`derivation_decidingChanges`).
  3. **Not the first that spells, but the first that changes.**  A convention that leaves its spelling as it
     is has no say, although it may be the first with this spelling (`exists_change_of_isDerived`).  So the
     first convention with a spelling decides what becomes of it if and only if no later one changes what
     the first leaves alone.
-/
import Stencil.Proofs.Naming.Merged

namespace Stencil

/-! ## The spellings of a name -/

/-- The place of a convention in the order of precedence. -/
def Convention.rank (k : Convention) : Nat := Convention.all.idxOf k

theorem Convention.mem_all (k : Convention) : k ∈ Convention.all := by
  cases k <;> decide

/-- The rank of a convention is its place among all of them. -/
theorem Convention.getElem?_rank (k : Convention) : Convention.all[k.rank]? = some k := by
  cases k <;> rfl

/-- No two conventions have one rank. -/
theorem Convention.rank_injective {j k : Convention} (h : j.rank = k.rank) : j = k := by
  have hj := j.getElem?_rank
  rw [h, k.getElem?_rank] at hj
  exact (Option.some.inj hj).symm

/-- The spelling of a name by a convention; a blank name has none. -/
theorem lookup_spellings (name : String) (k : Convention) :
    (spellings name).lookup k = if isBlank name then none else some (k.spell (trim name)) := by
  unfold spellings
  split
  · rfl
  · cases k <;> rfl

/-- A convention spells a name in one way. -/
theorem eq_spell_of_lookup {name text : String} {k : Convention}
    (h : (spellings name).lookup k = some text) : text = k.spell (trim name) := by
  rw [lookup_spellings] at h
  split at h
  · cases h
  · exact (Option.some.inj h).symm

/-- Each convention has one spelling. -/
theorem mem_spellings {name text : String} {k : Convention} :
    (k, text) ∈ spellings name ↔ (spellings name).lookup k = some text := by
  rw [lookup_spellings, spellings]
  split
  · simp
  · simp [Convention.mem_all]

/-- The spellings of a name stand in the order of the conventions. -/
theorem pairwise_spellings (name : String) :
    (spellings name).Pairwise fun e later => e.1.rank < later.1.rank := by
  rw [spellings]
  split
  · exact .nil
  · have hall : Convention.all.Pairwise fun j k => j.rank < k.rank := by decide
    exact List.pairwise_map.mpr hall

/-! ## What conventions ask for -/

/-- The spellings of an old and a new name in a convention. -/
structure Change where
  convention : Convention
  old : String
  new : String

namespace Change

/-- Is there something to be found, and does it change? -/
def IsProper (c : Change) : Prop := c.old ≠ "" ∧ c.old ≠ c.new

/-- Does the convention spell the two names like this? -/
def Spells (c : Change) (source target : String) : Prop :=
  (spellings source).lookup c.convention = some c.old ∧
    (spellings target).lookup c.convention = some c.new

/-- Of the changes of one text, is it the one with the highest precedence? -/
def Decides (c : Change) (cs : List Change) : Prop :=
  c.IsProper ∧ ∀ d ∈ cs, d.IsProper → d.old = c.old → c.convention.rank ≤ d.convention.rank

instance (c : Change) : Decidable c.IsProper := inferInstanceAs (Decidable (_ ∧ _))

instance (c : Change) (cs : List Change) : Decidable (c.Decides cs) :=
  inferInstanceAs (Decidable (_ ∧ _))

/-- The two spellings in all conventions that both names have. -/
def between (source target : String) : List Change :=
  (spellings source).filterMap fun (k, old) =>
    ((spellings target).lookup k).map fun new => ⟨k, old, new⟩

variable {source target : String} {c d : Change} {cs : List Change}

/-- The changes between two names are the spellings of both by one convention each. -/
theorem mem_between : c ∈ between source target ↔ c.Spells source target := by
  rw [between, List.mem_filterMap]
  constructor
  · rintro ⟨⟨k, old⟩, hold, hpair⟩
    obtain ⟨new, hnew, rfl⟩ := Option.map_eq_some_iff.mp hpair
    exact ⟨mem_spellings.mp hold, hnew⟩
  · rintro ⟨hold, hnew⟩
    exact ⟨(c.convention, c.old), mem_spellings.mpr hold, Option.map_eq_some_iff.mpr ⟨_, hnew, rfl⟩⟩

/-- The pairs that the rules are made of are these changes, in the order of the conventions. -/
theorem spellingPairs_eq (source target : String) :
    spellingPairs source target = (between source target).map fun c => (c.old, c.new) := by
  rw [spellingPairs, between, List.map_filterMap]
  simp only [Option.map_map]
  rfl

/-- Earlier conventions come first. -/
theorem pairwise_between (source target : String) :
    (between source target).Pairwise fun c d => c.convention.rank < d.convention.rank := by
  refine (pairwise_spellings source).filterMap _ ?_
  rintro ⟨j, _⟩ ⟨k, _⟩ hrank c hc d hd
  obtain ⟨_, -, rfl⟩ := Option.map_eq_some_iff.mp hc
  obtain ⟨_, -, rfl⟩ := Option.map_eq_some_iff.mp hd
  exact hrank

/-- Behind a change of higher precedence, a change decides about its text unless that one does. -/
theorem decides_cons (hlt : d.convention.rank < c.convention.rank) :
    c.Decides (d :: cs) ↔ (d.IsProper → d.old ≠ c.old) ∧ c.Decides cs := by
  unfold Decides
  rw [List.forall_mem_cons]
  constructor
  · rintro ⟨hproper, hfirst, hrest⟩
    refine ⟨fun hd heq => ?_, hproper, hrest⟩
    have hle := hfirst hd heq
    omega
  · rintro ⟨hother, hproper, hrest⟩
    exact ⟨hproper, fun hd heq => absurd heq (hother hd), hrest⟩

theorem decides_self_cons (hproper : c.IsProper)
    (hlater : ∀ d ∈ cs, c.convention.rank < d.convention.rank) : c.Decides (c :: cs) := by
  refine ⟨hproper, fun d hd _ _ => ?_⟩
  rcases List.mem_cons.mp hd with rfl | hd
  · exact Nat.le_refl _
  · exact Nat.le_of_lt (hlater d hd)

theorem passedOver_iff {seen : List String} :
    (c.old.isEmpty || c.old == c.new || seen.contains c.old) = true ↔ ¬ (c.old ∉ seen ∧ c.IsProper) := by
  simp only [Bool.or_eq_true, String.isEmpty_iff, beq_iff_eq, List.contains_iff_mem, IsProper]
  by_cases hseen : c.old ∈ seen <;> simp [hseen, Decidable.or_iff_not_not_and_not]

/-- **One convention decides.**  By induction on the changes: the texts that have a rule already are those
    of the proper changes before. -/
theorem changesFrom_eq_filter (seen : List String)
    (hrank : cs.Pairwise fun c d => c.convention.rank < d.convention.rank) :
    changesFrom seen (cs.map fun c => (c.old, c.new)) =
      (cs.filter fun c => c.old ∉ seen ∧ c.Decides cs).map fun c => (c.old, c.new) := by
  induction cs generalizing seen with
  | nil => rfl
  | cons c cs ih =>
    obtain ⟨hlater, hrest⟩ := List.pairwise_cons.mp hrank
    rw [List.map_cons, changesFrom]
    by_cases hkept : c.old ∉ seen ∧ c.IsProper
    · obtain ⟨hunseen, hproper⟩ := hkept
      have hdecides : c.Decides (c :: cs) := decides_self_cons hproper hlater
      rw [if_neg (fun hpassed => passedOver_iff.mp hpassed ⟨hunseen, hproper⟩), ih _ hrest,
        List.filter_cons, if_pos (decide_eq_true ⟨hunseen, hdecides⟩), List.map_cons]
      congr 2
      refine List.filter_congr fun d hd => decide_eq_decide.mpr ?_
      rw [decides_cons (hlater d hd), List.mem_cons, not_or, ne_comm]
      exact ⟨fun ⟨⟨hne, hnew⟩, hdecides⟩ => ⟨hnew, fun _ => hne, hdecides⟩,
        fun ⟨hnew, hne, hdecides⟩ => ⟨⟨hne hproper, hnew⟩, hdecides⟩⟩
    · have hdropped : ¬ (c.old ∉ seen ∧ c.Decides (c :: cs)) :=
        fun ⟨hunseen, hdecides⟩ => hkept ⟨hunseen, hdecides.1⟩
      rw [if_pos (passedOver_iff.mpr hkept), ih _ hrest, List.filter_cons,
        if_neg (by rwa [decide_eq_true_eq])]
      congr 1
      refine List.filter_congr fun d hd => decide_eq_decide.mpr ?_
      rw [decides_cons (hlater d hd)]
      refine ⟨fun ⟨hnew, hdecides⟩ => ⟨hnew, fun hproper heq => ?_, hdecides⟩,
        fun ⟨hnew, _, hdecides⟩ => ⟨hnew, hdecides⟩⟩
      exact hkept ⟨heq ▸ hnew, hproper⟩

/-- Where a text changes, some convention decides about it. -/
theorem exists_decides (hc : c ∈ cs) (hproper : c.IsProper) :
    ∃ d ∈ cs, d.Decides cs ∧ d.old = c.old ∧ d.convention.rank ≤ c.convention.rank := by
  induction hn : c.convention.rank using Nat.strongRecOn generalizing c with
  | ind n ih =>
    subst hn
    by_cases hbefore : ∃ d ∈ cs, d.IsProper ∧ d.old = c.old ∧ d.convention.rank < c.convention.rank
    · obtain ⟨d, hd, hdproper, hsame, hlt⟩ := hbefore
      obtain ⟨e, he, hdecides, hold, hle⟩ := ih _ hlt hd hdproper rfl
      exact ⟨e, he, hdecides, hold.trans hsame, Nat.le_trans hle (Nat.le_of_lt hlt)⟩
    · refine ⟨c, hc, ⟨hproper, ?_⟩, rfl, Nat.le_refl _⟩
      intro d hd hdproper hsame
      exact Nat.le_of_not_lt fun hlt => hbefore ⟨d, hd, hdproper, hsame, hlt⟩

end Change

/-! ## The derived rules -/

/-- What the rules from one name to another are made of: for every text that some convention changes,
    the change that the first such convention asks for, the longest texts first and those of one length
    in the order of the conventions. -/
structure Derivation (source target : String) (changes : List Change) : Prop where
  replacements : (deriveRules source target).replacements = changes.map fun c => ⟨c.old, c.new⟩
  renames : (deriveRules source target).renames = changes.map fun c => ⟨c.old, c.new⟩
  sound : ∀ c ∈ changes, c.Spells source target ∧ c.old ≠ "" ∧ c.old ≠ c.new
  complete : ∀ c : Change, c.Spells source target → c.old ≠ "" → c.old ≠ c.new →
    ∃ d ∈ changes, d.old = c.old ∧ d.convention.rank ≤ c.convention.rank
  distinct : changes.Pairwise fun c later => c.old ≠ later.old
  ordered : changes.Pairwise fun c later =>
    later.old.utf8ByteSize < c.old.utf8ByteSize ∨
      (later.old.utf8ByteSize = c.old.utf8ByteSize ∧ c.convention.rank < later.convention.rank)

section

variable (source target : String)

/-- The changes that decide, in the order of the rules. -/
def decidingChanges : List Change :=
  sortBy (LongerFirst fun c => c.old.utf8ByteSize)
    ((Change.between source target).filter fun c => c.Decides (Change.between source target))

theorem longestFirst_decidingChanges : LongestFirst (fun c : Change => c.old.utf8ByteSize)
    ((Change.between source target).filter fun c => c.Decides (Change.between source target))
    (decidingChanges source target) :=
  longestFirst_sortBy _ _

/-- What becomes a rule: a change that spells both names and is the first to decide about its text. -/
theorem mem_decidingChanges {c : Change} : c ∈ decidingChanges source target ↔
    c.Spells source target ∧ c.Decides (Change.between source target) := by
  rw [(longestFirst_decidingChanges source target).perm.mem_iff, List.mem_filter,
    Change.mem_between, decide_eq_true_eq]

theorem changesFrom_spellingPairs : changesFrom [] (spellingPairs source target) =
    ((Change.between source target).filter fun c => c.Decides (Change.between source target)).map
      fun c => (c.old, c.new) := by
  rw [Change.spellingPairs_eq, Change.changesFrom_eq_filter [] (Change.pairwise_between source target)]
  simp

/-- **The rules are made from the changes that decide.** -/
theorem derivation_decidingChanges : Derivation source target (decidingChanges source target) where
  replacements := by
    show Replacement.sortLongest ((changesFrom [] (spellingPairs source target)).map _) = _
    rw [changesFrom_spellingPairs, List.map_map, Replacement.sortLongest, sortBy_map]
    rfl
  renames := by
    show RenameRule.sortLongest ((changesFrom [] (spellingPairs source target)).map _) = _
    rw [changesFrom_spellingPairs, List.map_map, RenameRule.sortLongest, sortBy_map]
    rfl
  sound := by
    intro c hc
    obtain ⟨hspells, hproper, -⟩ := (mem_decidingChanges source target).mp hc
    exact ⟨hspells, hproper⟩
  complete := by
    intro c hspells hne hchanges
    obtain ⟨d, hd, hdecides, hsame, hle⟩ :=
      Change.exists_decides (Change.mem_between.mpr hspells) ⟨hne, hchanges⟩
    exact ⟨d, (mem_decidingChanges source target).mpr ⟨Change.mem_between.mp hd, hdecides⟩, hsame, hle⟩
  distinct := by
    rw [(longestFirst_decidingChanges source target).perm.pairwise_iff fun h => h.symm]
    refine ((Change.pairwise_between source target).filter _).imp_of_mem ?_
    intro c d hc hd hlt hsame
    obtain ⟨hmem, hdecides⟩ := List.mem_filter.mp hc
    obtain ⟨-, hdecides'⟩ := List.mem_filter.mp hd
    have hle := (of_decide_eq_true hdecides').2 c hmem (of_decide_eq_true hdecides).1 hsame
    omega
  ordered := (longestFirst_decidingChanges source target).pairwise
    ((Change.pairwise_between source target).filter _)

/-- Where no convention asks for a change there are no rules. -/
theorem deriveRules_of_unchanged (h : ∀ c : Change, c.Spells source target → c.old = c.new) :
    deriveRules source target = {} := by
  have hnone : ∀ c ∈ Change.between source target, ¬ c.Decides (Change.between source target) := by
    intro c hc hdecides
    exact hdecides.1.2 (h c (Change.mem_between.mp hc))
  rw [deriveRules, changesFrom_spellingPairs, List.filter_eq_nil_iff.mpr (by simpa using hnone)]
  rfl

/-- Nothing has to be changed for a name to become itself. -/
theorem deriveRules_self (name : String) : deriveRules name name = {} :=
  deriveRules_of_unchanged name name fun _ ⟨hold, hnew⟩ => Option.some.inj (hold.symm.trans hnew)

/-- **The rules from one name to another.**  They are made from the changes that conventions ask for, as
    `Derivation` says; there are none when a name is blank, and none when both are equal but for the white
    space around them. -/
theorem deriveRules_derivation :
    (∃ changes, Derivation source target changes) ∧
    (isBlank source = true ∨ isBlank target = true ∨ trim source = trim target →
      deriveRules source target = {}) := by
  refine ⟨⟨_, derivation_decidingChanges source target⟩, ?_⟩
  intro h
  refine deriveRules_of_unchanged source target ?_
  rintro c ⟨hold, hnew⟩
  rcases h with hblank | hblank | htrim
  · rw [lookup_spellings, if_pos hblank] at hold
    cases hold
  · rw [lookup_spellings, if_pos hblank] at hnew
    cases hnew
  · rw [eq_spell_of_lookup hold, eq_spell_of_lookup hnew, htrim]

end

/-- One name with white space around it. -/
theorem deriveRules_spaced :
    trim " MyBank" = trim "MyBank\n" ∧ deriveRules " MyBank" "MyBank\n" = {} := by
  have htrim : trim " MyBank" = trim "MyBank\n" := by decide
  exact ⟨htrim, (deriveRules_derivation " MyBank" "MyBank\n").2 (.inr (.inr htrim))⟩

/-! ## The first convention with a spelling -/

/-- Is it the first convention that spells the name as the text? -/
def Convention.SpellsFirst (k : Convention) (name text : String) : Prop :=
  (spellings name).lookup k = some text ∧
    ∀ j : Convention, (spellings name).lookup j = some text → k.rank ≤ j.rank

/-- Does a rule from one text to another belong to the rules between two names? -/
def IsDerived (source target old new : String) : Prop :=
  ⟨old, new⟩ ∈ (deriveRules source target).replacements ∨
    ⟨old, new⟩ ∈ (deriveRules source target).renames

/-- Does every text become what the first convention with this spelling makes of it? -/
def FirstDecides (source target : String) : Prop :=
  ∀ old new, IsDerived source target old new → ∀ k : Convention, k.SpellsFirst source old →
    (spellings target).lookup k = some new

section

variable {source target : String}

theorem isDerived_iff {changes : List Change} (h : Derivation source target changes)
    {old new : String} :
    IsDerived source target old new ↔ ∃ c ∈ changes, c.old = old ∧ c.new = new := by
  unfold IsDerived
  rw [h.replacements, h.renames]
  simp

/-- A rule is that of the first convention that asks for a change of its text. -/
theorem exists_change_of_isDerived {old new : String} (h : IsDerived source target old new) :
    ∃ c : Change, c.Spells source target ∧ c.old = old ∧ c.new = new ∧ old ≠ "" ∧ old ≠ new ∧
      ∀ d : Change, d.Spells source target → d.old = old → d.old ≠ d.new →
        c.convention.rank ≤ d.convention.rank := by
  have hderivation := derivation_decidingChanges source target
  obtain ⟨c, hc, rfl, rfl⟩ := (isDerived_iff hderivation).mp h
  obtain ⟨hspells, hne, hchanges⟩ := hderivation.sound c hc
  refine ⟨c, hspells, rfl, rfl, hne, hchanges, ?_⟩
  intro d hd hsame hdchanges
  obtain ⟨-, -, hfirst⟩ := (mem_decidingChanges source target).mp hc
  exact hfirst d (Change.mem_between.mpr hd) ⟨hsame ▸ hne, hdchanges⟩ hsame

/-- A name that is spelled in one convention is spelled in all of them. -/
theorem exists_lookup_spellings {name text : String} {j : Convention}
    (h : (spellings name).lookup j = some text) (k : Convention) :
    ∃ other, (spellings name).lookup k = some other := by
  rw [lookup_spellings] at h ⊢
  split at h
  · cases h
  · next hshows => exact ⟨_, if_neg hshows⟩

end

/-- **When the first convention with a spelling decides what becomes of it.**
    (1) In every case a text becomes what the first convention makes of it that asks for a change of it.
    (2) That is the first convention with this spelling, for every rule, if and only if no convention
        changes a spelling of the old name that the first convention with this spelling keeps. -/
theorem firstDecides_iff (source target : String) :
    (∀ old new, IsDerived source target old new → ∃ k : Convention,
      ((spellings source).lookup k = some old ∧ (spellings target).lookup k = some new ∧ old ≠ new) ∧
      ∀ (j : Convention) (other : String), (spellings source).lookup j = some old →
        (spellings target).lookup j = some other → old ≠ other → k.rank ≤ j.rank) ∧
    (FirstDecides source target ↔ ∀ (j k : Convention) (text : String), text ≠ "" →
      j.SpellsFirst source text → (spellings target).lookup j = some text →
      (spellings source).lookup k = some text → (spellings target).lookup k = some text) := by
  refine ⟨?_, ?_, ?_⟩
  · intro old new hderived
    obtain ⟨c, ⟨hold, hnew⟩, rfl, rfl, -, hchanges, hfirst⟩ := exists_change_of_isDerived hderived
    exact ⟨c.convention, ⟨hold, hnew, hchanges⟩,
      fun j other hj hother hne => hfirst ⟨j, c.old, other⟩ ⟨hj, hother⟩ rfl hne⟩
  · intro hfirst j k text hne hj hkeeps hk
    obtain ⟨new, hnew⟩ := exists_lookup_spellings hkeeps k
    by_cases heq : text = new
    · rw [hnew, heq]
    · have hderivation := derivation_decidingChanges source target
      obtain ⟨d, hd, hsame, -⟩ := hderivation.complete ⟨k, text, new⟩ ⟨hk, hnew⟩ hne heq
      have hderived : IsDerived source target text d.new :=
        (isDerived_iff hderivation).mpr ⟨d, hd, hsame, rfl⟩
      have hdecided := hfirst text d.new hderived j hj
      rw [hkeeps] at hdecided
      exact absurd (hsame.trans (Option.some.inj hdecided)) (hderivation.sound d hd).2.2
  · intro hkept old new hderived j hj
    obtain ⟨c, ⟨hold, hnew⟩, rfl, rfl, hne, hchanges, hfirst⟩ := exists_change_of_isDerived hderived
    obtain ⟨other, hother⟩ := exists_lookup_spellings hnew j
    by_cases heq : c.old = other
    · have hstays := hkept j c.convention c.old hne hj (heq ▸ hother) hold
      rw [hnew] at hstays
      exact absurd (Option.some.inj hstays).symm hchanges
    · have hle : c.convention.rank ≤ j.rank := hfirst ⟨j, c.old, other⟩ ⟨hj.1, hother⟩ rfl heq
      have hge : j.rank ≤ c.convention.rank := hj.2 c.convention hold
      obtain rfl : j = c.convention := Convention.rank_injective (Nat.le_antisymm hge hle)
      exact hnew

/-- Two names that differ in the convention only that takes them as they are. -/
theorem firstDecides_spacedApp : FirstDecides "my app" "my-app" := by
  refine (firstDecides_iff "my app" "my-app").2.mpr ?_
  intro j k text _ _ hkeeps hk
  by_cases hverbatim : k = .verbatim
  · subst hverbatim
    have htext : text = "my app" := eq_spell_of_lookup hk
    have hchanges : (spellings "my-app").lookup j ≠ some "my app" := by
      cases j <;> decide +kernel
    exact absurd (htext ▸ hkeeps) hchanges
  · have hsame : (spellings "my-app").lookup k = (spellings "my app").lookup k := by
      cases k <;> first | decide +kernel | exact absurd rfl hverbatim
    rw [hsame, hk]

/-- The first convention, that of capitals, leaves `MyApp` as it is.  The last one, which takes names as
    they are, rewrites it. -/
theorem not_firstDecides_myApp :
    (deriveRules "MyApp" "my-app").replacements = [⟨"MyApp", "my-app"⟩] ∧
    Convention.pascal.SpellsFirst "MyApp" "MyApp" ∧
    (spellings "my-app").lookup .pascal = some "MyApp" ∧
    ¬ FirstDecides "MyApp" "my-app" := by
  have hrules : (deriveRules "MyApp" "my-app").replacements = [⟨"MyApp", "my-app"⟩] := by
    decide +kernel
  have hfirst : Convention.pascal.SpellsFirst "MyApp" "MyApp" :=
    ⟨by decide +kernel, fun _ _ => Nat.zero_le _⟩
  have hkeeps : (spellings "my-app").lookup .pascal = some "MyApp" := by decide +kernel
  refine ⟨hrules, hfirst, hkeeps, ?_⟩
  intro hdecides
  have hderived : IsDerived "MyApp" "my-app" "MyApp" "my-app" :=
    .inl (hrules ▸ List.mem_singleton_self _)
  have hdecided := hdecides _ _ hderived _ hfirst
  rw [hkeeps] at hdecided
  exact absurd (Option.some.inj hdecided) (by decide)

end Stencil
