/-
  The rules that turn one project name into another.

  For every convention whose spellings of the two names differ there is one rule from the old to the
  new spelling.  Where two conventions spell the old name alike, the first that asks for a change
  decides.  The rules are put longest first, so that a long spelling is replaced before a shorter one
  inside it.
-/
import Stencil.Naming
import Stencil.Rename
import Stencil.Replacement

namespace Stencil

/-- Replacements in files and rename rules for paths. -/
structure Rules where
  replacements : List Replacement := []
  renames : List RenameRule := []
  deriving DecidableEq, Inhabited

/-- The pairs of spellings that a change of name replaces; `seen` are the old spellings that have a
    pair already. -/
def changesFrom (seen : List String) : List (String × String) → List (String × String)
  | [] => []
  | (old, new) :: rest =>
    if old.isEmpty || old == new || seen.contains old then changesFrom seen rest
    else (old, new) :: changesFrom (old :: seen) rest

/-- The old and new spelling of every convention, for those conventions that both names have. -/
def spellingPairs (source target : String) : List (String × String) :=
  (spellings source).filterMap fun (k, old) =>
    ((spellings target).lookup k).map fun new => (old, new)

/-- The rules from the spellings of `source` to those of `target`. -/
def deriveRules (source target : String) : Rules :=
  let changes := changesFrom [] (spellingPairs source target)
  { replacements := Replacement.sortLongest (changes.map fun p => ⟨p.1, p.2⟩)
    renames := RenameRule.sortLongest (changes.map fun p => ⟨p.1, p.2⟩) }

/-- Adds derived rules behind the rules given, and puts the longest first.  Among equal lengths the
    rules given come first. -/
def Rules.extend (given derived : Rules) : Rules where
  replacements := Replacement.sortLongest (given.replacements ++ derived.replacements)
  renames := RenameRule.sortLongest (given.renames ++ derived.renames)

example : (deriveRules "MyBank" "NewApp").renames.map (·.old) =
    ["my-bank", "my_bank", "MY_BANK", "My Bank", "MyBank", "myBank", "MYBANK", "mybank"] := by
  decide +kernel

end Stencil
