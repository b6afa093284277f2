/-
  Variables of a template, as they are declared.
-/
import Stencil.NameMap
import Stencil.Text.Blank

namespace Stencil

/-- The declaration of a variable.  All values are texts; the kind only informs. -/
structure Variable where
  kind : String := ""
  required : Bool := false
  default : Option String := none
  description : String := ""
  /-- The variable that this one is derived from. -/
  derivedFrom : Option String := none
  /-- The name of the transform that is applied to the other variable's value. -/
  transform : Option String := none
  deriving DecidableEq, Inhabited

namespace Variable

/-- A text that is not blank. -/
def filled? (s : Option String) : Option String := s.filter fun s => !isBlank s

@[simp] theorem filled?_none : filled? none = none := rfl

/-- Blank texts count as none. -/
theorem filled?_some_of_blank {t : String} (h : isBlank t = true) : filled? (some t) = none := by
  rw [filled?, Option.filter_some, h]
  rfl

/-- Any other text is taken as it is, with the white space around it. -/
theorem filled?_some_of_not_blank {t : String} (h : isBlank t = false) : filled? (some t) = some t := by
  rw [filled?, Option.filter_some, h]
  rfl

/-- What is taken shows something. -/
theorem isBlank_of_filled? {s : Option String} {t : String} (h : filled? s = some t) :
    isBlank t = false := by
  simpa using (Option.filter_eq_some_iff.mp h).2

/-- The declared default, unless it is blank. -/
def default? (v : Variable) : Option String := filled? v.default

/-- The name of the variable that this one is derived from, unless it is blank. -/
def source? (v : Variable) : Option String := filled? v.derivedFrom

end Variable

/-- The variables of a template in the order of their declaration. -/
abbrev Variables := NameMap Variable

end Stencil
