/-
  Records in written values.

  A configuration is written as JSON or as YAML, and the two agree on what a record is: named fields,
  of which unknown ones are passed over and none may be given twice.  They differ in how a value is
  taken apart, and that is a `ValueReader`.  So what the fields of a record are is said once, for all
  formats.
-/

namespace Stencil

/-- How the values of a format are taken apart. -/
structure ValueReader (ν : Type) where
  /-- The text of a value. -/
  string? : ν → Option String
  /-- A truth value. -/
  bool? : ν → Option Bool
  /-- The text of a value, or none where the format writes that there is none. -/
  optionalString? : ν → Option (Option String)
  /-- The elements of a list. -/
  elements? : ν → Option (List ν)
  /-- The members of a map from names. -/
  members? : ν → Option (List (String × ν))
  /-- The known fields of a record, given all their names. -/
  record? : List String → ν → Option (List (String × ν))

namespace Record

variable {α : Type}

/-- The members with known names.  None if one of these names stands twice. -/
def known? (names : List String) : List (String × α) → Option (List (String × α))
  | [] => some []
  | m :: ms =>
    (known? names ms).bind fun known =>
      if !names.contains m.1 then some known
      else if (known.lookup m.1).isSome then none
      else some (m :: known)

/-- A field, which has the given value where it is missing. -/
def fieldOr {ν : Type} (fields : List (String × ν)) (name : String) (read : ν → Option α)
    (missing : α) : Option α :=
  match fields.lookup name with
  | some v => read v
  | none => some missing

/-- A field that may not be missing. -/
def field? {ν : Type} (fields : List (String × ν)) (name : String) (read : ν → Option α) : Option α :=
  (fields.lookup name).bind read

end Record

namespace ValueReader

variable {ν : Type}

/-- The values that are read off the elements of a list. -/
def list? {α : Type} (r : ValueReader ν) (read : ν → Option α) (v : ν) : Option (List α) :=
  (r.elements? v).bind fun vs => vs.mapM read

/-- The texts in a list. -/
def strings? (r : ValueReader ν) (v : ν) : Option (List String) := r.list? r.string? v

end ValueReader

end Stencil
