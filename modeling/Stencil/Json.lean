/-
  JSON values, and how they are taken apart.

  Members of an object keep their order and may repeat; what that means is for the reader of a record
  to say.  `Json.record?` gives the fields of a record: members by name, or the elements of an array
  by position.
-/
import Stencil.Record

namespace Stencil

/-- A JSON value.  A string is `none` when its escapes name half of a surrogate pair: it is well
    formed and may be passed over, but it is no text. -/
inductive Json where
  | null
  | bool (b : Bool)
  /-- A number as it is written. -/
  | number (literal : List Char)
  | string (text : Option String)
  | array (elements : List Json)
  | object (members : List (Option String × Json))

namespace Json

/-- The string of a text. -/
def text (s : String) : Json := .string (some s)

/-- The object of some members. -/
def ofMembers (members : List (String × Json)) : Json := .object (members.map fun m => (some m.1, m.2))

/-- The array of some texts. -/
def texts (xs : List String) : Json := .array (xs.map text)

/-! ## Reading -/

/-- The text of a string. -/
def string? : Json → Option String
  | string s => s
  | _ => none

/-- A truth value. -/
def bool? : Json → Option Bool
  | bool b => some b
  | _ => none

/-- The elements of an array. -/
def array? : Json → Option (List Json)
  | array xs => some xs
  | _ => none

/-- The text of a string, or none for `null`. -/
def optionalString? : Json → Option (Option String)
  | null => some none
  | j => j.string?.map some

/-- The members of an object, if all their names are texts. -/
def members? : Json → Option (List (String × Json))
  | object ms => ms.mapM fun m => m.1.map fun name => (name, m.2)
  | _ => none

/-- The fields of a record with the given names: the members of an object, or the elements of an array
    of at most as many, in the order of the names. -/
def record? (names : List String) : Json → Option (List (String × Json))
  | array xs => if xs.length ≤ names.length then some (names.zip xs) else none
  | j => j.members?.bind (Record.known? names)

/-- How JSON values are taken apart. -/
def reader : ValueReader Json where
  string? := string?
  bool? := bool?
  optionalString? := optionalString?
  elements? := array?
  members? := members?
  record? := record?

end Json

end Stencil
