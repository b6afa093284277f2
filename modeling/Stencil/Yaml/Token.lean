/-
  The tokens of a YAML text.
-/
import Stencil.Yaml.Scalar

namespace Stencil.Yaml

/-- A tag as it is written: a handle and what follows it.  The handle of a tag between angle brackets is
    empty. -/
structure WrittenTag where
  handle : String
  suffix : String
  deriving DecidableEq

/-- A token.  The starts and ends of block collections are no characters; they follow from the
    indentation. -/
inductive Token where
  /-- The directive that tells the version. -/
  | version (major minor : Nat)
  /-- The directive that gives a handle its meaning. -/
  | tagHandle (name meaning : String)
  | documentStart
  | documentEnd
  | blockSequence
  | blockMapping
  | blockEnd
  | flowSequence
  | flowSequenceEnd
  | flowMapping
  | flowMappingEnd
  /-- The hyphen in front of an element. -/
  | element
  | comma
  /-- What stands, or might stand, in front of a key. -/
  | key
  /-- What stands in front of the value of a key. -/
  | value
  | aliasOf (name : String)
  | anchor (name : String)
  | tag (t : WrittenTag)
  | scalar (s : Scalar)
  deriving DecidableEq

end Stencil.Yaml
