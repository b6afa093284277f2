/-
  Values given beforehand: on the command line or in the environment.
-/
import Stencil.NameMap
import Stencil.Text.Bytes

namespace Stencil

/-- The value given for a name, if any. -/
abbrev Overrides := String → Option String

namespace Overrides

/-- The values of a map. -/
def ofMap (values : NameMap String) : Overrides := values.get?

/-- The value of a key in an environment.  An environment holds texts `name=value`, and the value of a
    key is what follows the key and `=` in the first of them that starts so.  A value that is no text
    counts as none. -/
def environmentValue? (environment : NameMap Bytes) (key : String) : Option String :=
  if key.isEmpty then none
  else
    (environment.entries.findSome? fun (name, value) =>
      Bytes.dropStart? (Bytes.ofString key ++ [0x3D]) (Bytes.ofString name ++ 0x3D :: value)).bind
      Bytes.toString?

/-- Explicit values, and behind them the environment, where a name has the text `start` before it. -/
def ofEnvironment (start : String) (explicit : NameMap String) (environment : NameMap Bytes) :
    Overrides :=
  fun name => (explicit.get? name).or (environmentValue? environment (start ++ name))

end Overrides

end Stencil
