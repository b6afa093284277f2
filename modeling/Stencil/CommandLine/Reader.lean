/-
  Reading a command line.

  It has two levels: the options before the command, and those behind it.  An option that takes a value
  has it behind `=` or in the next argument, which may not start with a hyphen then.  Such a value is
  looked at only when the next option comes, or at the end of its level; so of two faults the one that
  stands first need not be the one that is told.  Behind `--` nothing is an option any more.
-/
import Stencil.CommandLine
import Stencil.Text.Blank

namespace Stencil.CommandLine

/-- Splits a text at its first `=`. -/
def splitAtEquals? (cs : List Char) : Option (List Char × List Char) :=
  match cs.dropWhile (· != '=') with
  | [] => none
  | _ :: behind => some (cs.takeWhile (· != '='), behind)

/-- The name and the value of a variable, the name being trimmed and not blank. -/
def assignment? (s : String) : Option (String × String) :=
  match splitAtEquals? s.toList with
  | none => none
  | some (name, value) =>
    let name := trimChars name
    if name.isEmpty then none else some (String.ofList name, String.ofList value)

example : assignment? " A =b=c" = some ("A", "b=c") ∧ assignment? " =x" = none := by decide

/-- What has been read of a level. -/
structure Level where
  /-- The options and their values, in order; a flag has an empty one. -/
  given : List (Switch × String) := []
  /-- An option whose value is to come, or has not been looked at. -/
  pending : Option (Switch × Option String) := none

namespace Level

/-- Is an option given? -/
def has (l : Level) (s : Switch) : Bool := l.given.any fun g => g.1 == s

/-- The value of an option. -/
def value? (l : Level) (s : Switch) : Option String := l.given.lookup s

/-- Takes an option with its value. -/
def accept (l : Level) (s : Switch) (value : String) : Except UsageError Level :=
  if !s.repeats && l.has s then .error .repeated
  else if s = .set ∧ (assignment? value).isNone then .error .badAssignment
  else if s.takesValue ∧ s ≠ .set ∧ value.isEmpty then .error .missingValue
  else .ok { l with given := l.given ++ [(s, value)] }

/-- Looks at the value that is pending. -/
def settle (l : Level) : Except UsageError Level :=
  match l.pending with
  | none => .ok l
  | some (_, none) => .error .missingValue
  | some (s, some value) => { l with pending := none }.accept s value

/-- Does the next argument belong to an option? -/
def awaits? (l : Level) : Option Switch :=
  match l.pending with
  | some (s, none) => some s
  | _ => none

/-- Takes an option that takes a value. -/
def takeOption (l : Level) (s : Switch) (attached : Option String) : Except UsageError Level := do
  let l ← l.settle
  match attached with
  | some value => l.accept s value
  | none => return { l with pending := some (s, none) }

/-- Takes a flag. -/
def takeFlag (l : Level) (s : Switch) : Except UsageError Level := do
  let l ← l.settle
  match s with
  | .help => throw .helpWanted
  | .version => throw .versionWanted
  | s => l.accept s ""

/-- Reads an argument behind two hyphens. -/
def readLong (l : Level) (known : List Switch) (cs : List Char) : Except UsageError Level :=
  let (name, attached) :=
    match splitAtEquals? cs with
    | some (name, value) => (name, some (String.ofList value))
    | none => (cs, none)
  match known.find? fun s => s.long.toList == name with
  | none => .error .unknownArgument
  | some s =>
    if s.takesValue then l.takeOption s attached
    else if attached.isSome then .error .valueForFlag
    else l.takeFlag s

/-- Reads the letters behind one hyphen.  What follows the letter of an option that takes a value is its
    value. -/
def readShort (known : List Switch) : Level → List Char → Except UsageError Level
  | l, [] => .ok l
  | l, c :: cs =>
    match known.find? fun s => s.short? == some c with
    | none => .error .unknownArgument
    | some s =>
      if s.takesValue then
        l.takeOption s <|
          match cs with
          | [] => none
          | '=' :: value => some (String.ofList value)
          | value => some (String.ofList value)
      else
        match l.takeFlag s with
        | .ok l => readShort known l cs
        | .error e => .error e

/-- Reads one argument that is no command; `commands` tells whether one could stand here. -/
def readArgument (l : Level) (known : List Switch) (commands : Bool) (arg : String) :
    Except UsageError Level :=
  match arg.toList, l.awaits? with
  | '-' :: '-' :: cs, _ => l.readLong known cs
  | '-' :: c :: cs, _ => readShort known l (c :: cs)
  | _, some s => .ok { l with pending := some (s, some arg) }
  | _, none => .error (if commands then .unknownCommand else .unknownArgument)

/-- Reads the arguments of the level up to a command, which is not looked for behind an option that
    awaits a value.  The rest of the arguments comes with it. -/
def read (known : List Switch) (commands : Bool) :
    Level → List String → Except UsageError (Level × Option (CommandName × List String))
  | l, [] => return (← l.settle, none)
  | l, arg :: args =>
    match if commands && l.awaits?.isNone then CommandName.ofWord? arg else none with
    | some name => .ok (l, some (name, args))
    | none =>
      if arg = "--" then
        match args with
        | [] => return (← l.settle, none)
        | next :: _ =>
          if commands && (CommandName.ofWord? next).isNone then .error .unknownCommand
          else .error .unknownArgument
      else
        match l.readArgument known commands arg with
        | .ok l => read known commands l args
        | .error e => .error e

end Level

/-- What becomes of a call for help on some commands: only one level of them exists. -/
def helpOn : List String → UsageError
  | [] => .helpWanted
  | [word] => if (CommandName.ofWord? word).isSome then .helpWanted else .unknownCommand
  | _ => .unknownCommand

/-- The value options of a level. -/
def Level.values (l : Level) : ValueOptions where
  copyConfig := l.has .copyConfig
  set := l.given.filterMap fun g => if g.1 = .set then assignment? g.2 else none

/-- The command with the options of its level. -/
def Level.command? (l : Level) : CommandName → Option Command
  | .init => some (.init (l.value? .source))
  | .analyze => some .analyze
  | .buildTemplate => some (.buildTemplate (l.value? .source) (l.value? .output))
  | .generate => some (.generate (l.value? .template) (l.value? .out) l.values)
  | .run => some (.run (l.value? .source) (l.value? .out) l.values)
  | .all => some (.all (l.value? .template) (l.value? .out) l.values)
  | .help => none

/-- Reads the arguments of the program. -/
def read (args : List String) : Except UsageError Invocation := do
  let (top, command) ← Level.read Switch.beforeCommand true {} args
  match command with
  | none => throw (if top.given.isEmpty then .nothingGiven else .missingCommand)
  | some (name, args) =>
    let (own, _) ← if name = .help then throw (helpOn args) else Level.read name.switches false {} args
    let top ← top.settle
    match own.command? name with
    | none => throw .helpWanted
    | some command =>
      return {
        config := ((own.value? .config).or (top.value? .config)).getD Defaults.configFile
        verbose := top.has .verbose || own.has .verbose
        command }

example : (read ["-v", "run", "--out=x", "--set", "A=b"]).toOption =
    some ⟨Defaults.configFile, true, .run none (some "x") ⟨false, [("A", "b")]⟩⟩ := by decide +kernel

end Stencil.CommandLine
