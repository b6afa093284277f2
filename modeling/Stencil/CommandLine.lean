/-
  The commands, and the options they take.

  Options are the same everywhere, but each command takes only some of them.  The configuration file,
  more log lines and help can be asked for before the command as well as behind it.
-/
import Stencil.Defaults

namespace Stencil.CommandLine

/-- The options that have to do with the values of variables. -/
structure ValueOptions where
  /-- Is the configuration file copied into the project? -/
  copyConfig : Bool
  /-- The values given for variables, in order. -/
  set : List (String × String)
  deriving DecidableEq

/-- A command with its options. -/
inductive Command where
  | init (source : Option String)
  | analyze
  | buildTemplate (source output : Option String)
  | generate (template out : Option String) (values : ValueOptions)
  | run (source out : Option String) (values : ValueOptions)
  | all (template out : Option String) (values : ValueOptions)
  deriving DecidableEq

/-- A call of the program. -/
structure Invocation where
  config : String
  verbose : Bool
  command : Command
  deriving DecidableEq

/-- Why a command line is no call of the program. -/
inductive UsageError where
  | nothingGiven
  | missingCommand
  | unknownCommand
  | unknownArgument
  | missingValue
  /-- The value of a variable is not of the form `NAME=VALUE`. -/
  | badAssignment
  | valueForFlag
  | repeated
  | helpWanted
  | versionWanted
  deriving DecidableEq

namespace UsageError

/-- The short text about the program. -/
def usage : String :=
  "Usage: scaffo [-c FILE] [-v] COMMAND\n" ++
    "Commands: init, analyze, build-template, generate, run, all"

/-- What is said about a command line. -/
def message : UsageError → String
  | nothingGiven | missingCommand | helpWanted => usage
  | unknownCommand => "error: there is no such command"
  | unknownArgument => "error: an argument is not expected here"
  | missingValue => "error: the value of an option is missing"
  | badAssignment => "error: expected NAME=VALUE"
  | valueForFlag => "error: an option takes no value"
  | repeated => "error: an option is given twice"
  | versionWanted => "scaffo 0.3.0"

/-- The exit code of the program: who asks for help or for the version makes no mistake. -/
def exitCode : UsageError → UInt32
  | helpWanted | versionWanted => 0
  | _ => 2

end UsageError

/-- The name of a command. -/
inductive CommandName where
  | init
  | analyze
  | buildTemplate
  | generate
  | run
  | all
  | help
  deriving DecidableEq

/-- An option. -/
inductive Switch where
  | config
  | verbose
  | help
  | version
  | source
  | output
  | template
  | out
  | copyConfig
  | set
  deriving DecidableEq

namespace Switch

/-- The name behind two hyphens. -/
def long : Switch → String
  | config => "config"
  | verbose => "verbose"
  | help => "help"
  | version => "version"
  | source => "from"
  | output => "output"
  | template => "template"
  | out => "out"
  | copyConfig => "copy-config"
  | set => "set"

/-- The letter behind one hyphen. -/
def short? : Switch → Option Char
  | config => some 'c'
  | verbose => some 'v'
  | help => some 'h'
  | version => some 'V'
  | _ => none

/-- Does a value belong to it? -/
def takesValue : Switch → Bool
  | config | source | output | template | out | set => true
  | verbose | help | version | copyConfig => false

/-- May it be given more than once? -/
def repeats (s : Switch) : Bool := s == set

/-- The options that can stand anywhere. -/
def everywhere : List Switch := [config, verbose, help]

/-- The options before the command. -/
def beforeCommand : List Switch := version :: everywhere

end Switch

namespace CommandName

/-- The commands. -/
def every : List CommandName := [init, analyze, buildTemplate, generate, run, all, help]

/-- The word for a command. -/
def word : CommandName → String
  | init => "init"
  | analyze => "analyze"
  | buildTemplate => "build-template"
  | generate => "generate"
  | run => "run"
  | all => "all"
  | help => "help"

/-- The command that a word stands for. -/
def ofWord? (w : String) : Option CommandName := every.find? fun c => c.word == w

/-- The options behind the command. -/
def switches : CommandName → List Switch
  | init => .source :: Switch.everywhere
  | analyze => Switch.everywhere
  | buildTemplate => [.source, .output] ++ Switch.everywhere
  | generate => [.template, .out, .copyConfig, .set] ++ Switch.everywhere
  | run => [.source, .out, .copyConfig, .set] ++ Switch.everywhere
  | all => [.template, .out, .copyConfig, .set] ++ Switch.everywhere
  | help => []

end CommandName

end Stencil.CommandLine
