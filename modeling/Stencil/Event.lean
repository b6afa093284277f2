/-
  What a command lets be seen while it runs, besides the files it writes.
-/

namespace Stencil

/-- What the value of a variable is asked for with. -/
structure Question where
  name : String
  text : String
  default : Option String
  deriving DecidableEq

/-- The part of the program that a log line comes from. -/
inductive Reporter where
  | resolver
  | walker
  | generator
  deriving DecidableEq

/-- Something that can be seen. -/
inductive Event where
  | warning (reporter : Reporter) (text : String)
  | info (reporter : Reporter) (text : String)
  /-- A question, with what was written to the terminal for it. -/
  | asked (question : Question) (written : String)
  /-- Text written to the terminal. -/
  | output (text : String)
  deriving DecidableEq

namespace Event

/-- The texts of the warnings among some events. -/
def warnings (events : List Event) : List String :=
  events.filterMap fun
    | warning _ text => some text
    | _ => none

/-- The questions among some events. -/
def questions (events : List Event) : List Question :=
  events.filterMap fun
    | asked question _ => some question
    | _ => none

/-- All that was written to the terminal. -/
def written (events : List Event) : String :=
  String.join (events.map fun
    | asked _ text => text
    | output text => text
    | _ => "")

end Event

end Stencil
