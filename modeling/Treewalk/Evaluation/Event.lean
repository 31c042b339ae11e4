import Treewalk.Evaluation.Context

/-!
## What a run shows

Everything that a run lets the outside see is an event: the lines it prints, and, if it is
traced, a line for every node it evaluates, every assignment, every definition and every
call. Events keep their order in one log, so that printed lines and trace lines appear
between each other as they happened. `Log.standardOutput` and `Log.collected` are the two
readings of a log.
-/

namespace Treewalk

/-- An **event** of a run. -/
inductive Event (D : Domain := .integers) where
  /-- A value was printed. -/
  | printed (sink : Sink) (value : D.Val)
  /-- A node with this tag is about to be evaluated. -/
  | visited (tag : String)
  /-- A variable has been given a value. -/
  | assigned (name : String) (value : D.Val)
  /-- A function has been defined. -/
  | defined (name : String) (params : List String)
  /-- A function is about to run with these bindings. -/
  | called (name : String) (bindings : List (String × D.Val))
deriving DecidableEq, Inhabited

/-- A printed value as a line. -/
def printLine {α : Type} [ToString α] (value : α) : String :=
  "> " ++ toString value

namespace Event

variable {D : Domain}

/-- The event as a line of text. -/
def line : Event D → String
  | printed _ value => printLine (D.text value)
  | visited tag => "Evaluating: " ++ tag
  | assigned name value => "  " ++ name ++ " = " ++ D.text value
  | defined name params =>
    "  Defined function: " ++ name ++ "(" ++ ", ".intercalate params ++ ")"
  | called name bindings =>
    "  Calling " ++ name ++ "("
      ++ ", ".intercalate (bindings.map fun b => b.1 ++ "=" ++ D.text b.2) ++ ")"

/-- What the event puts on standard output. -/
def onStandardOutput (e : Event D) : String :=
  match e with
  | printed .collector _ => ""
  | _ => e.line ++ "\n"

/-- The line that the event adds to the collection of printed lines, if it adds one. -/
def collected? : Event D → Option String
  | printed .collector value => some (printLine (D.text value))
  | _ => none

end Event

/-- A **log**: the events of a run, oldest first. -/
abbrev Log (D : Domain := .integers) := Array (Event D)

namespace Log

variable {D : Domain}

/-- What a run put on standard output. -/
def standardOutput (log : Log D) : String :=
  String.join (log.toList.map Event.onStandardOutput)

/-- The lines that a run printed into the collection. -/
def collected (log : Log D) : List String :=
  log.toList.filterMap Event.collected?

end Log

end Treewalk
