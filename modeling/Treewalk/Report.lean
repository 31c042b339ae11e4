import Treewalk.Failure
import Treewalk.Node.Issue

/-!
## Reports

A report is an error made ready for a reader: a few loosely typed values, of which some may
be absent, and one line that puts them together. There are three sorts, for the three sorts
of errors: failures of a run (`Report`), objections to nodes (`NodeReport`) and violations
found by validation (`PathReport`).

A line shows values in their plain forms. A message that makes up a whole line has to be a
text, and a line can only be written where there is room for its values (`isWritable`).

A report can be tagged with the top-level statement that was running; a later tag replaces
an earlier one.
-/

namespace Treewalk

/-! ### Failures of a run -/

/-- The two tables of an environment as a report shows them: the variables with what they
hold, and the names of the functions. -/
structure Snapshot where
  /-- What the variables hold. -/
  values : Table Value := .empty
  /-- The names of the functions. -/
  functions : List String := []
deriving DecidableEq, Repr, Inhabited

/-- The two tables of an environment. -/
def Env.snapshot (env : Env) : Snapshot :=
  { values := env.values.map .int, functions := env.functions.keys }

/-- A failure of a run, ready for a reader. -/
structure Report where
  /-- The word for the kind of failure. -/
  kind : Value
  /-- What happened. -/
  message : Value
  /-- The tag of the node at which it happened. -/
  tag : Value := .absent
  /-- The name that it is about. -/
  identifier : Value := .absent
  /-- The environment at that time. -/
  snapshot : Option Snapshot := none
  /-- The top-level statement that was running. -/
  statement : Value := .absent
deriving DecidableEq, Repr, Inhabited

namespace Report

/-- What stands in brackets behind the message: the tag, unless it is vacant, the name and
the statement, as far as they are known. -/
def details (g : Graph) (r : Report) : List String :=
  let tag := if g.isVacant r.tag then [] else ["node " ++ g.plain r.tag]
  let identifier :=
    if r.identifier = .absent then [] else ["identifier '" ++ g.plain r.identifier ++ "'"]
  let statement :=
    if r.statement = .absent then [] else ["statement #" ++ g.plain r.statement]
  tag ++ identifier ++ statement

/-- The report as one line. -/
def format (g : Graph) (r : Report) : String :=
  let head := g.plain r.kind ++ ": " ++ g.plain r.message
  let details := r.details g
  if details.isEmpty then head else head ++ " (" ++ ", ".intercalate details ++ ")"

/-- Is there room for writing the line? -/
def isWritable (g : Graph) (limit : Nat) (r : Report) : Bool :=
  [r.kind, r.message, r.tag, r.identifier, r.statement].all (g.isWritable limit)

/-- The report, tagged with a top-level statement. -/
def atStatement (r : Report) (index : Value) : Report :=
  { r with statement := index }

end Report

/-- The index of a statement as a value. -/
def statementValue : Option Nat → Value
  | some index => .int index
  | none => .absent

/-- The report of a failure. -/
def Failure.report (g : Graph) (f : Failure) : Report :=
  { kind := .text f.kind, message := .text (f.message g), tag := f.tag,
    identifier := f.identifier?.getD .absent, snapshot := f.env?.map Env.snapshot }

/-- The report of a failed run. -/
def RuntimeError.report (g : Graph) (e : RuntimeError) : Report :=
  (e.failure.report g).atStatement (statementValue e.statement)

/-! ### Objections to nodes -/

/-- An objection to a node, ready for a reader. -/
structure NodeReport where
  /-- The objection. -/
  message : Value
  /-- Is the offending node known? -/
  hasNode : Bool := false
  /-- The top-level statement that was running. -/
  statement : Value := .absent
deriving DecidableEq, Repr, Inhabited

namespace NodeReport

/-- The report as one line. -/
def format (g : Graph) (r : NodeReport) : Except Fault String :=
  if r.statement = .absent then r.message.name
  else .ok (g.plain r.message ++ " (statement #" ++ g.plain r.statement ++ ")")

/-- Is there room for writing the line? -/
def isWritable (g : Graph) (limit : Nat) (r : NodeReport) : Bool :=
  [r.message, r.statement].all (g.isWritable limit)

/-- The report, tagged with a top-level statement. -/
def atStatement (r : NodeReport) (index : Value) : NodeReport :=
  { r with statement := index }

end NodeReport

/-- The report of an objection to a node, in which `limit` is the room for writing the value
that the objection quotes. There is no report if the value does not fit. -/
def NodeError.report? (g : Graph) (limit : Nat) (e : NodeError) : Option NodeReport :=
  if e.issue.quoted?.all (g.isWritable limit) then
    some {
      message := .text (e.issue.message g)
      hasNode := e.node.isSome
      statement := statementValue e.statement }
  else none

/-! ### Violations -/

/-- A violation of the rules for programs, ready for a reader. -/
structure PathReport where
  /-- The violation. -/
  message : Value
  /-- Where in the program it is. -/
  path : Value := .absent
deriving DecidableEq, Repr, Inhabited

namespace PathReport

/-- The report as one line; a vacant path is not shown. -/
def format (g : Graph) (r : PathReport) : Except Fault String :=
  if g.isVacant r.path then r.message.name
  else .ok (g.plain r.message ++ " (at " ++ g.plain r.path ++ ")")

/-- Is there room for writing the line? -/
def isWritable (g : Graph) (limit : Nat) (r : PathReport) : Bool :=
  [r.message, r.path].all (g.isWritable limit)

end PathReport

end Treewalk
