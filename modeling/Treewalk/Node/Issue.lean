import Treewalk.Graph.Printer

/-!
## Objections to single nodes

Two parts of the library object to a node for what it is, and not for what happens when it
runs: the builders, which refuse arguments, and the evaluator, when it meets a tag or an
operator that it does not know. An `Issue` names the reason and holds the value that it is
about; `Issue.message` words it, and a `NodeError` adds the offending node, if it is known,
and the statement of the program that was running.

The wording of some issues quotes a value (`Issue.quoted?`). Builders quote the written
form, in which a text stands between quotes; the evaluator quotes the plain form.
-/

namespace Treewalk

/-- Why a node is objected to. -/
inductive Issue where
  /-- A child is left out. -/
  | childMissing (owner role : String)
  /-- A child is no node but a value of another type. -/
  | childNotNode (owner role typeName : String)
  /-- A name is no identifier. -/
  | notIdentifier (owner role : String) (name : Value)
  /-- A sequence of children is left out. -/
  | sequenceMissing (owner role : String)
  /-- A sequence of names is left out, or is a single text. -/
  | notNames (owner role : String) (names : Value)
  /-- A literal is no integer. -/
  | notNumber (literal : Value)
  /-- An operator is neither arithmetic nor a comparison. -/
  | unknownOperator (op : Value)
  /-- The tag of a node names no kind. -/
  | unknownKind (tag : Value)
  /-- The operator of an arithmetic node is not arithmetic. -/
  | unknownArithmetic (op : Value)
  /-- The operator of a comparison is no comparison. -/
  | unknownComparison (op : Value)
deriving DecidableEq, Repr, Inhabited

namespace Issue

/-- The wording of an issue. -/
def message (g : Graph) : Issue → String
  | childMissing owner role => s!"{owner} requires a {role} expression, got None"
  | childNotNode owner role typeName =>
    s!"{owner} {role} must be an expression node, got {typeName}"
  | notIdentifier owner role name =>
    s!"{owner} {role} must be a non-empty string, got " ++ g.written name
  | sequenceMissing owner role => s!"{owner} requires a {role} sequence, got None"
  | notNames owner role names =>
    s!"{owner} requires a sequence of {role} names, got " ++ g.written names
  | notNumber literal => "Number literal must be an int, got " ++ g.written literal
  | unknownOperator op => "Unknown operator: " ++ g.written op
  | unknownKind tag => "Unknown node type: " ++ g.plain tag
  | unknownArithmetic op => "Unknown arithmetic operator: " ++ g.plain op
  | unknownComparison op => "Unknown comparison operator: " ++ g.plain op

/-- The value that the wording quotes, if it quotes one. -/
def quoted? : Issue → Option Value
  | childMissing _ _ | childNotNode _ _ _ | sequenceMissing _ _ => none
  | notIdentifier _ _ name => some name
  | notNames _ _ names => some names
  | notNumber literal => some literal
  | unknownOperator op | unknownArithmetic op | unknownComparison op => some op
  | unknownKind tag => some tag

end Issue

/-- An objection to a node. -/
structure NodeError where
  /-- The reason. -/
  issue : Issue
  /-- The offending node, if it is known. -/
  node : Option Value := none
  /-- The top-level statement that was running, if there was one. -/
  statement : Option Nat := none
deriving DecidableEq, Repr, Inhabited

/-- The error, tagged with the top-level statement that was running. -/
def NodeError.atStatement (e : NodeError) (index : Nat) : NodeError :=
  { e with statement := some index }

end Treewalk
