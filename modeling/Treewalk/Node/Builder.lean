import Treewalk.Node.Basic
import Treewalk.Node.Issue
import Treewalk.Node.Operator
import Treewalk.Steps

/-!
## Building nodes

One builder per kind of node checks its arguments, in order, and adds the new node to the
graph. Arguments are plain values: a builder takes whatever it is given and refuses what
does not fit. Sequences of children and of names are taken from anything that can be
walked through, and are stored as tuples.

A refusal leaves the graph as it was: `Build` computes in the graph, but every check comes
before the first new object. `Build.arithmeticOrComparison` is the builder behind the
eight operators, and `Build.ofDefinition` turns a definition into the function it defines
without checking it.
-/

namespace Treewalk

/-- Why building a node failed. -/
inductive BuildError where
  /-- An argument was refused. -/
  | refused (e : NodeError)
  /-- An argument could not be read. -/
  | fault (f : Fault)
deriving DecidableEq, Repr, Inhabited

/-- Computations that read a graph, may fail, and may add objects. -/
abbrev Build := EStateM BuildError Graph

namespace Build

/-! ### Steps -/

/-- Refuses an argument. -/
def refuse {α : Type} (issue : Issue) (node : Option Value) : Build α :=
  throw (.refused ⟨issue, node, none⟩)

/-- A reading of the graph as a step. -/
def read {α : Type} (reading : Graph → Except Fault α) : Build α := fun g =>
  match reading g with
  | .ok a => .ok a g
  | .error f => .error (.fault f) g

/-- Adds an object and gives the reference that leads to it. -/
def add (o : Object) : Build Value := fun g =>
  match g.extend o with
  | (v, g') => .ok v g'

/-- Adds a record with the given fields. -/
def addRecord (fields : List (String × Value)) : Build Value :=
  add (.record ⟨fields⟩)

/-- Adds a node with a payload. -/
def addNode (kind : Kind) (payload : Value) : Build Value :=
  addRecord [("type", .text kind.name), ("value", payload)]

/-- Adds a node whose payload is a record with the given fields. -/
def addCompound (kind : Kind) (fields : List (String × Value)) : Build Value := do
  addNode kind (← addRecord fields)

/-! ### Checks -/

/-- A child has to be there and to look like a node. -/
def requireNode (owner role : String) (v : Value) : Build Unit := fun g =>
  if v = .absent then refuse (.childMissing owner role) none g
  else if g.isNode v then .ok () g
  else refuse (.childNotNode owner role (g.typeName v)) (some v) g

/-- A name has to be an identifier. -/
def requireIdentifier (owner role : String) (v : Value) : Build Unit := do
  if v.isIdentifier then pure ()
  else refuse (.notIdentifier owner role v) none

/-- The members of a sequence of children, all of which have to be nodes. -/
def requireNodes (owner role : String) (v : Value) : Build (List Value) := do
  if v = .absent then refuse (.sequenceMissing owner role) none
  else
    let items ← read (·.items v)
    items.forM (requireNode owner role)
    pure items

/-- The members of a sequence of names, all of which have to be identifiers. A single text
is not taken for the sequence of its characters. -/
def requireNames (owner role : String) (v : Value) : Build (List Value) := do
  if v = .absent ∨ v.text?.isSome then refuse (.notNames owner role v) none
  else
    let items ← read (·.items v)
    items.forM (requireIdentifier owner role)
    pure items

/-! ### Builders -/

/-- An integer literal. -/
def number (literal : Value) : Build Value := do
  if literal.isIntLiteral then addNode .number literal
  else refuse (.notNumber literal) none

/-- The value of a variable. -/
def lookup (name : Value) : Build Value := do
  requireIdentifier "Variable" "identifier" name
  addNode .lookup name

/-- Gives a variable the value of an expression. -/
def assignment (name expr : Value) : Build Value := do
  requireIdentifier "Assignment" "identifier" name
  requireNode "Assignment" "right-hand" expr
  addCompound .assignment [("name", name), ("expr", expr)]

/-- The kind of node that an operator makes. -/
def kindOfOperator? (symbol : String) : Option Kind :=
  if (Arithmetic.ofSymbol? symbol).isSome then some .arithmetic
  else if (Comparison.ofSymbol? symbol).isSome then some .comparison
  else none

/-- Arithmetic or a comparison, whichever the operator belongs to. -/
def arithmeticOrComparison (op left right : Value) : Build Value := do
  match ← read (·.lookUp? kindOfOperator? op) with
  | none => refuse (.unknownOperator op) none
  | some kind =>
    let owner := "Operator " ++ (op.text?.getD "")
    requireNode owner "left" left
    requireNode owner "right" right
    addCompound kind [("op", op), ("left", left), ("right", right)]

/-- Arithmetic with a known operator. -/
def arithmetic (op : Arithmetic) (left right : Value) : Build Value :=
  arithmeticOrComparison (.text op.symbol) left right

/-- A comparison with a known operator. -/
def comparison (op : Comparison) (left right : Value) : Build Value :=
  arithmeticOrComparison (.text op.symbol) left right

/-- One branch, taken if the condition is not zero. -/
def conditional (condition body : Value) : Build Value := do
  requireNode "If" "condition" condition
  requireNode "If" "body" body
  addCompound .conditional [("condition", condition), ("body", body)]

/-- Two branches, the second of which is taken if the condition is zero. -/
def alternative (condition body otherwise : Value) : Build Value := do
  requireNode "IfElse" "condition" condition
  requireNode "IfElse" "body" body
  requireNode "IfElse" "else body" otherwise
  addCompound .alternative [("condition", condition), ("body", body), ("else_body", otherwise)]

/-- A body that is repeated while the condition is not zero. -/
def loop (condition body : Value) : Build Value := do
  requireNode "While" "condition" condition
  let body ← requireNodes "While" "body" body
  addCompound .loop [("condition", condition), ("body", ← add (.tuple body))]

/-- Prints the value of an expression. -/
def print (expr : Value) : Build Value := do
  requireNode "Print" "value" expr
  addNode .print expr

/-- A function without a name. -/
def function (params body : Value) : Build Value := do
  let params ← requireNames "Function" "parameter" params
  let body ← requireNodes "Function" "body" body
  addCompound .function [("params", ← add (.tuple params)), ("body", ← add (.tuple body))]

/-- Gives a name to a function. -/
def definition (name params body : Value) : Build Value := do
  requireIdentifier "FunctionDefinition" "name" name
  let params ← requireNames "FunctionDefinition" "parameter" params
  let body ← requireNodes "FunctionDefinition" "body" body
  addCompound .definition
    [("name", name), ("params", ← add (.tuple params)), ("body", ← add (.tuple body))]

/-- Calls a function by its name. -/
def call (name args : Value) : Build Value := do
  requireIdentifier "FunctionCall" "name" name
  let args ← requireNodes "FunctionCall" "argument" args
  addCompound .call [("name", name), ("args", ← add (.tuple args))]

/-- The function that a definition defines; it shares the parameters and the body of the
definition, and none of them is checked. -/
def ofDefinition (definition : Value) : Build Value := do
  let payload ← read (·.payload definition)
  let params ← read (·.field payload "params")
  let body ← read (·.field payload "body")
  addCompound .function [("params", params), ("body", body)]

end Build

end Treewalk
