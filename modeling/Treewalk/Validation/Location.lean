import Treewalk.Node.Kind

/-!
## Locations

A location says where in a program a node stands: a name for the place where one starts,
and the steps down from there. Each step gives the kind of the node that is left and the
index of the child that is taken. Locations are written as paths, such as
`statement[1]/WHILE[2]/PRINT[0]`.
-/

namespace Treewalk

/-- A **location** in a program. -/
structure Location where
  /-- The name of the place where the steps start. -/
  root : String
  /-- The steps down, outermost first: the kind that is left and the child that is taken. -/
  steps : List (Kind × Nat) := []
deriving DecidableEq, Repr, Inhabited

namespace Location

/-- The location of a top-level statement. -/
def statement (index : Nat) : Location :=
  ⟨"statement[" ++ toString index ++ "]", []⟩

/-- The location of a child of a node of the given kind. -/
def child (l : Location) (kind : Kind) (index : Nat) : Location :=
  { l with steps := l.steps ++ [(kind, index)] }

/-- One step as part of a path. -/
def stepText (step : Kind × Nat) : String :=
  "/" ++ step.1.name ++ "[" ++ toString step.2 ++ "]"

/-- The location as a path. -/
def path (l : Location) : String :=
  l.root ++ String.join (l.steps.map stepText)

end Location

end Treewalk
