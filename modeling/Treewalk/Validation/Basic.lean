import Treewalk.Report
import Treewalk.Steps
import Treewalk.Validation.Location
import Treewalk.Validation.Shape
import Treewalk.Validation.Summary

/-!
## Validation

Validation walks through a program and decides whether it is well formed: every value that
is reached through children has the shape of a node, and no node is reached again strictly
below itself. Objects that occur at several places are walked through once per occurrence,
and are no cycle.

A walk visits a node, counts it, notes its name, and then visits its children from left to
right. It stops at the first violation, which it reports with its location, and it then
keeps the summary of what it has visited so far: the summary and the list of visits are
state, the violation is an exception. The nodes on the way from the start of a walk to the
current node are its ancestors; a node that is its own ancestor closes a cycle.

Walks are limited in depth by the number of nodes on the way down, because a program may be
nested too deep for the machine that it runs on.
-/

namespace Treewalk

/-! ### Results of a walk -/

/-- **Why a walk ends early.** -/
inductive Rejection where
  /-- A rule is violated; a violation by the program as a whole has no location. -/
  | violation (v : Violation) (location : Option Location)
  /-- A question about a value could not be asked. -/
  | fault (f : Fault)
  /-- The nodes are nested deeper than the limit. -/
  | tooDeep
deriving DecidableEq, Repr, Inhabited

/-- The report of a violation, in which `limit` is the room for writing the value that it
quotes. There is no report if the value does not fit. -/
def Violation.report? (g : Graph) (limit : Nat) (v : Violation) (location : Option Location) :
    Option PathReport :=
  if v.quoted?.all (g.isWritable limit) then
    some {
      message := .text (v.message g)
      path := match location with
        | some location => .text location.path
        | none => .absent }
  else none

/-- What a walk has found so far. -/
structure Survey where
  /-- The summary of the nodes visited. -/
  summary : Summary := .empty
  /-- The visits that were asked to be recorded, in their order. -/
  visits : Array (Location × Kind) := #[]
deriving DecidableEq, Repr, Inhabited

/-- A walk in progress. -/
abbrev Walk := EStateM Rejection Survey

/-- A record of a visit as a line of text. -/
def visitLine (visit : Location × Kind) : String :=
  "Validating: " ++ visit.1.path ++ " " ++ visit.2.name

namespace Survey

/-- The recorded visits as text, one line each. -/
def trace (s : Survey) : String :=
  String.join (s.visits.toList.map fun visit => visitLine visit ++ "\n")

end Survey

/-- The violation of a shape, at a location. -/
def Misshape.at (location : Location) : Misshape → Rejection
  | .violation v => .violation v (some location)
  | .fault f => .fault f

namespace Graph

/-! ### Visiting a node -/

/-- A value has to have the shape of a node, at the given location. -/
def checkShape (g : Graph) (location : Location) (v : Value) : Except Rejection (Kind × Value) :=
  (g.shape v).mapError (·.at location)

/-- A value has to have the shape of a node and not to be among its own ancestors. -/
def accept (g : Graph) (ancestors : List Value) (location : Location) (v : Value) :
    Except Rejection (Kind × Value) := do
  let (kind, payload) ← g.checkShape location v
  if ancestors.contains v then .error (.violation (.cycle kind) (some location))
  else pure (kind, payload)

/-- The name in the payload of a node, if it has one. -/
def nameIn (g : Graph) (payload : Value) : String :=
  match g.field payload "name" with
  | .ok (.text s) => s
  | _ => ""

/-- What a visit adds to a survey. -/
def recorded (g : Graph) (tracing : Bool) (location : Location) (kind : Kind) (payload : Value)
    (s : Survey) : Survey :=
  { summary := (s.summary.count kind).note kind (g.nameIn payload)
    visits := if tracing then s.visits.push (location, kind) else s.visits }

/-- The children of an accepted node. -/
def walkChildren (g : Graph) (kind : Kind) (payload : Value) : Walk (List Value) :=
  match g.childrenOf kind payload with
  | .ok children => pure children
  | .error f => throw (.fault f)

/-- Accepts a node and records the visit. -/
def enter (g : Graph) (tracing : Bool) (ancestors : List Value) (location : Location) (v : Value) :
    Walk (Kind × Value) := fun s =>
  match g.accept ancestors location v with
  | .ok (kind, payload) => .ok (kind, payload) (g.recorded tracing location kind payload s)
  | .error e => .error e s

/-! ### Walking down -/

/-- Walks through values one after the other, the first of which has the given index. -/
def walkEach (self : Nat → Value → Walk Unit) : Nat → List Value → Walk Unit
  | _, [] => pure ()
  | index, v :: vs => do
    self index v
    walkEach self (index + 1) vs

/-- A **walk** through a node and all that is reached from it, at most `depth` nodes on the
way down. -/
def walkNode (g : Graph) (tracing : Bool) : Nat → List Value → Location → Value → Walk Unit
  | 0, _, _, _ => throw .tooDeep
  | depth + 1, ancestors, location, v => do
    let (kind, payload) ← g.enter tracing ancestors location v
    let children ← g.walkChildren kind payload
    walkEach (fun index => g.walkNode tracing depth (v :: ancestors) (location.child kind index))
      0 children

/-- A walk through the statements of a program, each with ancestors of its own. -/
def walkProgram (g : Graph) (tracing : Bool) (depth : Nat) (program : Value) : Walk Unit :=
  if (g.record? program).isSome then throw (.violation .programIsNode none)
  else
    match g.items program with
    | .ok statements =>
      walkEach (fun index => g.walkNode tracing depth [] (.statement index)) 0 statements
    | .error f => throw (.fault f)

/-! ### Validation -/

/-- What is left of a walk: a rejection or nothing, and the survey. -/
def outcome (walk : Walk Unit) (start : Survey) : Except Rejection Unit × Survey :=
  match walk start with
  | .ok () s => (.ok (), s)
  | .error e s => (.error e, s)

/-- Validates one node, adding to a survey that has been begun. -/
def validateNode (g : Graph) (tracing : Bool) (depth : Nat) (location : Location)
    (v : Value) (start : Survey) : Except Rejection Unit × Survey :=
  outcome (g.walkNode tracing depth [] location v) start

/-- **Validates a program.** -/
def validateProgram (g : Graph) (tracing : Bool) (depth : Nat) (program : Value) :
    Except Rejection Unit × Survey :=
  outcome (g.walkProgram tracing depth program) {}

end Graph

end Treewalk
