import Treewalk.Evaluation.Program

/-!
## Histories of environments

A history is a growing list of environments, on which any sequence of actions is carried
out: making new environments, writing to them, reading from them, clearing them, evaluating
nodes in them, and taking snapshots. A snapshot shows the two tables of an environment as
they were when it was taken, whatever happens later. An action that fails changes nothing,
except that a node that is evaluated may have changed its environment before it failed.
-/

namespace Treewalk

/-- A **history**. -/
structure History where
  /-- The environments, in the order in which they were made. -/
  environments : Array Env := #[]
  /-- The snapshots, in the order in which they were taken. -/
  snapshots : Array Env := #[]
deriving DecidableEq, Inhabited

/-- What can be done in a history. Environments and snapshots are given by their places. -/
inductive Action where
  /-- Makes an environment with the bindings that two values give. -/
  | make (values functions : Value)
  /-- Binds a variable. -/
  | set (env : Nat) (name : Value) (value : Int)
  /-- Reads a variable. -/
  | lookup (env : Nat) (name : Value)
  /-- Asks whether there is a variable and whether there is a function of that name. -/
  | has (env : Nat) (name : Value)
  /-- Gives a name to a function. -/
  | define (env : Nat) (name : Value) (function : Callable)
  /-- Reads a function. -/
  | lookupFunction (env : Nat) (name : Value)
  /-- Takes a snapshot. -/
  | snapshot (env : Nat)
  /-- Looks at a snapshot. -/
  | showSnapshot (snapshot : Nat)
  /-- Forgets all bindings. -/
  | clear (env : Nat)
  /-- Evaluates a node, without a context of its own. -/
  | eval (env : Nat) (node : Value)
deriving DecidableEq, Repr, Inhabited

/-- What an action gives. -/
inductive Reply where
  /-- A value. -/
  | value (x : Int)
  /-- A function. -/
  | function (f : Callable)
  /-- Whether there is a variable, and whether there is a function. -/
  | presence (hasVariable hasFunction : Bool)
  /-- The place of a new snapshot. -/
  | place (index : Nat)
  /-- An environment or a snapshot. -/
  | shown (env : Env)
  /-- Nothing but that it is done. -/
  | done
deriving DecidableEq, Inhabited

namespace History

/-- The environment at a place; a place that the history does not have binds nothing. -/
def envAt (s : History) (index : Nat) : Env :=
  s.environments[index]?.getD .empty

/-- The history with another environment at a place. -/
def setEnv (s : History) (index : Nat) (env : Env) : History :=
  { s with environments := s.environments.setIfInBounds index env }

/-- A run on the environment at a place, without a context of its own. -/
def outcomeAt {α : Type} (s : History) (index : Nat) (run : Eval α) : Outcome α :=
  run.carryOut { env := s.envAt index, context := none, log := #[] }

/-- What a run on the environment at a place answers; the environment is not touched. -/
def ask {α : Type} (s : History) (index : Nat) (run : Eval α) (reply : α → Reply) :
    Except Halt Reply × History :=
  ((s.outcomeAt index run).result.map reply, s)

/-- Writes to the environment at a place under a name, which has to be a text. -/
def write (s : History) (index : Nat) (name : Value) (change : String → Env → Env)
    (reply : Reply) : Except Halt Reply × History :=
  match name.name with
  | .ok name => (.ok reply, s.setEnv index (change name (s.envAt index)))
  | .error f => (.error (.fault f), s)

/-- **One action**: its reply and the history afterwards. -/
def act (s : History) (h : Host) : Action → Except Halt Reply × History
  | .make values functions =>
    match Env.ofValues h.graph values functions with
    | .ok env => (.ok (.shown env), { s with environments := s.environments.push env })
    | .error f => (.error (.fault f), s)
  | .set index name value =>
    s.write index name (fun name env => env.setVariable name value) (.value value)
  | .lookup index name => s.ask index (h.valueOf name) .value
  | .has index name => s.ask index (h.presence name) fun p => .presence p.1 p.2
  | .define index name function =>
    s.write index name (fun name env => env.define name function) (.function function)
  | .lookupFunction index name => s.ask index (h.functionOf name) .function
  | .snapshot index =>
    (.ok (.place s.snapshots.size), { s with snapshots := s.snapshots.push (s.envAt index) })
  | .showSnapshot index => (.ok (.shown (s.snapshots[index]?.getD .empty)), s)
  | .clear index => (.ok .done, s.setEnv index .empty)
  | .eval index node =>
    let outcome := s.outcomeAt index (h.eval h.nesting node)
    (outcome.result.map .value, s.setEnv index outcome.machine.env)

end History

end Treewalk
