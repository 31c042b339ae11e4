import Treewalk.Evaluation.Program

/-!
## Sessions

A session holds environments and interpreters. An interpreter works on one environment,
which it may share with other interpreters, and has a sink, a hook, a budget and a tracing
mode of its own: its `Settings`. Unless it is given an environment when it is made, it gets a
new one. Each call of an interpreter is a run in a fresh context: its checkpoints are
counted from zero. Only the number of times its hook has been asked, and the environment,
live on from call to call, also after a failure.
-/

namespace Treewalk

/-- An **interpreter**. -/
structure Interpreter where
  /-- The environment it works on, by its place in the session. -/
  store : Nat
  /-- Are its runs traced? -/
  tracing : Bool := false
  /-- Where its runs print. -/
  sink : Sink := .standard
  /-- The answers of its hook, if it has one. -/
  hook : Option (Nat → Bool) := none
  /-- The budget of each of its runs, if they have one. -/
  budget : Option Int := none
  /-- How often its hook has been asked so far. -/
  polls : Nat := 0

/-- What an interpreter is made with, apart from its environment. -/
structure Settings where
  /-- Are its runs traced? -/
  tracing : Bool := false
  /-- Where its runs print. -/
  sink : Sink := .standard
  /-- The answers of its hook, if it has one. -/
  hook : Option (Nat → Bool) := none
  /-- The budget of each of its runs, if they have one. -/
  budget : Option Int := none

/-- An interpreter with these settings, whose hook has not been asked yet. -/
def Settings.interpreter (a : Settings) (store : Nat) : Interpreter :=
  { store := store, tracing := a.tracing, sink := a.sink, hook := a.hook, budget := a.budget }

/-- The context of the next run of an interpreter. -/
def Interpreter.context (i : Interpreter) : Context :=
  { sink := i.sink, hook := i.hook, budget := i.budget, steps := 0, polls := i.polls }

/-- A **session**, over values in `D`. -/
structure Session (D : Domain := .integers) where
  /-- The environments. -/
  environments : Array (Env D) := #[]
  /-- The interpreters. -/
  interpreters : Array Interpreter := #[]

/-- What an interpreter can be asked to do. -/
inductive Call where
  /-- To run a program and give the values of its statements. -/
  | interpret (program : Value)
  /-- To run a program and give the variables as they are afterwards. -/
  | interpretProgram (program : Value)
  /-- To evaluate a node. -/
  | evaluate (node : Value)
  /-- To forget all variables and functions. -/
  | reset
deriving DecidableEq, Repr, Inhabited

/-- What an interpreter answers. -/
inductive Answer (D : Domain := .integers) where
  /-- The values of the statements of a program. -/
  | values (xs : List D.Val)
  /-- The variables after a program. -/
  | bindings (t : Table D.Val D.Key)
  /-- The value of a node. -/
  | value (x : D.Val)
  /-- The environment is empty. -/
  | cleared
deriving DecidableEq, Inhabited

variable {D : Domain}

namespace Call

open Eval

/-- The run that a call asks for. -/
def run (h : Host D) : Call → Eval (Answer D) D
  | interpret program => Answer.values <$> h.runProgram program
  | interpretProgram program => do
    let _ ← h.runProgram program
    pure (.bindings (← env).values)
  | evaluate node => Answer.value <$> h.eval h.nesting node
  | reset => do
    changeEnv fun _ => .empty
    pure .cleared

end Call

namespace Session

/-- The environment at a place; a place that the session does not have binds nothing. -/
def envAt (s : Session D) (store : Nat) : Env D :=
  s.environments[store]?.getD .empty

/-- **Makes an interpreter**, on the environment at the given place or, if there is none
given, on a new one that binds nothing. -/
def create (s : Session D) (a : Settings) : Option Nat → Session D
  | some store => { s with interpreters := s.interpreters.push (a.interpreter store) }
  | none =>
    { environments := s.environments.push .empty
      interpreters := s.interpreters.push (a.interpreter s.environments.size) }

/-- The machine on which the next run of an interpreter starts. -/
def machine (s : Session D) (i : Interpreter) : Machine D :=
  { env := s.envAt i.store, context := some i.context, log := #[] }

/-- The session after a run of the interpreter at place `index` has left a machine. -/
def absorb (s : Session D) (index : Nat) (i : Interpreter) (m : Machine D) : Session D :=
  let polls := match m.context with
    | some c => c.polls
    | none => i.polls
  { environments := s.environments.setIfInBounds i.store m.env
    interpreters := s.interpreters.setIfInBounds index { i with polls := polls } }

/-- **One call**: the outcome of the run and the session afterwards. The interpreter
decides whether the run is traced; all else is the host's. There is no outcome if the
session has no interpreter at that place. -/
def call (s : Session D) (h : Host D) (index : Nat) (c : Call) :
    Option (Outcome (Answer D) D × Session D) :=
  match s.interpreters[index]? with
  | none => none
  | some i =>
    let outcome := (c.run { h with tracing := i.tracing }).carryOut (s.machine i)
    some (outcome, s.absorb index i outcome.machine)

end Session

end Treewalk
