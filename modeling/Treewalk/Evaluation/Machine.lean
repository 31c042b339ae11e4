import Treewalk.Evaluation.Event
import Treewalk.Node.Issue
import Treewalk.Steps

/-!
## Runs and their steps

A run works on a `Machine`: the environment, the context, and the log of events. It ends
with a result or with a `Halt`, and in both cases it leaves the machine as it was at that
moment; nothing is undone. `Eval` is the type of such runs. All of them are over a domain of
values, the integers if none is given.

What stays fixed during a run is its `Host`: the graph, whether the run is traced, how deep
evaluations may nest, how deep a value may nest that a message or a trace line writes out,
and how many rounds a single loop may take. The last is no property of the language: a run
that reaches it has not been followed to its end, and halts as `unfinished`.

A run can be without a context of its own. Whatever needs one then works in a default
context that is set up for it and dropped afterwards (`inContext`); a step that needs a
context and finds none is a fault.
-/

namespace Treewalk

/-- **Why a run ended without a result.** -/
inductive Halt (D : Domain := .integers) where
  /-- A value could not be read or used as it had to be. -/
  | fault (f : Fault)
  /-- A node was objected to. -/
  | node (e : NodeError)
  /-- The run failed. -/
  | failure (e : RuntimeError D)
  /-- Evaluations, or a value that had to be written out, nested too deep. -/
  | tooDeep
  /-- A loop was not followed to its end. -/
  | unfinished
deriving DecidableEq, Inhabited

/-- What a run works on. -/
structure Machine (D : Domain := .integers) where
  /-- The environment. -/
  env : Env D := .empty
  /-- The context, if the run has one. -/
  context : Option Context := some .default
  /-- The events so far. -/
  log : Log D := #[]

/-- What stays fixed during a run, over values in `D`. -/
structure Host (D : Domain := .integers) where
  /-- The graph that holds the program. -/
  graph : Graph
  /-- Is the run traced? -/
  tracing : Bool := false
  /-- How many evaluations may be nested. -/
  nesting : Nat := 1000
  /-- How many objects may be nested in a value that is written out. -/
  writing : Nat := 1000
  /-- How many rounds a single loop is followed for. -/
  rounds : Nat

/-- A **run** on a machine. -/
abbrev Eval (α : Type) (D : Domain := .integers) := EStateM (Halt D) (Machine D) α

namespace Eval

variable {D : Domain} {α : Type}

/-! ### Ends -/

/-- Ends the run with a failure. -/
def fail (f : Failure D) : Eval α D :=
  throw (.failure ⟨f, none⟩)

/-- Ends the run with an objection to a node. -/
def object (issue : Issue) (node : Value) : Eval α D :=
  throw (.node ⟨issue, some node, none⟩)

/-- A reading of the graph as a step of a run. -/
def read (reading : Except Fault α) : Eval α D :=
  match reading with
  | .ok a => pure a
  | .error f => throw (.fault f)

/-- An operation that may fail as a step of a run. -/
def attempt (operation : Except (Failure D) α) : Eval α D :=
  match operation with
  | .ok a => pure a
  | .error f => fail f

/-- An operation on values as a step of a run. -/
def operate (operation : Except Refusal α) : Eval α D :=
  match operation with
  | .ok a => pure a
  | .error (.fault f) => throw (.fault f)
  | .error .tooDeep => throw .tooDeep

/-- Runs `x`, and `handler` where `x` has ended without a result. -/
def rescue (x : Eval α D) (handler : Halt D → Eval α D) : Eval α D := fun m =>
  match x m with
  | .ok a m' => .ok a m'
  | .error halt m' => handler halt m'

/-! ### Environment -/

/-- The environment as it is. -/
def env : Eval (Env D) D := fun m =>
  .ok m.env m

/-- Changes the environment. -/
def changeEnv (f : Env D → Env D) : Eval Unit D := fun m =>
  .ok () { m with env := f m.env }

/-! ### Events -/

/-- Records an event. -/
def emit (e : Event D) : Eval Unit D := fun m =>
  .ok () { m with log := m.log.push e }

/-- Records an event if the run is traced. -/
def trace (h : Host D) (e : Event D) : Eval Unit D :=
  if h.tracing then emit e else pure ()

/-! ### Context -/

/-- Runs `x` in a context: in that of the run, or, if it has none, in a default one that is
dropped afterwards. -/
def inContext (x : Eval α D) : Eval α D := fun m =>
  match m.context with
  | some _ => x m
  | none =>
    match x { m with context := some .default } with
    | .ok a m' => .ok a { m' with context := none }
    | .error halt m' => .error halt { m' with context := none }

/-- Passes a checkpoint of the context, which has to be there. -/
def checkpoint (site : String) : Eval Unit D := fun m =>
  match m.context with
  | none => .error (.fault .wrongType) m
  | some c =>
    match c.checkpoint site D with
    | (none, advanced) => .ok () { m with context := some advanced }
    | (some f, advanced) => .error (.failure ⟨f, none⟩) { m with context := some advanced }

/-- Prints a value where the context, which has to be there, says. Printing yields zero. -/
def print (value : D.Val) : Eval D.Val D := fun m =>
  match m.context with
  | none => .error (.fault .wrongType) m
  | some c => .ok (D.ofInt 0) { m with log := m.log.push (.printed c.sink value) }

/-! ### Step by step

How the steps act on a machine; `Treewalk.Steps` says how they are put together. -/

theorem fail_apply (f : Failure D) (m : Machine D) :
    (fail f : Eval α D) m = .error (.failure ⟨f, none⟩) m := rfl

@[simp]
theorem read_ok (a : α) : (read (.ok a) : Eval α D) = pure a := rfl

@[simp]
theorem read_error (f : Fault) : (read (.error f) : Eval α D) = throw (.fault f) := rfl

@[simp]
theorem operate_ok (a : α) : (operate (.ok a) : Eval α D) = pure a := rfl

theorem trace_apply (h : Host D) (e : Event D) (m : Machine D) :
    trace h e m = .ok () { m with log := if h.tracing then m.log.push e else m.log } := by
  unfold trace
  split <;> rfl

/-- A run that has a context keeps it for its parts. -/
theorem inContext_of_some (x : Eval α D) {m : Machine D} {c : Context} (h : m.context = some c) :
    inContext x m = x m := by
  simp [inContext, h]

/-- A run that gives a value in every context, and leaves the context alone, does so in one that
is set up for it. -/
theorem inContext_eq_ok {x : Eval α D} {a : α} {m : Machine D} {env : Env D} {log : Log D}
    (hx : ∀ context, x { m with context := context } = .ok a ⟨env, context, log⟩) :
    inContext x m = .ok a ⟨env, m.context, log⟩ := by
  unfold inContext
  cases hc : m.context with
  | some c =>
    dsimp only
    rw [← hc]
    exact hx m.context
  | none =>
    dsimp only
    rw [hx]

/-- So does a run that halts in every context. -/
theorem inContext_eq_error {x : Eval α D} {halt : Halt D} {m : Machine D} {env : Env D}
    {log : Log D}
    (hx : ∀ context, x { m with context := context } = .error halt ⟨env, context, log⟩) :
    inContext x m = .error halt ⟨env, m.context, log⟩ := by
  unfold inContext
  cases hc : m.context with
  | some c =>
    dsimp only
    rw [← hc]
    exact hx m.context
  | none =>
    dsimp only
    rw [hx]

/-- A run in a context gives a value in that of the machine, or in a default one that is dropped. -/
theorem inContext_eq_ok_iff {x : Eval α D} {a : α} {m m' : Machine D} :
    inContext x m = .ok a m'
      ↔ ∃ t, x { m with context := some (m.context.getD .default) } = .ok a t
        ∧ m' = { t with context := m.context.bind fun _ => t.context } := by
  obtain ⟨env, context, log⟩ := m
  cases context with
  | some c => simp [inContext, eq_comm]
  | none =>
    cases hx : x ⟨env, some .default, log⟩ <;> simp [inContext, hx, eq_comm, and_assoc]

/-- So does a run that halts. -/
theorem inContext_eq_error_iff {x : Eval α D} {halt : Halt D} {m m' : Machine D} :
    inContext x m = .error halt m'
      ↔ ∃ t, x { m with context := some (m.context.getD .default) } = .error halt t
        ∧ m' = { t with context := m.context.bind fun _ => t.context } := by
  obtain ⟨env, context, log⟩ := m
  cases context with
  | some c => simp [inContext, eq_comm]
  | none =>
    cases hx : x ⟨env, some .default, log⟩ <;> simp [inContext, hx, eq_comm, and_assoc]

theorem checkpoint_of_none {site : String} {m : Machine D} {c : Context}
    (hc : m.context = some c) (h : c.interruption? site D = none) :
    checkpoint site m = .ok () { m with context := some c.advance } := by
  simp [checkpoint, hc, Context.checkpoint, h]

theorem checkpoint_of_some {site : String} {m : Machine D} {c : Context} {f : Failure D}
    (hc : m.context = some c) (h : c.interruption? site D = some f) :
    checkpoint site m
      = .error (.failure ⟨f, none⟩) { m with context := some c.advance } := by
  simp [checkpoint, hc, Context.checkpoint, h]

end Eval

end Treewalk
