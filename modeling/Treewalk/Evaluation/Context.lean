import Treewalk.Failure

/-!
## Execution contexts

A context belongs to one run. It says where printed lines go, and it can end the run early:
before every round of a loop and before every statement of a function body the run passes a
checkpoint, where an optional hook is asked whether to go on and an optional budget of
checkpoints is compared with the number passed so far. The hook is asked first.

A hook is the sequence of its answers: the answer to the `i`-th question is `hook i`, and
`true` asks for the end of the run. How often it has been asked is part of the context.

* `interruption?_default`: a context with neither hook nor budget ends no run.
* `steps_advance`: a checkpoint is counted.
-/

namespace Treewalk

/-- Where printed lines go. -/
inductive Sink where
  /-- To standard output, between whatever else is shown there. -/
  | standard
  /-- To a collection of printed lines. -/
  | collector
deriving DecidableEq, Repr, Inhabited

/-- An **execution context**. -/
structure Context where
  /-- Where printed lines go. -/
  sink : Sink := .standard
  /-- The answers of the hook, if there is one. -/
  hook : Option (Nat → Bool) := none
  /-- The number of checkpoints that may be passed, if it is limited. -/
  budget : Option Int := none
  /-- The number of checkpoints reached so far. -/
  steps : Nat := 0
  /-- How often the hook has been asked so far. -/
  polls : Nat := 0

namespace Context

/-- The context that a run has unless it is given another. -/
def default : Context := {}

/-- The context after one more checkpoint. -/
def advance (c : Context) : Context :=
  { c with steps := c.steps + 1, polls := if c.hook.isSome then c.polls + 1 else c.polls }

/-- Does the hook, asked once more, ask for the end of the run? -/
def cancels (c : Context) : Bool :=
  match c.hook with
  | some hook => hook c.polls
  | none => false

/-- Why the run ends at the next checkpoint, if it does. -/
def interruption? (c : Context) (site : String) (D : Domain := .integers) : Option (Failure D) :=
  if c.cancels then some (.cancelled (c.steps + 1) site)
  else
    match c.budget with
    | some budget => if budget < c.steps + 1 then some (.budgetExhausted budget site) else none
    | none => none

/-- **One checkpoint**: the context advances, and the run may have to end. -/
def checkpoint (c : Context) (site : String) (D : Domain := .integers) :
    Option (Failure D) × Context :=
  (c.interruption? site D, c.advance)

/-! ### Laws -/

variable {D : Domain}

theorem interruption?_default (c : Context) (site : String) (hhook : c.hook = none)
    (hbudget : c.budget = none) : c.interruption? site D = none := by
  simp [interruption?, cancels, hhook, hbudget]

/-- What ends a run at a checkpoint is about no name. -/
theorem identifier?_of_interruption? {c : Context} {site : String} {f : Failure D}
    (h : c.interruption? site D = some f) : f.identifier? = none := by
  unfold interruption? at h
  split at h
  · cases h
    rfl
  · split at h
    · split at h
      · cases h
        rfl
      · cases h
    · cases h

@[simp]
theorem steps_advance (c : Context) : c.advance.steps = c.steps + 1 := rfl

@[simp]
theorem budget_advance (c : Context) : c.advance.budget = c.budget := rfl

end Context

end Treewalk
