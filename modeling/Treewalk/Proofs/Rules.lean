import Treewalk.Proofs.EvalForm

/-!
## The rules of the language

What a node does can be said without saying how it is found out: from an environment it comes to
an `Ending`, a value or a failure together with the environment that is left, the lines that are
printed on the way and the checkpoints that are passed. `Graph.Evaluates` is the relation between
the two, given by rules.

* Parts are evaluated from left to right, and the first failure is that of the whole: nothing is
  undone, and nothing that would come later is done.
* A loop passes a checkpoint before every test of its condition, and a function body before each
  of its statements.
* A call looks at its function and at the number of its arguments before it evaluates any of
  them, and binds the parameters in the one environment that there is.

The rules have no limits, so a node that goes on for ever comes to no ending at all.
-/

namespace Treewalk

/-! ### Phrases and endings -/

/-- What the evaluation of a phrase comes to: an **ending**. -/
structure Ending (α : Type) where
  /-- The value, or the failure that ended the evaluation. -/
  outcome : Except Failure α
  /-- The environment that is left. -/
  env : Env
  /-- The lines that were printed, first line first. -/
  lines : List String
  /-- The number of checkpoints that were passed. -/
  steps : Nat

namespace Ending

variable {α β : Type}

/-- The ending, with lines printed and checkpoints passed before it. -/
def after (lines : List String) (steps : Nat) (e : Ending α) : Ending α :=
  { e with lines := lines ++ e.lines, steps := steps + e.steps }

/-- The ending with its value mapped. -/
def map (f : α → β) (e : Ending α) : Ending β :=
  ⟨f <$> e.outcome, e.env, e.lines, e.steps⟩

end Ending

end Treewalk
