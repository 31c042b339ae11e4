import Treewalk.Environment
import Treewalk.Graph.Printer
import Treewalk.Node.Operator

/-!
## Failures of a run

A `Failure` is a reason to end a run that lies in the program and its circumstances, and
not in the form of its nodes: a name without a binding, a call with the wrong number of
arguments, a division by zero, a cancellation, or nesting beyond the limit. Failures about
undefined names carry the environment as it was.

A failure holds the values that it is about, a name above all, which need not be a text:
any value that can serve as a key can be looked up in vain. `Failure.message` words a
failure with the plain forms of these values.

A `RuntimeError` adds the top-level statement that was running. `Arithmetic.compute` is the
operation that can divide by zero.
-/

namespace Treewalk

/-- **Why a run failed.** -/
inductive Failure (D : Domain := .integers) where
  /-- A variable is not bound in `env`. -/
  | undefinedVariable (name : Value) (env : Env D)
  /-- A name has no function in `env`. -/
  | undefinedFunction (name : Value) (env : Env D)
  /-- A function has `expected` parameters and was given `got` arguments. -/
  | arityMismatch (name : Value) (expected got : Int)
  /-- A value was divided by zero. -/
  | divisionByZero (dividend : D.Val)
  /-- The hook asked for the end of the run at the checkpoint with number `steps`. -/
  | cancelled (steps : Nat) (site : String)
  /-- The budget of checkpoints is used up. -/
  | budgetExhausted (budget : Int) (site : String)
  /-- A top-level statement with tag `tag` nests deeper than `limit`. -/
  | nestedTooDeep (limit : Nat) (tag : Value)
deriving DecidableEq, Inhabited

namespace Failure

variable {D : Domain}

/-- The word for the kind of failure. -/
def kind : Failure D → String
  | undefinedVariable _ _ => "UndefinedVariable"
  | undefinedFunction _ _ => "UndefinedFunction"
  | arityMismatch _ _ _ => "ArityMismatch"
  | divisionByZero _ => "ArithmeticError"
  | cancelled _ _ | budgetExhausted _ _ => "Cancelled"
  | nestedTooDeep _ _ => "RecursionLimit"

/-- The wording of a failure. -/
def message (g : Graph) : Failure D → String
  | undefinedVariable name _ => "Undefined variable: " ++ g.plain name
  | undefinedFunction name _ => "Undefined function: " ++ g.plain name
  | arityMismatch name expected got =>
    g.plain name ++ s!" requires {expected} arguments, got {got}"
  | divisionByZero dividend => "Division by zero: " ++ D.text dividend ++ " / 0"
  | cancelled steps _ => s!"Evaluation cancelled after {steps} steps"
  | budgetExhausted budget _ => s!"Step budget of {budget} exhausted"
  | nestedTooDeep limit _ =>
    s!"Evaluation nested deeper than the host recursion limit ({limit})"

/-- The tag of the node at which the run failed. -/
def tag : Failure D → Value
  | undefinedVariable _ _ => .text Kind.lookup.name
  | undefinedFunction _ _ | arityMismatch _ _ _ => .text Kind.call.name
  | divisionByZero _ => .text Kind.arithmetic.name
  | cancelled _ site | budgetExhausted _ site => .text site
  | nestedTooDeep _ tag => tag

/-- The name that the failure is about, if it is about one. -/
def identifier? : Failure D → Option Value
  | undefinedVariable name _ | undefinedFunction name _ | arityMismatch name _ _ => some name
  | _ => none

/-- The environment that the failure shows. -/
def env? : Failure D → Option (Env D)
  | undefinedVariable _ env | undefinedFunction _ env => some env
  | _ => none

/-- A failure that is about no name shows no environment. -/
theorem env?_eq_none_of_identifier? {f : Failure D} (h : f.identifier? = none) : f.env? = none := by
  cases f with
  | undefinedVariable name env | undefinedFunction name env => cases h
  | _ => rfl

/-- A failure that is about no name is worded without looking at the graph. -/
theorem message_eq_of_identifier?_eq_none {f : Failure D} (h : f.identifier? = none)
    (g g' : Graph) : f.message g = f.message g' := by
  cases f with
  | undefinedVariable name env | undefinedFunction name env | arityMismatch name expected got =>
    cases h
  | _ => rfl

end Failure

/-- A failure of a run, with the top-level statement that was running. -/
structure RuntimeError (D : Domain := .integers) where
  /-- The reason. -/
  failure : Failure D
  /-- The index of the statement, if the run had statements. -/
  statement : Option Nat := none
deriving DecidableEq, Inhabited

/-- The error, tagged with the top-level statement that was running. -/
def RuntimeError.atStatement {D : Domain} (e : RuntimeError D) (index : Nat) : RuntimeError D :=
  { e with statement := some index }

/-! ### Operations that fail -/

/-- The result of an arithmetic operator on integers, which has to have one. -/
def Arithmetic.compute (op : Arithmetic) (x y : Int) : Except Failure Int :=
  match op.apply x y with
  | some value => .ok value
  | none => .error (.divisionByZero x)

/-- **An operator fails exactly when it divides by zero**, and the failure shows the
dividend. -/
theorem Arithmetic.compute_eq_error_iff {op : Arithmetic} {x y : Int} {failure : Failure} :
    op.compute x y = .error failure
      ↔ (op = .div ∧ y = 0) ∧ failure = .divisionByZero x := by
  rw [← Arithmetic.apply_eq_none_iff]
  unfold Arithmetic.compute
  cases op.apply x y <;> simp [eq_comm]

end Treewalk
