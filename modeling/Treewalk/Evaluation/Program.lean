import Treewalk.Evaluation.Basic

/-!
## Programs

A program is a sequence of statements. They run one after the other on one machine, and the
run gives the list of their values. The first error ends the run: objections and failures
get the index of the statement that was running, nesting beyond the limit becomes a failure
of that statement, and faults pass as they are.

`Entry` lists the ways into the evaluator: a whole program, a node by its tag, a node taken
as one of a given kind whatever its tag says, and the body of a function.
-/

namespace Treewalk

namespace Host

open Eval

variable {D : Domain}

/-! ### Statements -/

/-- What becomes of an end without a result in statement `index`, which is `v`. -/
def blame (h : Host D) (index : Nat) (v : Value) : Halt D → Eval D.Val D
  | .node e => throw (.node (e.atStatement index))
  | .failure e => throw (.failure (e.atStatement index))
  | .tooDeep => do
    let tag ← h.field v "type"
    throw (.failure ⟨.nestedTooDeep h.nesting tag, some index⟩)
  | .fault f => throw (.fault f)
  | .unfinished => throw .unfinished

/-- Runs statement `index`, which is `v`. -/
def runStatement (h : Host D) (index : Nat) (v : Value) : Eval D.Val D :=
  rescue (h.eval h.nesting v) (h.blame index v)

/-- Runs statements, the first of which has index `start`. -/
def runStatements (h : Host D) : Nat → List Value → Eval (List D.Val) D
  | _, [] => pure []
  | start, v :: vs => do
    let x ← h.runStatement start v
    let xs ← h.runStatements (start + 1) vs
    pure (x :: xs)

/-- **Runs a program.** -/
def runProgram (h : Host D) (program : Value) : Eval (List D.Val) D := inContext do
  h.runStatements 0 (← h.items program)

end Host

/-! ### Ways into the evaluator -/

/-- A way into the evaluator. -/
inductive Entry where
  /-- The value is a program. -/
  | program
  /-- The value is a node. -/
  | node
  /-- The value is taken for a node of the given kind. -/
  | ofKind (kind : Kind)
  /-- The value is taken for a function, whose body is run. -/
  | body
deriving DecidableEq, Repr, Inhabited

/-- What a run gives. -/
inductive Result (D : Domain := .integers) where
  /-- The values of the statements of a program. -/
  | values (xs : List D.Val)
  /-- The value of a node. -/
  | value (x : D.Val)
deriving DecidableEq, Inhabited

/-- Evaluates a value by one of the ways into the evaluator. -/
def Host.enter {D : Domain} (h : Host D) (entry : Entry) (v : Value) : Eval (Result D) D :=
  match entry with
  | .program => Result.values <$> h.runProgram v
  | .node => Result.value <$> h.eval h.nesting v
  | .ofKind kind => Result.value <$> h.evalKind (h.eval h.nesting) kind v
  | .body => Result.value <$> h.evalFunction (h.eval h.nesting) v

/-- What is left of a run: a result or the reason for its end, and the machine. -/
structure Outcome (α : Type) (D : Domain := .integers) where
  /-- The result, or why there is none. -/
  result : Except (Halt D) α
  /-- The machine as the run has left it. -/
  machine : Machine D

/-- **Carries out a run** on a machine. -/
def Eval.carryOut {D : Domain} {α : Type} (run : Eval α D) (m : Machine D) : Outcome α D :=
  match run m with
  | .ok a m' => ⟨.ok a, m'⟩
  | .error halt m' => ⟨.error halt, m'⟩

namespace Eval

variable {D : Domain} {α β : Type}

theorem carryOut_eq_ok_iff {run : Eval α D} {a : α} {m m' : Machine D} :
    run.carryOut m = ⟨.ok a, m'⟩ ↔ run m = .ok a m' := by
  unfold carryOut
  cases run m <;> simp

theorem carryOut_eq_error_iff {run : Eval α D} {halt : Halt D} {m m' : Machine D} :
    run.carryOut m = ⟨.error halt, m'⟩ ↔ run m = .error halt m' := by
  unfold carryOut
  cases run m <;> simp

/-- **The second part is carried out where the first has ended with a result.** -/
theorem carryOut_bind (x : Eval α D) (f : α → Eval β D) (m : Machine D) :
    Eval.carryOut (x >>= f) m = match x.carryOut m with
      | ⟨.ok a, m'⟩ => (f a).carryOut m'
      | ⟨.error halt, m'⟩ => ⟨.error halt, m'⟩ := by
  unfold carryOut
  rw [Steps.bind_apply]
  cases x m <;> rfl

/-- A run in a context is carried out in that of the machine, or in a default one that is
dropped. -/
theorem carryOut_inContext (x : Eval α D) (env : Env D) (context : Option Context) (log : Log D) :
    (inContext x).carryOut ⟨env, context, log⟩
      = match x.carryOut ⟨env, some (context.getD .default), log⟩ with
        | ⟨result, m'⟩ => ⟨result, { m' with context := context.bind fun _ => m'.context }⟩ := by
  unfold carryOut inContext
  cases context with
  | some c =>
    dsimp only [Option.getD_some]
    cases x ⟨env, some c, log⟩ <;> rfl
  | none =>
    dsimp only [Option.getD_none]
    cases x ⟨env, some .default, log⟩ <;> rfl

end Eval

end Treewalk
