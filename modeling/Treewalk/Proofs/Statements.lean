import Treewalk.Evaluation.Program
import Treewalk.Proofs.Form

/-!
## How the statements of a program end

A statement that gives no result ends the program, and `Host.blamed` is what its halt becomes:
objections and failures get the index of the statement, nesting beyond the limit becomes a
failure, and everything else passes as it is.

* `runStatement_apply`: a statement is evaluated, and blamed if it halts.
* `runProgram_eq`: a program whose statements can be read runs them one after the other.
* `length_of_runStatements`: a run that gives results gives one for each statement.
-/

namespace Treewalk.Host

open Eval

variable {D : Domain} {h : Host D} {index start : Nat} {v : Value} {form : Form} {m m' : Machine D}

/-- What the halt of statement `index`, which is `v`, becomes. -/
def blamed (h : Host D) (index : Nat) (v : Value) : Halt D → Halt D
  | .node e => .node (e.atStatement index)
  | .failure e => .failure (e.atStatement index)
  | .tooDeep =>
    match h.graph.field v "type" with
    | .ok tag => .failure ⟨.nestedTooDeep h.nesting tag, some index⟩
    | .error f => .fault f
  | .fault f => .fault f
  | .unfinished => .unfinished

theorem blame_apply (halt : Halt D) (m : Machine D) :
    h.blame index v halt m = .error (h.blamed index v halt) m := by
  cases halt with
  | tooDeep =>
    show (h.field v "type" >>= fun tag => _) m = _
    unfold blamed field
    cases h.graph.field v "type" <;> rfl
  | _ => rfl

/-- **A statement is evaluated, and blamed if it halts.** -/
theorem runStatement_apply (index : Nat) (v : Value) (m : Machine D) :
    h.runStatement index v m = match h.eval h.nesting v m with
      | .ok x m' => .ok x m'
      | .error halt m' => .error (h.blamed index v halt) m' := by
  rw [runStatement, rescue]
  cases h.eval h.nesting v m with
  | ok x m' => rfl
  | error halt m' => exact blame_apply halt m'

theorem carryOut_runStatement (index : Nat) (v : Value) (m : Machine D) :
    (h.runStatement index v).carryOut m = match (h.eval h.nesting v).carryOut m with
      | ⟨result, m'⟩ => ⟨result.mapError (h.blamed index v), m'⟩ := by
  unfold carryOut
  rw [runStatement_apply]
  cases h.eval h.nesting v m <;> rfl

theorem blamed_tooDeep (hform : h.graph.HasForm v form) : h.blamed index v .tooDeep
    = .failure ⟨.nestedTooDeep h.nesting (.text form.kind.name), some index⟩ := by
  obtain ⟨payload, hnode, -⟩ := hform
  rw [blamed, Graph.field_type_of_node? hnode]

/-- Only a statement that was not followed to its end leaves the program so. -/
theorem blamed_eq_unfinished_iff {halt : Halt D} :
    h.blamed index v halt = .unfinished ↔ halt = .unfinished := by
  cases halt with
  | tooDeep =>
    rw [blamed]
    cases h.graph.field v "type" <;> simp
  | _ => simp [blamed]

theorem runProgram_eq {program : Value} {statements : List Value}
    (hitems : h.graph.items program = .ok statements) :
    h.runProgram program = inContext (h.runStatements 0 statements) := by
  rw [runProgram, Host.items, hitems, read_ok, pure_bind]

theorem length_of_runStatements {vs : List Value} {xs : List D.Val}
    (hrun : h.runStatements start vs m = .ok xs m') : xs.length = vs.length := by
  induction vs generalizing start xs m with
  | nil =>
    cases hrun
    rfl
  | cons v vs ih =>
    -- a run with results has a result of the first statement and a run of the others
    rw [runStatements, Steps.bind_eq_ok_iff] at hrun
    obtain ⟨x, m₁, -, hrun⟩ := hrun
    rw [Steps.bind_eq_ok_iff] at hrun
    obtain ⟨ys, m₂, hys, hrun⟩ := hrun
    cases hrun
    rw [List.length_cons, List.length_cons, ih hys]

end Treewalk.Host
