import Treewalk.Proofs.Congruence
import Treewalk.Proofs.Statements

/-!
## What a run adds to its log

No run looks at its log. It adds events to it, and which ones depends on the environment and on the
context alone, as does everything else that the run does.

* `ignoresLog_steps`: so it is for all steps that nodes take.
* `ignoresLog_eval`, `ignoresLog_runStatement`: so it is for nodes and for statements.
-/

namespace Treewalk

variable {D : Domain}

/-- The log of the machine begins with the given one. -/
def Machine.LogsAfter (log : Log D) (m : Machine D) : Prop :=
  ∃ rest, m.log = log ++ rest

theorem Machine.logsAfter_self (m : Machine D) : m.LogsAfter m.log :=
  ⟨#[], by simp⟩

theorem Machine.LogsAfter.trans {log : Log D} {m m' : Machine D} (hm : m.LogsAfter log)
    (hm' : m'.LogsAfter m.log) : m'.LogsAfter log := by
  obtain ⟨rest, hrest⟩ := hm
  obtain ⟨rest', hrest'⟩ := hm'
  exact ⟨rest ++ rest', by rw [hrest', hrest, Array.append_assoc]⟩

namespace Eval

variable {α β : Type} {x : Eval α D} {f : α → Eval β D}

/-- **The run does not look at the log**, and adds the same events to every log. -/
def IgnoresLog (x : Eval α D) : Prop :=
  ∀ env context, ∃ result env' context' events, ∀ log,
    x.carryOut ⟨env, context, log⟩ = ⟨result, env', context', log ++ events⟩

theorem IgnoresLog.logsAfter (hx : IgnoresLog x) (m : Machine D) :
    (x.carryOut m).machine.LogsAfter m.log := by
  obtain ⟨result, env', context', events, hrun⟩ := hx m.env m.context
  exact ⟨events, by rw [show m = ⟨m.env, m.context, m.log⟩ from rfl, hrun]⟩

/-- What is in the log already makes no difference. -/
theorem IgnoresLog.eq_ok (hx : IgnoresLog x) {env env' : Env D} {context context' : Option Context}
    {log events : Log D} {a : α}
    (hrun : x ⟨env, context, log⟩ = .ok a ⟨env', context', log ++ events⟩) (log' : Log D) :
    x ⟨env, context, log'⟩ = .ok a ⟨env', context', log' ++ events⟩ := by
  obtain ⟨result, env₁, context₁, events₁, hevery⟩ := hx env context
  have hhere := (hevery log).symm.trans (carryOut_eq_ok_iff.mpr hrun)
  simp only [Outcome.mk.injEq, Machine.mk.injEq, Array.append_right_inj] at hhere
  obtain ⟨rfl, rfl, rfl, rfl⟩ := hhere
  exact carryOut_eq_ok_iff.mp (hevery log')

/-- A step that adds nothing to the log. -/
theorem ignoresLog_of_step (hx : ∀ env context, ∃ result env' context', ∀ log,
    x.carryOut ⟨env, context, log⟩ = ⟨result, env', context', log⟩) : IgnoresLog x := by
  intro env context
  obtain ⟨result, env', context', hstep⟩ := hx env context
  exact ⟨result, env', context', #[], fun log => by rw [hstep, Array.append_empty]⟩

theorem IgnoresLog.bind (hx : IgnoresLog x) (hf : ∀ a, IgnoresLog (f a)) :
    IgnoresLog (x >>= f) := by
  intro env context
  obtain ⟨result, env₁, context₁, events, hrun⟩ := hx env context
  cases result with
  | error halt =>
    exact ⟨.error halt, env₁, context₁, events, fun log => by rw [carryOut_bind, hrun]⟩
  | ok a =>
    obtain ⟨result, env₂, context₂, later, hrun'⟩ := hf a env₁ context₁
    refine ⟨result, env₂, context₂, events ++ later, fun log => ?_⟩
    rw [carryOut_bind, hrun, ← Array.append_assoc]
    exact hrun' (log ++ events)

theorem IgnoresLog.inContext (hx : IgnoresLog x) : IgnoresLog (inContext x) := by
  intro env context
  obtain ⟨result, env', context', events, hrun⟩ := hx env (some (context.getD .default))
  exact ⟨result, env', context.bind fun _ => context', events,
    fun log => by rw [carryOut_inContext, hrun]⟩

theorem ignoresLog_checkpoint (site : String) :
    IgnoresLog (checkpoint site : Eval Unit D) := by
  refine ignoresLog_of_step fun env context => ?_
  cases context with
  | none => exact ⟨.error (.fault .wrongType), env, none, fun _ => rfl⟩
  | some c =>
    cases hinterruption : c.interruption? site D with
    | none =>
      refine ⟨.ok (), env, some c.advance, fun log => ?_⟩
      exact carryOut_eq_ok_iff.mpr (checkpoint_of_none rfl hinterruption)
    | some f =>
      refine ⟨.error (.failure ⟨f, none⟩), env, some c.advance, fun log => ?_⟩
      exact carryOut_eq_error_iff.mpr (checkpoint_of_some rfl hinterruption)

theorem ignoresLog_print (value : D.Val) : IgnoresLog (print value) := by
  intro env context
  cases context with
  | none =>
    exact ⟨.error (.fault .wrongType), env, none, #[], fun log => by rw [Array.append_empty]; rfl⟩
  | some c => exact ⟨.ok (D.ofInt 0), env, some c, #[.printed c.sink value], fun _ => rfl⟩

theorem ignoresLog_steps : StepCongruence fun {α : Type} (x _ : Eval α D) => IgnoresLog x where
  pure a := ignoresLog_of_step fun env context => ⟨.ok a, env, context, fun _ => rfl⟩
  throw halt _ := ignoresLog_of_step fun env context => ⟨.error halt, env, context, fun _ => rfl⟩
  bind := .bind
  env := ignoresLog_of_step fun env context => ⟨.ok env, env, context, fun _ => rfl⟩
  changeEnv change :=
    ignoresLog_of_step fun env context => ⟨.ok (), change env, context, fun _ => rfl⟩
  emit e := fun env context => ⟨.ok (), env, context, #[e], fun _ => rfl⟩
  inContext := .inContext
  checkpoint := ignoresLog_checkpoint
  print := ignoresLog_print

end Eval

namespace Host

open Eval

/-- **The evaluation of a node does not look at the log.** -/
theorem ignoresLog_eval (h : Host D) (depth : Nat) (v : Value) : IgnoresLog (h.eval depth v) :=
  eval_congr ignoresLog_steps.congruence h
    (ignoresLog_of_step fun env context => ⟨.error .unfinished, env, context, fun _ => rfl⟩) depth v

theorem ignoresLog_runStatement (h : Host D) (index : Nat) (v : Value) :
    IgnoresLog (h.runStatement index v) := by
  intro env context
  obtain ⟨result, env', context', events, hrun⟩ := h.ignoresLog_eval h.nesting v env context
  exact ⟨result.mapError (h.blamed index v), env', context', events,
    fun log => by rw [carryOut_runStatement, hrun]⟩

end Host

end Treewalk
