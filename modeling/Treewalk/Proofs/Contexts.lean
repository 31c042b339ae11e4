import Treewalk.Proofs.Composition
import Treewalk.Proofs.Endings
import Treewalk.Proofs.Logs
import Treewalk.Proofs.Profile

/-!
## Contexts that end no run

A context without hook and budget passes every checkpoint, so a run does the same in all such
contexts that print to the same sink; only their counters differ. It also does the same without a
context, where its parts set up a default one each and drop it again: a counter that nobody looks
at may as well start anew. What needs a context (checkpoints and printing) stands below a part that
sets one up, and all other steps look at none.

* `Profile.playCuts_of_isFree`, `Profiled.exists_carryOut`: a context without hook and budget
  passes all checkpoints.
* `Does`, `exists_does`: what a run does is known from one run, whatever the log and the counters.
* `needsNoContext_steps`, `Profiled.needsNoContext`: the steps that do without a context, and the
  parts that set one up.
* `enter_without_context`: the law for all ways into the evaluator.
-/

namespace Treewalk

open Eval

variable {D : Domain}

/-! ### Contexts that pass all checkpoints -/

theorem Context.advance_eq (c : Context) : c.advance = c.advanced 1 := by
  rw [← advance_advanced, advanced_zero]

theorem Context.IsFree.advanced {c : Context} (hc : c.IsFree) (n : Nat) : (c.advanced n).IsFree :=
  hc

namespace Profile

variable {α : Type} {next : Context → EStateM.Result (Halt D) (Machine D) α} {cuts : List (Cut D)}
  {c : Context} {a : α} {m : Machine D}

theorem playCuts_of_isFree (next : Context → EStateM.Result (Halt D) (Machine D) α)
    (cuts : List (Cut D)) (hc : c.IsFree) :
    playCuts next cuts c = next (c.advanced cuts.length) := by
  induction cuts generalizing c with
  | nil => rw [playCuts, List.length_nil, Context.advanced_zero]
  | cons cut cuts ih =>
    rw [playCuts, c.interruption?_default cut.site hc.1 hc.2]
    show playCuts next cuts c.advance = _
    rw [c.advance_eq, ih (hc.advanced 1), Context.advanced_advanced, Nat.add_comm,
      List.length_cons]

/-- A run that comes to a result has passed all its checkpoints. -/
theorem next_of_playCuts_eq_ok (hplay : playCuts next cuts c = .ok a m) :
    next (c.advanced cuts.length) = .ok a m := by
  induction cuts generalizing c with
  | nil => rwa [List.length_nil, Context.advanced_zero]
  | cons cut cuts ih =>
    rw [playCuts] at hplay
    split at hplay
    · cases hplay
    · rw [List.length_cons, Nat.add_comm, ← Context.advanced_advanced, ← c.advance_eq]
      exact ih hplay

end Profile

namespace Eval

variable {α β : Type} {x : Eval α D} {f : α → Eval β D} {n k : Nat}

/-- **A run does the same in all contexts without hook and budget** that print to one sink. -/
theorem Profiled.exists_carryOut (hx : Profiled n x) (env : Env D) (log : Log D) (sink : Sink) :
    ∃ result env' log' steps, ∀ c : Context, c.IsFree → c.sink = sink →
      x.carryOut ⟨env, some c, log⟩ = ⟨result, env', some (c.advanced steps), log'⟩ := by
  obtain ⟨p, hplay, -, -⟩ := hx env log sink
  refine ⟨p.result, p.env, p.log, p.cuts.length, fun c hfree hsink => ?_⟩
  rw [carryOut, hplay c hsink, Profile.play, Profile.playCuts_of_isFree p.finish p.cuts hfree,
    Profile.finish]
  cases p.result <;> rfl

/-! ### What a run does -/

/-- **What a run does from an environment**: in every context that prints to the sink, the run
gives `a`, leaves the other environment, passes so many checkpoints, and adds the events to the
log. Of a context with a hook or a budget this is said only if there are no checkpoints. -/
def Does (sink : Sink) (env : Env D) (x : Eval α D) (a : α) (env' : Env D) (steps : Nat)
    (events : Log D) : Prop :=
  ∀ (c : Context) (log : Log D), c.sink = sink → c.IsFree ∨ steps = 0 →
    x ⟨env, some c, log⟩ = .ok a ⟨env', some (c.advanced steps), log ++ events⟩

variable {sink : Sink} {env env' env'' : Env D} {a : α} {b : β} {events later : Log D}
  {m : Machine D} {c : Context} {log : Log D}

theorem Does.bind (hx : Does sink env x a env' n events)
    (hf : Does sink env' (f a) b env'' k later) :
    Does sink env (x >>= f) b env'' (n + k) (events ++ later) := by
  intro c log hsink hpasses
  have hfirst := hx c log hsink (hpasses.imp id fun hnone => by omega)
  have hsecond := hf (c.advanced n) (log ++ events) hsink (hpasses.imp id fun hnone => by omega)
  rw [Steps.bind_of_ok hfirst, hsecond, Context.advanced_advanced, Array.append_assoc]

/-- **A run that has given a result** in some context has done what it does in all of them. -/
theorem exists_does (hlog : IgnoresLog x) (hx : Profiled n x)
    (hrun : x ⟨env, some c, log⟩ = .ok a m) :
    ∃ env' steps events, m = ⟨env', some (c.advanced steps), log ++ events⟩
      ∧ Does c.sink env x a env' steps events := by
  obtain ⟨p, hplay, ⟨⟨events, hevents⟩, -⟩, -⟩ := hx env log c.sink
  have hfinish := Profile.next_of_playCuts_eq_ok ((hplay c rfl).symm.trans hrun)
  cases hresult : p.result with
  | error halt =>
    rw [Profile.finish, hresult] at hfinish
    cases hfinish
  | ok a' =>
    simp only [Profile.finish, hresult, hevents] at hfinish
    cases hfinish
    refine ⟨p.env, p.cuts.length, events, rfl, fun c' log' hsink hpasses => ?_⟩
    refine IgnoresLog.eq_ok hlog (?_ : x ⟨env, some c', log⟩ = _) log'
    rw [hplay c' hsink, Profile.play]
    rcases hpasses with hfree | hnone
    · rw [Profile.playCuts_of_isFree p.finish p.cuts hfree, Profile.finish, hresult, hevents]
    · rw [List.length_eq_zero_iff.mp hnone, Profile.playCuts, Profile.finish, hresult, hevents,
        List.length_nil, Context.advanced_zero]

/-! ### Runs without a context -/

/-- Without a context the run gives what it gives in each context without hook and budget that
prints to standard output, and it leaves the machine without one. -/
def NeedsNoContext (x : Eval α D) : Prop :=
  ∀ env log, ∃ result env' log' steps,
    (∀ c : Context, c.IsFree → c.sink = .standard →
      x.carryOut ⟨env, some c, log⟩ = ⟨result, env', some (c.advanced steps), log'⟩)
    ∧ x.carryOut ⟨env, none, log⟩ = ⟨result, env', none, log'⟩

theorem NeedsNoContext.bind (hx : NeedsNoContext x) (hf : ∀ a, NeedsNoContext (f a)) :
    NeedsNoContext (x >>= f) := by
  intro env log
  obtain ⟨result, env₁, log₁, n, hwith, hwithout⟩ := hx env log
  cases result with
  | error halt =>
    refine ⟨.error halt, env₁, log₁, n, fun c hfree hsink => ?_, ?_⟩
    · rw [carryOut_bind, hwith c hfree hsink]
    · rw [carryOut_bind, hwithout]
  | ok a =>
    -- the second part counts on in the context that the first has left
    obtain ⟨result, env₂, log₂, k, hwith', hwithout'⟩ := hf a env₁ log₁
    refine ⟨result, env₂, log₂, n + k, fun c hfree hsink => ?_, ?_⟩
    · rw [carryOut_bind, hwith c hfree hsink]
      exact (hwith' (c.advanced n) hfree hsink).trans (by rw [Context.advanced_advanced])
    · rw [carryOut_bind, hwithout]
      exact hwithout'

/-- A step that neither looks at the context nor counts in it. -/
theorem needsNoContext_of_step (hx : ∀ env log, ∃ result env' log', ∀ context,
    x.carryOut ⟨env, context, log⟩ = ⟨result, env', context, log'⟩) : NeedsNoContext x := by
  intro env log
  obtain ⟨result, env', log', hstep⟩ := hx env log
  exact ⟨result, env', log', 0, fun c _ _ => by rw [Context.advanced_zero, hstep], hstep none⟩

/-- **A run that sets up its context needs none.** -/
theorem Profiled.needsNoContext (hx : Profiled n x) : NeedsNoContext (Eval.inContext x) := by
  intro env log
  obtain ⟨result, env', log', steps, hfree⟩ := hx.exists_carryOut env log .standard
  refine ⟨result, env', log', steps, hfree, ?_⟩
  rw [carryOut_inContext, Option.getD_none, hfree .default ⟨rfl, rfl⟩ rfl]
  rfl

theorem needsNoContext_steps :
    PlainStepCongruence fun {α : Type} (x _ : Eval α D) => NeedsNoContext x where
  pure a := needsNoContext_of_step fun env log => ⟨.ok a, env, log, fun _ => rfl⟩
  throw halt _ := needsNoContext_of_step fun env log => ⟨.error halt, env, log, fun _ => rfl⟩
  bind := .bind
  env := needsNoContext_of_step fun env log => ⟨.ok env, env, log, fun _ => rfl⟩
  changeEnv change :=
    needsNoContext_of_step fun env log => ⟨.ok (), change env, log, fun _ => rfl⟩
  emit e := needsNoContext_of_step fun env log => ⟨.ok (), env, log.push e, fun _ => rfl⟩

end Eval

namespace Host

/-! ### Nodes and programs -/

variable (h : Host D)

/-- **A node needs no context.** -/
theorem needsNoContext_eval (depth : Nat) (v : Value) : NeedsNoContext (h.eval depth v) := by
  cases depth with
  | zero => exact needsNoContext_steps.throw .tooDeep (by simp)
  | succ depth => exact Profiled.needsNoContext (h.eval_profiled (depth + 1) v)

/-- **A value that is taken for a node of a given kind needs no context.** -/
theorem needsNoContext_evalKind (kind : Kind) (v : Value) :
    NeedsNoContext (h.evalKind (h.eval h.nesting) kind v) := by
  have hcongr := profiled_congruence (D := D) h.rounds
  have hself : ∀ c, h.eval h.nesting c = h.eval h.nesting c
      ∧ Profiled h.rounds (h.eval h.nesting c) := fun c => ⟨rfl, h.eval_profiled h.nesting c⟩
  have hkind : ∀ kind, Profiled h.rounds (h.evalKind (h.eval h.nesting) kind v) := fun kind =>
    (evalKind_congr hcongr h hself h.nesting h.rounds (fun condition body =>
      ⟨rfl, h.iterate_profiled (h.eval_profiled h.nesting) condition body (Nat.le_refl _)⟩)
      kind v).2
  -- loops, printing and bodies set up their contexts, and the other steps look at none
  exact @evalKind_congr_of_parts D _ needsNoContext_steps.plainCongruence h _ (h.eval h.nesting)
    (h.needsNoContext_eval h.nesting) h.nesting h.rounds kind v
    (Profiled.needsNoContext (hkind .loop)) (Profiled.needsNoContext (hkind .print))
    fun body => Profiled.needsNoContext (hcongr.runBody hself h body).2

/-- **Every way into the evaluator needs no context.** -/
theorem needsNoContext_enter (entry : Entry) (v : Value) : NeedsNoContext (h.enter entry v) := by
  have hmap : ∀ {α β : Type} (f : α → β) (x : Eval α D), NeedsNoContext x →
      NeedsNoContext (f <$> x) := by
    intro α β f x hx
    rw [map_eq_pure_bind]
    exact hx.bind fun a => needsNoContext_steps.pure (f a)
  cases entry with
  | program => exact hmap _ _ (Profiled.needsNoContext (h.runProgram_profiled v))
  | node => exact hmap _ _ (h.needsNoContext_eval h.nesting v)
  | ofKind kind => exact hmap _ _ (h.needsNoContext_evalKind kind v)
  | body => exact hmap _ _ (h.needsNoContext_evalKind .function v)

/-- **Leaving out the context is the same as passing a default one.** Take any way into the
evaluator, any value, also a malformed one, and any environment, over any domain of values, traced
or not and under any limits. Without a context the run gives the same result or the same error as in
a fresh default context, and it leaves the same environment and has shown the same events, though
without one its parts may set up contexts of their own. It leaves the machine without a context; in
the default one nothing but the number of checkpoints is changed. -/
theorem enter_without_context (h : Host D) (entry : Entry) (v : Value) (env : Env D) (log : Log D) :
    ∃ result env' log' steps,
      (h.enter entry v).carryOut ⟨env, none, log⟩ = ⟨result, env', none, log'⟩
      ∧ (h.enter entry v).carryOut ⟨env, some .default, log⟩
        = ⟨result, env', some { Context.default with steps := steps }, log'⟩ := by
  obtain ⟨result, env', log', steps, hwith, hwithout⟩ := h.needsNoContext_enter entry v env log
  refine ⟨result, env', log', steps, hwithout, ?_⟩
  rw [hwith .default ⟨rfl, rfl⟩ rfl]
  simp [Context.advanced, Context.default]

end Host

end Treewalk
