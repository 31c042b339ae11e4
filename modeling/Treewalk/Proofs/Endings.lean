import Treewalk.Proofs.Rules

/-!
## Runs that come to an ending

In a context without hook and budget a checkpoint is only counted, so what a run does is told by
an `Ending`: its value or its failure, the environment that it leaves, the lines that it prints
into the sink of the context, and the number of checkpoints. `Eval.Shows` says that a result of a
run tells a given ending.

`Eval.Gives` is the condition under which a run comes to an ending of some sort, from a given
environment and in every such context, unless it gives up. Its rules follow the steps of runs:
`Gives.bind` puts the ending of the first part before that of the second.
-/

namespace Treewalk

/-! ### Lines -/

/-- The line that an event prints, and where to. -/
def Event.printedLine? : Event → Option (Sink × String)
  | .printed sink value => some (sink, printLine value)
  | _ => none

/-- The lines that a run has printed, each with its sink. -/
def Log.printed (log : Log) : List (Sink × String) :=
  log.toList.filterMap Event.printedLine?

@[simp]
theorem Log.printed_append (a b : Log) : Log.printed (a ++ b) = Log.printed a ++ Log.printed b := by
  simp [Log.printed]

/-- The collected lines are those that were printed into the collection. -/
theorem Log.collected_eq (log : Log) : log.collected
    = (log.printed.filter fun line => line.1 = .collector).map Prod.snd := by
  obtain ⟨events⟩ := log
  show events.filterMap Event.collected?
    = ((events.filterMap Event.printedLine?).filter fun line => line.1 = .collector).map Prod.snd
  induction events with
  | nil => rfl
  | cons e events ih =>
    cases e with
    | printed sink value =>
      cases sink with
      | standard => simp [List.filterMap_cons, Event.collected?, Event.printedLine?, ih]
      | collector =>
        simp only [List.filterMap_cons, Event.collected?, Event.printedLine?, ih, decide_true,
          List.filter_cons_of_pos, List.map_cons]
        rfl
    | _ => simpa [List.filterMap_cons, Event.collected?, Event.printedLine?] using ih

/-! ### Contexts that end no run -/

/-- The context has neither hook nor budget. -/
def Context.IsFree (c : Context) : Prop :=
  c.hook = none ∧ c.budget = none

theorem Context.IsFree.advance {c : Context} (h : c.IsFree) :
    c.advance = { c with steps := c.steps + 1 } := by
  simp [Context.advance, h.1]

namespace Eval

variable {α β : Type} {gaveUp : Halt → Prop} {env env' : Env} {x : Eval α} {k : α → Eval β}
  {K : Ending α → Prop} {K' : Ending β → Prop} {lines : List String} {n : Nat}

/-! ### Results that tell an ending -/

/-- The result of a run that has come to the ending, on the machine that it has left. -/
def finish (outcome : Except Failure α) (m : Machine) : EStateM.Result Halt Machine α :=
  match outcome with
  | .ok a => .ok a m
  | .error f => .error (.failure ⟨f, none⟩) m

/-- The result of a run that has started in the context `c` and with the given log **shows** the
ending: the lines are new in the log and have gone where the context says, the checkpoints have
been counted, and otherwise the context is as it was. -/
def Shows (c : Context) (log : Log) (e : Ending α) (result : EStateM.Result Halt Machine α) :
    Prop :=
  ∃ events : Log, events.printed = e.lines.map (c.sink, ·)
    ∧ result = finish e.outcome
      ⟨e.env, some { c with steps := c.steps + e.steps }, log ++ events⟩

/-- From the environment and in any free context, the run **gives** an ending with `K`, or it
gives up. -/
def Gives (gaveUp : Halt → Prop) (env : Env) (x : Eval α) (K : Ending α → Prop) : Prop :=
  ∀ (c : Context) (log : Log), c.IsFree →
    (∃ halt m, x ⟨env, some c, log⟩ = .error halt m ∧ gaveUp halt)
      ∨ ∃ e, K e ∧ Shows c log e (x ⟨env, some c, log⟩)

theorem Gives.weaken {K' : Ending α → Prop} (hx : Gives gaveUp env x K)
    (h : ∀ e, K e → K' e) : Gives gaveUp env x K' := by
  intro c log hc
  rcases hx c log hc with hgave | ⟨e, hK, hshows⟩
  · exact .inl hgave
  · exact .inr ⟨e, h e hK, hshows⟩

/-! ### Two parts -/

/-- **The ending of two parts** is that of the first part if it fails, and otherwise that of the
second, with what the first has printed and counted before it. -/
theorem Gives.bind (hx : Gives gaveUp env x K)
    (hfail : ∀ f env' lines n, K ⟨.error f, env', lines, n⟩ → K' ⟨.error f, env', lines, n⟩)
    (hok : ∀ a env' lines n, K ⟨.ok a, env', lines, n⟩ →
      Gives gaveUp env' (k a) fun e => K' (e.after lines n)) :
    Gives gaveUp env (x >>= k) K' := by
  intro c log hc
  rcases hx c log hc with
    ⟨halt, m, hrun, hgave⟩ | ⟨⟨outcome, env', lines, n⟩, hK, events, hevents, hrun⟩
  · exact .inl ⟨halt, m, Steps.bind_of_error hrun, hgave⟩
  cases outcome with
  | error f =>
    refine .inr ⟨_, hfail f env' lines n hK, events, hevents, ?_⟩
    rw [Steps.bind_of_error hrun]
    rfl
  | ok a =>
    rw [Steps.bind_of_ok hrun]
    -- the second part starts where the first has ended, in a context that is free as well
    rcases hok a env' lines n hK { c with steps := c.steps + n } (log ++ events) hc with
      hgave | ⟨e, hK', events', hevents', hrun'⟩
    · exact .inl hgave
    · refine .inr ⟨e.after lines n, hK', events ++ events', ?_, ?_⟩
      · rw [Log.printed_append, hevents, hevents']
        exact (List.map_append ..).symm
      · rw [hrun', Array.append_assoc, Nat.add_assoc]
        rfl

theorem Gives.map {f : α → β} (hx : Gives gaveUp env x K) (h : ∀ e, K e → K' (e.map f)) :
    Gives gaveUp env (x >>= fun a => Pure.pure (f a)) K' := by
  intro c log hc
  rcases hx c log hc with ⟨halt, m, hrun, hgave⟩ | ⟨e, hK, events, hevents, hrun⟩
  · exact .inl ⟨halt, m, Steps.bind_of_error hrun, hgave⟩
  · refine .inr ⟨e.map f, h e hK, events, hevents, ?_⟩
    rw [Steps.bind_apply, hrun]
    cases e with
    | mk outcome env' lines n => cases outcome <;> rfl

/-- A first part that is known to give a value. -/
theorem Gives.bind_ok {a : α} (hx : Gives gaveUp env x (· = ⟨.ok a, env', lines, n⟩))
    (hk : Gives gaveUp env' (k a) fun e => K' (e.after lines n)) :
    Gives gaveUp env (x >>= k) K' := by
  refine hx.bind (fun f env' lines n heq => nomatch heq) fun a env' lines n heq => ?_
  cases heq
  exact hk

theorem Gives.pure {a : α} (h : K ⟨.ok a, env, [], 0⟩) : Gives gaveUp env (Pure.pure a) K :=
  fun _ _ _ => .inr ⟨_, h, #[], rfl, rfl⟩

theorem Gives.fail {f : Failure} (h : K ⟨.error f, env, [], 0⟩) : Gives gaveUp env (fail f) K :=
  fun _ _ _ => .inr ⟨_, h, #[], rfl, rfl⟩

theorem Gives.throw {halt : Halt} (h : gaveUp halt) : Gives gaveUp env (throw halt) K :=
  fun _ _ _ => .inl ⟨halt, _, rfl, h⟩

theorem Gives.checkpoint {site : String} :
    Gives gaveUp env (checkpoint site) (· = ⟨.ok (), env, [], 1⟩) := by
  intro c log hc
  refine .inr ⟨_, rfl, #[], rfl, ?_⟩
  rw [checkpoint_of_none rfl (Context.interruption?_default c site hc.1 hc.2), hc.advance]
  rfl

theorem Gives.checkpoint_bind {site : String} {k : Unit → Eval α}
    (hk : Gives gaveUp env (k ()) fun e => K (e.after [] 1)) :
    Gives gaveUp env (Eval.checkpoint site >>= k) K :=
  Gives.checkpoint.bind_ok hk

theorem Gives.print {value : Int} {K : Ending Int → Prop}
    (h : K ⟨.ok 0, env, [printLine value], 0⟩) : Gives gaveUp env (print value) K :=
  fun _ _ _ => .inr ⟨_, h, #[.printed _ value], rfl, rfl⟩

theorem Gives.inContext (hx : Gives gaveUp env x K) : Gives gaveUp env (inContext x) K :=
  hx

end Eval

end Treewalk
