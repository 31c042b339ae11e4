import Treewalk.Proofs.Building
import Treewalk.Proofs.Contexts
import Treewalk.Proofs.Expressions

/-!
## Loops that count down

A loop that takes one from a variable at the end of its body, and goes on as long as the variable
is positive, takes as many rounds as the variable says, whatever else the body does: it has only to
leave the variable alone. Each round passes one checkpoint, and so does the last test, which fails;
so a budget of checkpoints that is no greater than the number of rounds ends the loop after as many
rounds as there are checkpoints to pass.

* `gives_countdown`: building such a loop succeeds.
* `TakesRounds`: what some rounds of a loop do, beside what its nodes do without the loop.
* `exists_takesRounds`: a countdown takes the rounds that the variable says.
* `eval_countdown`: the law, without a budget and with one.
-/

namespace Treewalk

open Eval

/-! ### Building a countdown -/

/-- Takes one from a variable. -/
def Build.decrement (name : String) : Build Value := do
  let difference ← arithmetic .sub (← lookup (.text name)) (← number (.int 1))
  assignment (.text name) difference

/-- A loop that evaluates `body` and then takes one from a variable, as long as the variable is
positive. The node that takes one from it is given beside the loop. -/
def Build.countdown (name : String) (body : List Value) : Build (Value × Value) := do
  let condition ← comparison .gt (← lookup (.text name)) (← number (.int 0))
  let step ← decrement name
  let loop ← loop condition (← add (.list (body ++ [step])))
  pure (loop, step)

namespace Graph

variable {g g' : Graph} {v loop step condition : Value} {form : Form} {name : String}
  {body : List Value} {expr : Expression}

/-- The node spells that one is taken from the variable. -/
def Decrements (g : Graph) (name : String) (step : Value) : Prop :=
  ∃ difference, g.HasForm step (.assignment name difference)
    ∧ g.Spells difference (.arithmetic .sub (.lookup name) (.number 1))

/-- The node spells that the variable is positive. -/
def AsksForMore (g : Graph) (name : String) (condition : Value) : Prop :=
  g.Spells condition (.comparison .gt (.lookup name) (.number 0))

/-- Label and children say what a node is, unless it is a definition. -/
theorem hasForm_of_hasParts (h : g.HasParts v form.label form.children)
    (hkind : form.kind ≠ .definition) : g.HasForm v form := by
  obtain ⟨form', hform, hlabel, hchildren⟩ := h
  suffices form' = form by rwa [← this]
  cases form <;> cases form' <;> cases hlabel <;> simp_all [Form.children, Form.kind]

theorem Spells.transfer (hgrow : g.GrowsTo g') (h : g.Spells v expr) : g'.Spells v expr := by
  induction h with
  | number hform => exact .number (hform.transfer hgrow)
  | lookup hform => exact .lookup (hform.transfer hgrow)
  | arithmetic hform _ _ ihleft ihright => exact .arithmetic (hform.transfer hgrow) ihleft ihright
  | comparison hform _ _ ihleft ihright => exact .comparison (hform.transfer hgrow) ihleft ihright

theorem Decrements.transfer (hgrow : g.GrowsTo g') (h : g.Decrements name step) :
    g'.Decrements name step := by
  obtain ⟨difference, hform, hspells⟩ := h
  exact ⟨difference, hform.transfer hgrow, hspells.transfer hgrow⟩

theorem Spells.isNode (h : g.Spells v expr) : g.isNode v = true := by
  cases h <;> exact isNode_of_hasForm ‹_›

end Graph

namespace Build

variable {g : Graph} {name : String} {body : List Value} {v w : Value} {left right : Expression}

theorem gives_form (form : Form) {r : Request} (h : r.Fits g form.label form.children)
    (hkind : form.kind ≠ .definition) : Gives r.build g fun v g' => g'.HasForm v form :=
  (build_of_fits h).imp fun _ _ _ hparts => Graph.hasForm_of_hasParts hparts hkind

theorem gives_lookup (hname : name ≠ "") :
    Gives (lookup (.text name)) g fun v g' => g'.Spells v (.lookup name) :=
  (gives_form (.lookup name) (.lookup hname) nofun).imp fun _ _ _ hform => .lookup hform

theorem gives_number (n : Int) :
    Gives (number (.int n)) g fun v g' => g'.Spells v (.number n) :=
  (gives_form (.number n) (.number n) nofun).imp fun _ _ _ hform => .number hform

theorem gives_arithmetic (op : Arithmetic) (hv : g.Spells v left) (hw : g.Spells w right) :
    Gives (arithmetic op v w) g fun u g' => g'.Spells u (.arithmetic op left right) :=
  (gives_form (.arithmetic op v w) (.arithmetic op hv.isNode hw.isNode) nofun).imp
    fun _ _ hgrow hform => .arithmetic hform (hv.transfer hgrow) (hw.transfer hgrow)

theorem gives_comparison (op : Comparison) (hv : g.Spells v left) (hw : g.Spells w right) :
    Gives (comparison op v w) g fun u g' => g'.Spells u (.comparison op left right) :=
  (gives_form (.comparison op v w) (.comparison op hv.isNode hw.isNode) nofun).imp
    fun _ _ hgrow hform => .comparison hform (hv.transfer hgrow) (hw.transfer hgrow)

theorem gives_decrement (hname : name ≠ "") :
    Gives (decrement name) g fun step g' => g'.Decrements name step := by
  refine (gives_lookup hname).bind fun x g₁ _ hx => ?_
  refine (gives_number 1).bind fun one g₂ hgrow hone => ?_
  refine (gives_arithmetic .sub (hx.transfer hgrow) hone).bind fun difference g₃ _ hspells => ?_
  refine (gives_form (.assignment name difference) (.assignment hname hspells.isNode) nofun).imp
    fun step g₄ hgrow' hform => ?_
  exact ⟨difference, hform, hspells.transfer hgrow'⟩

/-- **Nodes can be made into a countdown.** -/
theorem gives_countdown (hname : name ≠ "") (hbody : ∀ b ∈ body, g.isNode b = true) :
    Gives (countdown name body) g fun nodes g' => ∃ condition,
      g'.HasForm nodes.1 (.loop condition (body ++ [nodes.2])) ∧ g'.AsksForMore name condition
        ∧ g'.Decrements name nodes.2 := by
  refine (gives_lookup hname).bind fun x g₁ hgrow₁ hx => ?_
  refine (gives_number 0).bind fun zero g₂ hgrow₂ hzero => ?_
  refine (gives_comparison .gt (hx.transfer hgrow₂) hzero).bind fun condition g₃ hgrow₃ hasks => ?_
  refine (gives_decrement hname).bind fun step g₄ hgrow₄ hstep => ?_
  refine (gives_addSequence (.inl rfl)).bind fun nodes g₅ hgrow₅ hnodes => ?_
  -- the nodes of the body are still there
  have hgrow : g.GrowsTo g₅ :=
    hgrow₁.trans (hgrow₂.trans (hgrow₃.trans (hgrow₄.trans hgrow₅)))
  have hgives : g₅.GivesNodes nodes (body ++ [step]) := by
    refine ⟨hnodes.2, fun c hc => ?_⟩
    rcases List.mem_append.mp hc with hc | hc
    · exact hgrow.isNode (hbody c hc)
    · obtain ⟨difference, hform, -⟩ := hstep.transfer hgrow₅
      rw [List.mem_singleton.mp hc]
      exact Graph.isNode_of_hasForm hform
  have hasks' := hasks.transfer (hgrow₄.trans hgrow₅)
  refine (gives_form (.loop condition (body ++ [step])) (.loop hasks'.isNode hgives) nofun).bind
    fun loop g₆ hgrow₆ hloop => ?_
  exact gives_pure ⟨condition, hloop, hasks'.transfer hgrow₆,
    hstep.transfer (hgrow₅.trans hgrow₆)⟩

end Build

/-! ### Nodes that are evaluated again and again -/

/-- Evaluates nodes from left to right, all of them so many times. -/
def Host.evalTimes (self : Value → Eval Int) (vs : List Value) : Nat → Eval Unit
  | 0 => pure ()
  | k + 1 => do
    evalEach self vs
    evalTimes self vs k

/-- In each of the first `k` rounds of the nodes, as far as they are reached, the first part of the
nodes comes to its end, and what `kept` says holds of the machines before and after that. -/
def Host.RoundsKeep (self : Value → Eval Int) (body rest : List Value)
    (kept : Machine → Machine → Prop) (k : Nat) (m : Machine) : Prop :=
  ∀ i < k, ∀ t, evalTimes self (body ++ rest) i m = .ok () t →
    ∃ t', evalEach self body t = .ok () t' ∧ kept t t'

/-- The events of a log but for visits of nodes. -/
def Log.withoutVisits (log : Log) : List Event :=
  log.toList.filter fun event => !(event matches .visited _)

theorem Log.withoutVisits_append (a b : Log) :
    Log.withoutVisits (a ++ b) = Log.withoutVisits a ++ Log.withoutVisits b := by
  simp [Log.withoutVisits]

theorem Eval.OnlyVisits.withoutVisits {tracing : Bool} {events : Log}
    (h : OnlyVisits tracing events) : Log.withoutVisits events = [] := by
  refine List.filter_eq_nil_iff.mpr fun event hevent => ?_
  obtain ⟨tag, rfl⟩ := h.1 event (Array.mem_toList_iff.mp hevent)
  simp

/-- A log is like another one if it shows the same but for visits of nodes; without tracing it is
the same. -/
def Log.IsLike (tracing : Bool) (shown log : Log) : Prop :=
  Log.withoutVisits shown = Log.withoutVisits log ∧ (tracing = false → shown = log)

theorem Context.advanced_eq_self_iff {c : Context} {n : Nat} : c.advanced n = c ↔ n = 0 := by
  constructor
  · intro h
    simpa [advanced] using congrArg Context.steps h
  · rintro rfl
    exact c.advanced_zero

/-- The context passes the checkpoints of the next `k` rounds of a loop. -/
def Context.Passes (c : Context) (k : Nat) : Prop :=
  ∀ i < k, (c.advanced i).interruption? Kind.loop.name = none

/-- A budget covers as many checkpoints as it says. -/
theorem Context.passes_of_le {sink : Sink} {budget k : Nat} (h : k ≤ budget) :
    ({ sink := sink, budget := some budget } : Context).Passes k := by
  intro i hi
  have hcovers : ¬ ((budget : Int) < (i : Int) + 1) := by omega
  simp [Context.advanced, interruption?, cancels, hcovers]

/-- The one after that it does not cover. -/
theorem Context.interruption?_of_budget (sink : Sink) (budget : Nat) :
    (({ sink := sink, budget := some budget } : Context).advanced budget).interruption?
      Kind.loop.name = some (.budgetExhausted budget Kind.loop.name) := by
  have hover : (budget : Int) < (budget : Int) + 1 := by omega
  simp [Context.advanced, interruption?, cancels, hover]

theorem Context.IsFree.advanced_eq {c : Context} (hc : c.IsFree) (n : Nat) :
    c.advanced n = { c with steps := c.steps + n } := by
  simp [Context.advanced, hc.1]

theorem Context.Passes.advanced {c : Context} {k n : Nat} (h : c.Passes (n + k)) :
    (c.advanced n).Passes k := by
  intro i hi
  rw [advanced_advanced]
  exact h (n + i) (by omega)

namespace Host

variable {h : Host} {depth k n n' : Nat} {name : String} {condition step : Value}
  {body nodes vs ws : List Value} {sink : Sink} {env env' env'' : Env} {c : Context} {N x : Int}
  {events later shown visits : Log} {t t' m : Machine} {self : Value → Eval Int}

theorem evalEach_append (self : Value → Eval Int) (vs ws : List Value) :
    evalEach self (vs ++ ws) = evalEach self vs >>= fun _ => evalEach self ws := by
  induction vs with
  | nil => simp [evalEach]
  | cons v vs ih => simp [evalEach, ih]

theorem exists_does_evalEach {log : Log}
    (hrun : evalEach (h.eval depth) vs ⟨env, some c, log⟩ = .ok () m) :
    ∃ env' n events, m = ⟨env', some (c.advanced n), log ++ events⟩
      ∧ Does c.sink env (evalEach (h.eval depth) vs) () env' n events := by
  have hlog := @PlainCongruence.evalEach _ _ ignoresLog_steps.plainCongruence _ (h.eval depth)
    (h.ignoresLog_eval depth) vs
  have hprofiled := (profiled_congruence h.rounds).evalEach
    (fun v => ⟨rfl, h.eval_profiled depth v⟩) vs
  exact exists_does hlog hprofiled.2 hrun

/-! ### The test and the decrement -/

theorem exists_does_of_computes {x : Eval Int} {a : Int} (hlog : IgnoresLog x) (sink : Sink)
    (hx : Computes h.tracing env x (.ok a)) :
    ∃ visits, OnlyVisits h.tracing visits ∧ Does sink env x a env 0 visits := by
  obtain ⟨visits, hvisits, hrun⟩ := hx #[]
  refine ⟨visits, hvisits, fun c log _ _ => ?_⟩
  rw [Context.advanced_zero]
  exact hlog.eq_ok (hrun (some c)) log

/-- **The test only looks**, and finds out whether the variable is positive. -/
theorem does_condition (hcondition : h.graph.AsksForMore name condition) (hdepth : 2 ≤ depth)
    (sink : Sink) (hvalue : env.value? name = some N) :
    ∃ visits, OnlyVisits h.tracing visits
      ∧ Does sink env (h.eval depth condition) (if 0 < N then 1 else 0) env 0 visits := by
  refine exists_does_of_computes (h.ignoresLog_eval depth condition) sink ?_
  have hanswer : (Expression.comparison .gt (.lookup name) (.number 0)).value env
      = .ok (if 0 < N then 1 else 0) := by
    simp [Expression.value, hvalue, bind, Except.bind, pure, Except.pure, Comparison.apply,
      Comparison.holds]
  rw [← hanswer]
  exact eval_of_spells hcondition (by simpa [Expression.height] using hdepth)

/-- **The decrement** takes one from the variable, and does nothing else to the environment. -/
theorem eval_decrement (hstep : h.graph.Decrements name step) (hdepth : 3 ≤ depth)
    (hvalue : t.env.value? name = some N) :
    ∃ log, h.eval depth step t = .ok (N - 1) ⟨t.env.setVariable name (N - 1), t.context, log⟩ := by
  obtain ⟨difference, hform, hspells⟩ := hstep
  obtain ⟨depth, rfl⟩ : ∃ d, depth = d + 1 := ⟨depth - 1, by omega⟩
  have hdifference : (Expression.arithmetic .sub (.lookup name) (.number 1)).value t.env
      = .ok (N - 1) := by
    simp [Expression.value, hvalue, bind, Except.bind, Arithmetic.compute, Arithmetic.apply]
  have hcomputes : Computes h.tracing t.env (h.eval depth difference) _ :=
    eval_of_spells hspells (by simp [Expression.height]; omega)
  obtain ⟨visits, -, hrun⟩ :=
    hcomputes (if h.tracing then t.log.push (.visited Kind.assignment.name) else t.log)
  rw [hdifference] at hrun
  -- the log is that of the visits, and of the assignment after them
  refine ⟨if h.tracing then (t.log.push (.visited Kind.assignment.name) ++ visits).push
    (.assigned name (N - 1)) else t.log ++ visits, ?_⟩
  rw [eval_succ, evalNode_of_hasForm hform]
  refine inContext_eq_ok fun context => ?_
  refine (Steps.bind_of_ok (trace_apply h _ _)).trans ((Steps.bind_of_ok (hrun context)).trans ?_)
  refine (Steps.bind_of_ok rfl).trans ((Steps.bind_of_ok (trace_apply h _ _)).trans ?_)
  cases h.tracing <;> rfl

/-- **One round of a countdown** does what the body does, and takes one from the variable. -/
theorem exists_does_round (hstep : h.graph.Decrements name step) (hdepth : 3 ≤ depth) {log : Log}
    (hvalue : env.value? name = some N)
    (hbody : evalEach (h.eval depth) body ⟨env, some c, log⟩ = .ok () t)
    (hkept : t.env.value? name = env.value? name) :
    ∃ env' n events, Does c.sink env (evalEach (h.eval depth) (body ++ [step])) () env' n events
      ∧ env'.value? name = some (N - 1) ∧ t.context = some (c.advanced n)
      ∧ evalEach (h.eval depth) (body ++ [step]) ⟨env, some c, log⟩
        = .ok () ⟨env', some (c.advanced n), log ++ events⟩ := by
  obtain ⟨log', hrun⟩ := eval_decrement hstep hdepth (hkept.trans hvalue)
  have hround : evalEach (h.eval depth) (body ++ [step]) ⟨env, some c, log⟩
      = .ok () ⟨t.env.setVariable name (N - 1), t.context, log'⟩ := by
    rw [evalEach_append, Steps.bind_of_ok hbody, evalEach, Steps.bind_of_ok hrun]
    rfl
  obtain ⟨env', n, events, hleft, hdoes⟩ := exists_does_evalEach hround
  rw [hleft] at hround
  simp only [Machine.mk.injEq] at hleft
  obtain ⟨rfl, hcontext, -⟩ := hleft
  exact ⟨_, n, events, hdoes, by rw [Env.value?_setVariable, if_pos rfl], hcontext, hround⟩

/-! ### Rounds of a loop -/

/-- **What `k` rounds of a loop do**: they evaluate the nodes `k` times, and besides they pass `k`
checkpoints and show the nodes of the test. -/
structure TakesRounds (h : Host) (depth : Nat) (condition : Value) (nodes : List Value)
    (sink : Sink) (k : Nat) (env env' : Env) (n : Nat) (events shown : Log) : Prop where
  times : Does sink env (evalTimes (h.eval depth) nodes k) () env' n events
  loop : ∀ (c : Context) (log : Log) (rounds : Nat), c.sink = sink → c.IsFree ∨ n = 0 ∧ c.Passes k →
    evalRounds (h.eval depth) condition nodes (k + rounds) ⟨env, some c, log⟩
      = evalRounds (h.eval depth) condition nodes rounds
        ⟨env', some (c.advanced (n + k)), log ++ shown⟩
  deeds : Log.withoutVisits shown = Log.withoutVisits events
  untraced : h.tracing = false → shown = events

theorem takesRounds_zero : h.TakesRounds depth condition nodes sink 0 env env 0 #[] #[] where
  times c log _ _ := by
    rw [Context.advanced_zero, Array.append_empty]
    rfl
  loop c log rounds _ _ := by
    rw [Context.advanced_zero, Array.append_empty, Nat.zero_add]
  deeds := rfl
  untraced _ := rfl

/-- **One more round**, at the beginning. -/
theorem TakesRounds.succ (hcondition : Does sink env (h.eval depth condition) x env 0 visits)
    (hx : x ≠ 0) (hvisits : OnlyVisits h.tracing visits)
    (hround : Does sink env (evalEach (h.eval depth) nodes) () env' n events)
    (hrest : h.TakesRounds depth condition nodes sink k env' env'' n' later shown) :
    h.TakesRounds depth condition nodes sink (k + 1) env env'' (n + n') (events ++ later)
      (visits ++ events ++ shown) where
  times := hround.bind hrest.times
  loop c log rounds hsink hpasses := by
    have hnone : c.interruption? Kind.loop.name = none := by
      rcases hpasses with hfree | ⟨-, hpasses⟩
      · exact c.interruption?_default _ hfree.1 hfree.2
      · exact c.advanced_zero ▸ hpasses 0 (Nat.succ_pos k)
    have htest := hcondition (c.advanced 1) log hsink (.inr rfl)
    rw [Context.advanced_zero] at htest
    have hnodes := hround (c.advanced 1) (log ++ visits) hsink
      (hpasses.imp (Context.IsFree.advanced · 1) fun hpasses => by omega)
    rw [Nat.add_right_comm, evalRounds, Steps.bind_of_ok (checkpoint_of_none rfl hnone),
      c.advance_eq, Steps.bind_of_ok htest]
    simp only [if_neg hx]
    -- the context passes the checkpoints of the rounds that are left
    have hpasses' : (c.advanced (1 + n)).IsFree
        ∨ n' = 0 ∧ (c.advanced (1 + n)).Passes k := by
      rcases hpasses with hfree | ⟨hzero, hpasses⟩
      · exact .inl (hfree.advanced _)
      · refine .inr ⟨by omega, Context.Passes.advanced ?_⟩
        rwa [show 1 + n + k = k + 1 by omega]
    rw [Steps.bind_of_ok hnodes, Context.advanced_advanced, hrest.loop (c.advanced (1 + n)) _
      rounds hsink hpasses',
      Context.advanced_advanced, show 1 + n + (n' + k) = n + n' + (k + 1) by omega]
    simp only [Array.append_assoc]
  deeds := by
    rw [Log.withoutVisits_append, Log.withoutVisits_append, Log.withoutVisits_append,
      hvisits.withoutVisits, hrest.deeds, List.nil_append]
  untraced hquiet := by
    rw [hvisits.2 hquiet, hrest.untraced hquiet, Array.empty_append]

/-- **A countdown takes the rounds that the variable says**, as long as the body leaves the
variable alone. If the body leaves the context alone as well, then no checkpoints are passed but
those of the rounds. -/
theorem exists_takesRounds {kept : Machine → Machine → Prop} {log : Log}
    (hcondition : h.graph.AsksForMore name condition) (hstep : h.graph.Decrements name step)
    (hdepth : 3 ≤ depth) (hkept : ∀ t t', kept t t' → t'.env.value? name = t.env.value? name)
    (hvalue : env.value? name = some N) (hle : (k : Int) ≤ max N 0)
    (hbody : RoundsKeep (h.eval depth) body [step] kept k ⟨env, some c, log⟩) :
    ∃ env' n events shown,
      h.TakesRounds depth condition (body ++ [step]) c.sink k env env' n events shown
      ∧ env'.value? name = some (N - k)
      ∧ ((∀ t t', kept t t' → t'.context = t.context) → n = 0) := by
  induction k generalizing env c log N with
  | zero => exact ⟨env, 0, #[], #[], takesRounds_zero, by simpa using hvalue, fun _ => rfl⟩
  | succ k ih =>
    have hpositive : 0 < N := by omega
    obtain ⟨visits, hvisits, htest⟩ :=
      does_condition hcondition (show 2 ≤ depth by omega) c.sink hvalue
    rw [if_pos hpositive] at htest
    obtain ⟨t, hrun, hround⟩ := hbody 0 (Nat.succ_pos k) _ rfl
    obtain ⟨env₁, n₁, events, hnodes, hvalue₁, hcontext, hfirst⟩ :=
      exists_does_round hstep hdepth hvalue hrun (hkept _ _ hround)
    -- what is reached later on is reached from the machine that the first round leaves
    have hlater : RoundsKeep (h.eval depth) body [step] kept k
        ⟨env₁, some (c.advanced n₁), log ++ events⟩ := by
      intro i hi t ht
      exact hbody (i + 1) (by omega) t (by rw [evalTimes, Steps.bind_of_ok hfirst, ht])
    obtain ⟨env', n, later, shown, htakes, hvalue', hnone⟩ := ih hvalue₁ (by omega) hlater
    refine ⟨env', n₁ + n, _, _, htakes.succ htest (by decide) hvisits hnodes, ?_,
      fun hcontexts => ?_⟩
    · rw [hvalue']
      congr 1
      omega
    · have hsame := hcontext.symm.trans (hcontexts _ _ hround)
      rw [Context.advanced_eq_self_iff.mp (Option.some.inj hsame), hnone hcontexts]

/-! ### The end of a loop -/

/-- A loop ends where the test fails. -/
theorem evalRounds_of_failed (htest : Does sink env (h.eval depth condition) 0 env 0 visits)
    (c : Context) (hsink : c.sink = sink) (hpasses : c.interruption? Kind.loop.name = none)
    (log : Log) (rounds : Nat) :
    evalRounds (h.eval depth) condition nodes (rounds + 1) ⟨env, some c, log⟩
      = .ok 0 ⟨env, some (c.advanced 1), log ++ visits⟩ := by
  have hrun := htest (c.advanced 1) log hsink (.inr rfl)
  rw [Context.advanced_zero] at hrun
  rw [evalRounds, Steps.bind_of_ok (checkpoint_of_none rfl hpasses), c.advance_eq,
    Steps.bind_of_ok hrun, if_pos rfl]
  rfl

/-- A loop is cut where the context does not pass a checkpoint. -/
theorem evalRounds_of_interruption {f : Failure} (hcut : c.interruption? Kind.loop.name = some f)
    (env : Env) (log : Log) (rounds : Nat) :
    evalRounds (h.eval depth) condition nodes (rounds + 1) ⟨env, some c, log⟩
      = .error (.failure ⟨f, none⟩) ⟨env, some (c.advanced 1), log⟩ := by
  rw [evalRounds, Steps.bind_of_error (checkpoint_of_some rfl hcut), c.advance_eq]

theorem eval_loop {loop : Value} (hloop : h.graph.HasForm loop (.loop condition nodes))
    (env : Env) (c : Context) (log : Log) :
    h.eval (depth + 1) loop ⟨env, some c, log⟩
      = evalRounds (h.eval depth) condition nodes h.rounds
        ⟨env, some c, if h.tracing then log.push (.visited Kind.loop.name) else log⟩ := by
  rw [eval_succ, evalNode_of_hasForm hloop, inContext_of_some _ rfl,
    Steps.bind_of_ok (trace_apply h _ _)]
  rfl

theorem TakesRounds.isLike
    (htakes : h.TakesRounds depth condition nodes sink k env env' n events shown)
    (hvisits : OnlyVisits h.tracing visits) (log : Log) :
    Log.IsLike h.tracing
      ((if h.tracing then log.push (.visited Kind.loop.name) else log) ++ shown ++ visits)
      (log ++ events) := by
  constructor
  · have hloop : Log.withoutVisits (if h.tracing then log.push (.visited Kind.loop.name) else log)
        = Log.withoutVisits log := by
      cases h.tracing <;> simp [Log.withoutVisits]
    rw [Log.withoutVisits_append, Log.withoutVisits_append, Log.withoutVisits_append, hloop,
      htakes.deeds, hvisits.withoutVisits, List.append_nil]
  · intro hquiet
    simp [hquiet, htakes.untraced hquiet, hvisits.2 hquiet]

/-- **A loop whose rounds are over** gives zero, after one more checkpoint. -/
theorem eval_of_takesRounds {loop : Value} (hloop : h.graph.HasForm loop (.loop condition nodes))
    (htakes : h.TakesRounds depth condition nodes sink k env env' n events shown)
    (htest : Does sink env' (h.eval depth condition) 0 env' 0 visits) (hrounds : k < h.rounds)
    (c : Context) (hsink : c.sink = sink) (hpasses : c.IsFree ∨ n = 0 ∧ c.Passes (k + 1))
    (log : Log) :
    h.eval (depth + 1) loop ⟨env, some c, log⟩
      = .ok 0 ⟨env', some (c.advanced (n + k + 1)),
        (if h.tracing then log.push (.visited Kind.loop.name) else log) ++ shown ++ visits⟩ := by
  have hnone : (c.advanced (n + k)).interruption? Kind.loop.name = none := by
    rcases hpasses with hfree | ⟨rfl, hpasses⟩
    · exact Context.interruption?_default _ _ hfree.1 hfree.2
    · rw [Nat.zero_add]
      exact hpasses k (Nat.lt_succ_self k)
  obtain ⟨rounds, hrest⟩ : ∃ rounds, h.rounds = k + (rounds + 1) := ⟨h.rounds - k - 1, by omega⟩
  rw [eval_loop hloop, hrest, htakes.loop c _ (rounds + 1) hsink
    (hpasses.imp id fun hpasses => ⟨hpasses.1, fun i hi => hpasses.2 i (by omega)⟩)]
  exact (evalRounds_of_failed htest (c.advanced (n + k)) hsink hnone _ rounds).trans
    (by rw [Context.advanced_advanced])

/-- **A loop that is cut** leaves what its rounds have left. -/
theorem eval_of_cut {loop : Value} {f : Failure}
    (hloop : h.graph.HasForm loop (.loop condition nodes))
    (htakes : h.TakesRounds depth condition nodes sink k env env' 0 events shown)
    (hrounds : k < h.rounds) (hsink : c.sink = sink) (hpasses : c.Passes k)
    (hcut : (c.advanced k).interruption? Kind.loop.name = some f) (log : Log) :
    h.eval (depth + 1) loop ⟨env, some c, log⟩
      = .error (.failure ⟨f, none⟩) ⟨env', some (c.advanced (k + 1)),
        (if h.tracing then log.push (.visited Kind.loop.name) else log) ++ shown⟩ := by
  obtain ⟨rounds, hrest⟩ : ∃ rounds, h.rounds = k + (rounds + 1) := ⟨h.rounds - k - 1, by omega⟩
  rw [eval_loop hloop, hrest, htakes.loop c _ (rounds + 1) hsink (.inr ⟨rfl, hpasses⟩),
    Nat.zero_add, evalRounds_of_interruption hcut, Context.advanced_advanced]

/-! ### The law -/

variable {loop : Value} {log : Log}

/-- A countdown in a context without hook and budget. -/
theorem exists_eval_of_isFree (hloop : h.graph.HasForm loop (.loop condition (body ++ [step])))
    (hcondition : h.graph.AsksForMore name condition) (hstep : h.graph.Decrements name step)
    (hdepth : 3 ≤ depth) (hrounds : N.toNat < h.rounds) (hvalue : env.value? name = some N)
    (hfree : c.IsFree)
    (hbody : RoundsKeep (h.eval depth) body [step]
      (fun t t' => t'.env.value? name = t.env.value? name) N.toNat ⟨env, some c, log⟩) :
    ∃ t n shown,
      evalTimes (h.eval depth) (body ++ [step]) N.toNat ⟨env, some c, log⟩ = .ok () t
      ∧ t.env.value? name = some (min N 0) ∧ t.context = some { c with steps := c.steps + n }
      ∧ h.eval (depth + 1) loop ⟨env, some c, log⟩
        = .ok 0 ⟨t.env, some { c with steps := c.steps + (n + N.toNat + 1) }, shown⟩
      ∧ Log.IsLike h.tracing shown t.log := by
  obtain ⟨env', n, events, shown, htakes, hvalue', -⟩ :=
    exists_takesRounds hcondition hstep hdepth (fun _ _ => id) hvalue (by omega) hbody
  rw [show N - N.toNat = min N 0 by omega] at hvalue'
  obtain ⟨visits, hvisits, htest⟩ :=
    does_condition hcondition (show 2 ≤ depth by omega) c.sink hvalue'
  rw [if_neg (by omega)] at htest
  refine ⟨_, n, _, htakes.times c log rfl (.inl hfree), hvalue', ?_, ?_, htakes.isLike hvisits log⟩
  · rw [hfree.advanced_eq]
  · rw [eval_of_takesRounds hloop htakes htest hrounds _ rfl (.inl hfree) log, hfree.advanced_eq]

/-- A countdown in a fresh context with a budget. -/
theorem exists_eval_of_budget (hloop : h.graph.HasForm loop (.loop condition (body ++ [step])))
    (hcondition : h.graph.AsksForMore name condition) (hstep : h.graph.Decrements name step)
    (hdepth : 3 ≤ depth) (hrounds : N.toNat < h.rounds) (hvalue : env.value? name = some N)
    (sink : Sink) (budget : Nat) (hc : c = { sink := sink, budget := some budget })
    (hbody : RoundsKeep (h.eval depth) body [step]
      (fun t t' => t'.env.value? name = t.env.value? name ∧ t'.context = t.context)
      (min N.toNat budget) ⟨env, some c, log⟩) :
    ∃ t shown,
      evalTimes (h.eval depth) (body ++ [step]) (min N.toNat budget) ⟨env, some c, log⟩ = .ok () t
      ∧ t.context = some c ∧ Log.IsLike h.tracing shown t.log
      ∧ (N.toNat < budget → t.env.value? name = some (min N 0)
        ∧ h.eval (depth + 1) loop ⟨env, some c, log⟩
          = .ok 0 ⟨t.env, some { c with steps := N.toNat + 1 }, shown⟩
        ∧ h.eval (depth + 1) loop ⟨env, some { sink := sink }, log⟩
          = .ok 0 ⟨t.env, some { sink := sink, steps := N.toNat + 1 }, shown⟩)
      ∧ (budget ≤ N.toNat → t.env.value? name = some (N - budget)
        ∧ h.eval (depth + 1) loop ⟨env, some c, log⟩
          = .error (.failure ⟨.budgetExhausted budget Kind.loop.name, none⟩)
            ⟨t.env, some { c with steps := budget + 1 }, shown⟩) := by
  obtain ⟨env', n, events, shown, htakes, hvalue', hnone⟩ :=
    exists_takesRounds hcondition hstep hdepth (fun _ _ => And.left) hvalue (by omega) hbody
  obtain rfl : n = 0 := hnone fun _ _ => And.right
  have htimes := htakes.times c log rfl (.inr rfl)
  rw [Context.advanced_zero] at htimes
  subst hc
  rcases Nat.lt_or_ge N.toNat budget with hlt | hge
  · -- the budget covers all rounds and the last test
    rw [Nat.min_eq_left (Nat.le_of_lt hlt)] at htakes htimes hvalue' ⊢
    rw [show N - N.toNat = min N 0 by omega] at hvalue'
    obtain ⟨visits, hvisits, htest⟩ :=
      does_condition hcondition (show 2 ≤ depth by omega) sink hvalue'
    rw [if_neg (by omega)] at htest
    refine ⟨_, _, htimes, rfl, htakes.isLike hvisits log, fun _ => ⟨hvalue', ?_, ?_⟩,
      fun hge => absurd hlt (Nat.not_lt_of_le hge)⟩
    · rw [eval_of_takesRounds hloop htakes htest hrounds _ rfl
        (.inr ⟨rfl, Context.passes_of_le hlt⟩) log]
      simp [Context.advanced]
    · have hfree : ({ sink := sink } : Context).IsFree := ⟨rfl, rfl⟩
      rw [eval_of_takesRounds hloop htakes htest hrounds { sink := sink } rfl (.inl hfree) log]
      simp [Context.advanced]
  · -- the budget is used up by the rounds
    rw [Nat.min_eq_right hge] at htakes htimes hvalue' ⊢
    have hnovisits : OnlyVisits h.tracing #[] := ⟨by simp, fun _ => rfl⟩
    refine ⟨_, _, htimes, rfl, htakes.isLike hnovisits log,
      fun hlt => absurd hlt (Nat.not_lt_of_le hge), fun _ => ⟨hvalue', ?_⟩⟩
    rw [eval_of_cut hloop htakes (by omega) rfl (Context.passes_of_le (Nat.le_refl budget))
      (Context.interruption?_of_budget sink budget) log]
    simp [Context.advanced]

/-- **A countdown takes as many rounds as the variable says.** Make a loop over any nodes that goes
on as long as a variable is positive, with a last node in its body that takes one from the variable
and does nothing else. Let the loop start where the variable is `N`, in any environment, and let
the nodes come to their end in each round that is reached and leave the variable as it was.

* In a context without hook and budget the loop gives zero, and leaves the environment that
  `max N 0` evaluations of its body leave. The variable is `min N 0` then. The loop has shown what
  the evaluations of the body show, and if it is traced the visits of its test. It has passed the
  checkpoints that the body passes, one for each round, and one for the test that fails.
* In a fresh context with a budget, if the nodes pass no checkpoints, the budget ends the loop if
  it is no greater than `max N 0`, after just as many rounds; and if it is greater the loop does
  what it does without a budget.

There has to be room for the evaluation of the decrement, and the loop has to be followed for long
enough. -/
theorem eval_countdown (h : Host) (name : String) (body : List Value) (N : Int) (depth : Nat)
    (hname : name ≠ "") (hbody : ∀ b ∈ body, h.graph.isNode b = true) (hdepth : 3 ≤ depth)
    (hrounds : N.toNat < h.rounds) :
    ∃ loop step g', Build.countdown name body h.graph = .ok (loop, step) g'
      ∧ ∀ h' : Host, h' = { h with graph := g' } →
        (∀ t x, t.env.value? name = some x → ∃ log, h'.eval depth step t
          = .ok (x - 1) ⟨t.env.setVariable name (x - 1), t.context, log⟩)
        ∧ ∀ env log, env.value? name = some N →
          (∀ c : Context, c.IsFree →
            RoundsKeep (h'.eval depth) body [step]
              (fun t t' => t'.env.value? name = t.env.value? name) N.toNat ⟨env, some c, log⟩ →
            ∃ t n shown,
              evalTimes (h'.eval depth) (body ++ [step]) N.toNat ⟨env, some c, log⟩ = .ok () t
              ∧ t.env.value? name = some (min N 0)
              ∧ t.context = some { c with steps := c.steps + n }
              ∧ h'.eval (depth + 1) loop ⟨env, some c, log⟩
                = .ok 0 ⟨t.env, some { c with steps := c.steps + (n + N.toNat + 1) }, shown⟩
              ∧ Log.IsLike h.tracing shown t.log)
          ∧ ∀ (sink : Sink) (budget : Nat) (c : Context),
            c = { sink := sink, budget := some budget } →
            RoundsKeep (h'.eval depth) body [step]
              (fun t t' => t'.env.value? name = t.env.value? name ∧ t'.context = t.context)
              (min N.toNat budget) ⟨env, some c, log⟩ →
            ∃ t shown,
              evalTimes (h'.eval depth) (body ++ [step]) (min N.toNat budget) ⟨env, some c, log⟩
                = .ok () t
              ∧ t.context = some c ∧ Log.IsLike h.tracing shown t.log
              ∧ (N.toNat < budget → t.env.value? name = some (min N 0)
                ∧ h'.eval (depth + 1) loop ⟨env, some c, log⟩
                  = .ok 0 ⟨t.env, some { c with steps := N.toNat + 1 }, shown⟩
                ∧ h'.eval (depth + 1) loop ⟨env, some { sink := sink }, log⟩
                  = .ok 0 ⟨t.env, some { sink := sink, steps := N.toNat + 1 }, shown⟩)
              ∧ (budget ≤ N.toNat → t.env.value? name = some (N - budget)
                ∧ h'.eval (depth + 1) loop ⟨env, some c, log⟩
                  = .error (.failure ⟨.budgetExhausted budget Kind.loop.name, none⟩)
                    ⟨t.env, some { c with steps := budget + 1 }, shown⟩) := by
  obtain ⟨⟨loop, step⟩, g', hbuild, -, condition, hloop, hcondition, hstep⟩ :=
    Build.gives_countdown hname hbody
  refine ⟨loop, step, g', hbuild, ?_⟩
  rintro h' rfl
  refine ⟨fun t x hx => eval_decrement (h := { h with graph := g' }) hstep hdepth hx, ?_⟩
  intro env log hvalue
  constructor
  · intro c hfree hkeeps
    exact exists_eval_of_isFree (h := { h with graph := g' }) hloop hcondition hstep hdepth hrounds
      hvalue hfree hkeeps
  · intro sink budget c hc hkeeps
    exact exists_eval_of_budget (h := { h with graph := g' }) hloop hcondition hstep hdepth hrounds
      hvalue sink budget hc hkeeps

/-- A node that prints `x`. -/
def printsVariable : Graph where
  objects := #[
    .record ⟨[("type", .text "VARIABLE"), ("value", .text "x")]⟩,
    .record ⟨[("type", .text "PRINT"), ("value", .ref 0)]⟩]

/-- A countdown from two prints `2` and `1`, and with a budget of one checkpoint only `2`. -/
theorem printsVariable_countdown :
    (("x" ≠ "" ∧ ∀ b ∈ [Value.ref 1], printsVariable.isNode b = true)
      ∧ 3 ≤ 3 ∧ (2 : Int).toNat < 9)
    ∧ ∃ loop step g' shown cut,
      Build.countdown "x" [.ref 1] printsVariable = .ok (loop, step) g'
      ∧ (⟨g', false, 9, 9, 9⟩ : Host).eval 4 loop
          ⟨{ values := ⟨[("x", 2)]⟩ }, some .default, #[]⟩
        = .ok 0 ⟨{ values := ⟨[("x", 0)]⟩ }, some { steps := 3 }, shown⟩
      ∧ shown.standardOutput = "> 2\n> 1\n"
      ∧ (⟨g', false, 9, 9, 9⟩ : Host).eval 4 loop
          ⟨{ values := ⟨[("x", 2)]⟩ }, some { budget := some 1 }, #[]⟩
        = .error (.failure ⟨.budgetExhausted 1 Kind.loop.name, none⟩)
          ⟨{ values := ⟨[("x", 1)]⟩ }, some { budget := some 1, steps := 2 }, cut⟩
      ∧ cut.standardOutput = "> 2\n" := by
  obtain ⟨loop, step, g', hbuild, hlaw⟩ := eval_countdown ⟨printsVariable, false, 9, 9, 9⟩ "x"
    [.ref 1] 2 3 (by decide) (by decide) (by decide) (by decide)
  obtain ⟨-, hcountdown⟩ := hlaw _ rfl
  obtain ⟨hfree, hbudget⟩ := hcountdown { values := ⟨[("x", 2)]⟩ } #[] rfl
  refine ⟨⟨⟨by decide, by decide⟩, by decide, by decide⟩, loop, step, g', ?_⟩
  cases hbuild
  -- what is printed is computed with the rounds, and the loop shows the same
  obtain ⟨t, n, shown, htimes, -, hcontext, hrun, hshown⟩ := hfree .default ⟨rfl, rfl⟩ (by
    intro i hi t ht
    match i, hi with
    | 0, _ => cases ht; exact ⟨_, rfl, rfl⟩
    | 1, _ => cases ht; exact ⟨_, rfl, rfl⟩)
  obtain ⟨t', cut, htimes', -, hcut, -, hrun'⟩ := hbudget .standard 1 _ rfl (by
    intro i hi t ht
    match i, hi with
    | 0, _ => cases ht; exact ⟨_, rfl, rfl, rfl⟩)
  cases htimes
  cases htimes'
  obtain rfl : n = 0 := by simpa [Context.default] using hcontext.symm
  obtain rfl := hshown.2 rfl
  obtain rfl := hcut.2 rfl
  exact ⟨_, _, rfl, hrun, by decide, (hrun' (by decide)).2, by decide⟩

end Host

end Treewalk
