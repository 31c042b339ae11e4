import Treewalk.Proofs.EvalForm
import Treewalk.Proofs.Statements

/-!
## Invariants of runs

`Eval.Triple` is partial correctness for runs: from a machine with the precondition, a run that
gives a result establishes the postcondition, and a run that halts leaves a machine of which the
condition on ends holds. `Eval.Safe` is the case that evaluation needs: a condition on contexts
and a condition on environments are kept, and only certain halts are met.

The condition on contexts may get stronger at a checkpoint. That is what makes the rule for
calls useful: the statements of a function run under the stronger condition.

* `Host.safe_evalForm`: the rule for all forms, from what is known of the children and of the
  functions in the environment.
-/

namespace Treewalk

namespace Eval

/-! ### Triples -/

section

variable {V : Domain} {α β : Type}

/-- The run has ended with a result and `Q`, or with a halt and `E`. -/
def Lands (Q : Machine V → Prop) (E : Halt V → Machine V → Prop) :
    EStateM.Result (Halt V) (Machine V) α → Prop
  | .ok _ m => Q m
  | .error halt m => E halt m

/-- From a machine with `P` the run `x` reaches one with `Q`, or it halts with `E`. -/
def Triple (P : Machine V → Prop) (x : Eval α V) (Q : Machine V → Prop)
    (E : Halt V → Machine V → Prop) : Prop :=
  ∀ m, P m → Lands Q E (x m)

variable {P P' Q Q' R : Machine V → Prop} {E : Halt V → Machine V → Prop} {x : Eval α V}
  {f : α → Eval β V}

theorem Lands.imp {result : EStateM.Result (Halt V) (Machine V) α} (h : Lands Q E result)
    (hQ : ∀ m, Q m → Q' m) : Lands Q' E result := by
  cases result with
  | ok a m => exact hQ m h
  | error halt m => exact h

theorem Triple.weaken (h : Triple P x Q E) (hP : ∀ m, P' m → P m) (hQ : ∀ m, Q m → Q' m) :
    Triple P' x Q' E :=
  fun m hm => (h m (hP m hm)).imp hQ

/-- A context that is set up for a run, and dropped after it, takes no part in what does not look
at contexts. -/
theorem Lands.inContext {m : Machine V} (hQ : ∀ m context, Q m → Q { m with context := context })
    (hE : ∀ halt m context, E halt m → E halt { m with context := context })
    (hx : Lands Q E (x { m with context := some (m.context.getD .default) })) :
    Lands Q E (inContext x m) := by
  obtain ⟨env, context, log⟩ := m
  cases context with
  | some c =>
    rw [inContext_of_some x rfl]
    exact hx
  | none =>
    rw [Eval.inContext]
    dsimp only [Option.getD_none] at hx ⊢
    cases hrun : x ⟨env, some .default, log⟩ with
    | ok a m' =>
      rw [hrun] at hx
      exact hQ m' none hx
    | error halt m' =>
      rw [hrun] at hx
      exact hE halt m' none hx

theorem Triple.pure (a : α) : Triple P (Pure.pure a) P E :=
  fun _ hm => hm

theorem Triple.throw {halt : Halt V} (h : ∀ m, P m → E halt m) :
    Triple P (throw halt : Eval α V) Q E :=
  fun m hm => h m hm

/-- **The second part starts from what the first has established.** -/
theorem Triple.bind (hx : Triple P x Q E) (hf : ∀ a, Triple Q (f a) R E) :
    Triple P (x >>= f) R E := by
  intro m hm
  have hm := hx m hm
  rw [Steps.bind_apply]
  cases hrun : x m with
  | ok a m' =>
    rw [hrun] at hm
    exact hf a m' hm
  | error halt m' => rwa [hrun] at hm

end

section

variable {α β : Type} {x : Eval α} {f : α → Eval β}

/-! ### Conditions on contexts, environments and halts -/

/-- There is a context, of which `C` holds, and `N` holds of the environment. -/
def Within (C : Context → Prop) (N : Env → Prop) (m : Machine) : Prop :=
  (∃ c, m.context = some c ∧ C c) ∧ N m.env

/-- The halt is one of `A`, and `N` holds of the environment that is left. -/
def Halted (A : Halt → Prop) (N : Env → Prop) (halt : Halt) (m : Machine) : Prop :=
  A halt ∧ N m.env

/-- The run keeps `C` and `N` and halts only as `A` allows. -/
def Safe (C : Context → Prop) (N : Env → Prop) (A : Halt → Prop) (x : Eval α) : Prop :=
  Triple (Within C N) x (Within C N) (Halted A N)

/-- What checkpoints do to a condition on contexts: they turn `C` into `D`, or they halt. -/
structure Checkpoints (C D : Context → Prop) (A : Halt → Prop) : Prop where
  advance : ∀ c site, C c → c.interruption? site = none → D c.advance
  weaken : ∀ c, D c → C c
  interruption : ∀ c site f, C c → c.interruption? site = some f → A (.failure ⟨f, none⟩)
  unfinished : A .unfinished

variable {C D : Context → Prop} {N : Env → Prop} {A : Halt → Prop}

theorem Within.weaken (hpoints : Checkpoints C D A) {m : Machine} (h : Within D N m) :
    Within C N m := by
  obtain ⟨⟨c, hc, hD⟩, hN⟩ := h
  exact ⟨⟨c, hc, hpoints.weaken c hD⟩, hN⟩

theorem safe_pure (a : α) : Safe C N A (pure a) :=
  Triple.pure a

theorem Safe.bind (hx : Safe C N A x) (hf : ∀ a, Safe C N A (f a)) : Safe C N A (x >>= f) :=
  Triple.bind hx hf

theorem safe_throw {halt : Halt} (h : A halt) : Safe C N A (throw halt : Eval α) :=
  Triple.throw fun _ hm => ⟨h, hm.2⟩

theorem safe_fail {failure : Failure} (h : A (.failure ⟨failure, none⟩)) :
    Safe C N A (fail failure : Eval α) :=
  safe_throw h

theorem safe_attempt {operation : Except Failure α}
    (h : ∀ f, operation = .error f → A (.failure ⟨f, none⟩)) :
    Safe C N A (attempt operation) := by
  cases operation with
  | ok a => exact safe_pure a
  | error f => exact safe_fail (h f rfl)

theorem safe_changeEnv {change : Env → Env} (h : ∀ env, N env → N (change env)) :
    Safe C N A (changeEnv change) :=
  fun m hm => ⟨hm.1, h m.env hm.2⟩

theorem safe_emit (e : Event) : Safe C N A (emit e) :=
  fun _ hm => hm

theorem safe_trace (h : Host) (e : Event) : Safe C N A (trace h e) := by
  unfold trace
  split
  · exact safe_emit e
  · exact safe_pure ()

theorem safe_inContext (hx : Safe C N A x) : Safe C N A (inContext x) := by
  intro m hm
  obtain ⟨c, hc, -⟩ := hm.1
  rw [inContext_of_some x hc]
  exact hx m hm

theorem safe_print (value : Int) : Safe C N A (print value) := by
  intro m hm
  obtain ⟨⟨c, hc, hC⟩, hN⟩ := hm
  rw [print, hc]
  exact ⟨⟨c, rfl, hC⟩, hN⟩

/-- A checkpoint that is passed establishes the stronger condition. -/
theorem triple_checkpoint (hpoints : Checkpoints C D A) (site : String) :
    Triple (Within C N) (checkpoint site) (Within D N) (Halted A N) := by
  rintro m ⟨⟨c, hc, hC⟩, hN⟩
  cases hint : c.interruption? site with
  | none =>
    rw [checkpoint_of_none hc hint]
    exact ⟨⟨c.advance, rfl, hpoints.advance c site hC hint⟩, hN⟩
  | some f =>
    rw [checkpoint_of_some hc hint]
    exact ⟨hpoints.interruption c site f hC hint, hN⟩

end

end Eval

/-! ### Forms -/

/-- The failures that a node of the form can cause by itself, apart from its checkpoints. -/
def Form.Causes : Form → Failure → Prop
  | .lookup name, f => ∃ env, f = .undefinedVariable (.text name) env
  | .arithmetic _ _ _, f => ∃ x, f = .divisionByZero x
  | .call name _, f => (∃ env, f = .undefinedFunction (.text name) env)
    ∨ ∃ expected got, f = .arityMismatch (.text name) expected got
  | _, _ => False

namespace Host

open Eval

variable {h : Host} {self : Value → Eval Int} {C D : Context → Prop} {N : Env → Prop}
  {A : Halt → Prop} {vs : List Value}

theorem safe_valueOf (name : String)
    (hfail : ∀ env, A (.failure ⟨.undefinedVariable (.text name) env, none⟩)) :
    Safe C N A (h.valueOf (.text name)) := by
  intro m hm
  rw [valueOf_text]
  cases m.env.value? name with
  | none => exact ⟨hfail m.env, hm.2⟩
  | some x => exact hm

/-- What follows on finding a function may rely on its being in the environment. -/
theorem safe_functionOf_bind {α : Type} {k : Callable → Eval α} (name : String)
    (hfail : ∀ env, A (.failure ⟨.undefinedFunction (.text name) env, none⟩))
    (hk : ∀ f env, N env → env.function? name = some f → Safe C N A (k f)) :
    Safe C N A (h.functionOf (.text name) >>= k) := by
  intro m hm
  rw [Steps.bind_apply, functionOf_text]
  cases hf : m.env.function? name with
  | none => exact ⟨hfail m.env, hm.2⟩
  | some f => exact hk f m.env hm.2 hf m hm

theorem safe_evalAll (hself : ∀ v ∈ vs, Safe C N A (self v)) :
    Safe C N A (evalAll self vs) := by
  induction vs with
  | nil => exact safe_pure []
  | cons v vs ih =>
    refine (hself v (List.mem_cons_self ..)).bind fun x => ?_
    refine (ih fun w hw => hself w (List.mem_cons_of_mem v hw)).bind fun xs => ?_
    exact safe_pure (x :: xs)

theorem safe_evalEach (hself : ∀ v ∈ vs, Safe C N A (self v)) :
    Safe C N A (evalEach self vs) := by
  induction vs with
  | nil => exact safe_pure ()
  | cons v vs ih =>
    refine (hself v (List.mem_cons_self ..)).bind fun _ => ?_
    exact ih fun w hw => hself w (List.mem_cons_of_mem v hw)

/-- Each statement of a body starts from the stronger condition. -/
theorem safe_evalBody (hpoints : Checkpoints C D A)
    (hself : ∀ v ∈ vs, Triple (Within D N) (self v) (Within C N) (Halted A N)) (last : Int) :
    Safe C N A (evalBody self last vs) := by
  induction vs generalizing last with
  | nil => exact safe_pure last
  | cons v vs ih =>
    refine (triple_checkpoint hpoints Kind.function.name).bind fun _ => ?_
    refine (hself v (List.mem_cons_self ..)).bind fun x => ?_
    exact ih (fun w hw => hself w (List.mem_cons_of_mem v hw)) x

theorem safe_evalRounds (hpoints : Checkpoints C D A) {condition : Value}
    (hcondition : Safe C N A (self condition)) (hbody : ∀ v ∈ vs, Safe C N A (self v))
    (rounds : Nat) : Safe C N A (evalRounds self condition vs rounds) := by
  induction rounds with
  | zero => exact safe_throw hpoints.unfinished
  | succ rounds ih =>
    refine Triple.bind ((triple_checkpoint hpoints Kind.loop.name).weaken (fun _ => id)
      fun _ => Within.weaken hpoints) fun _ => ?_
    refine hcondition.bind fun test => ?_
    split
    · exact safe_pure 0
    · exact (safe_evalEach hbody).bind fun _ => ih

theorem bindAll_induction {names : List String}
    (hset : ∀ name ∈ names, ∀ x env, N env → N (env.setVariable name x)) (xs : List Int)
    {env : Env} (henv : N env) : N (env.bindAll names xs) := by
  induction names generalizing env xs with
  | nil => exact henv
  | cons name names ih =>
    cases xs with
    | nil => exact henv
    | cons x xs =>
      exact ih (fun n hn => hset n (List.mem_cons_of_mem name hn)) xs
        (hset name (List.mem_cons_self ..) x env henv)

theorem safe_callFunction (hpoints : Checkpoints C D A) {name : String} {names : List String}
    {args : List Value}
    (hfail : ∀ expected got, A (.failure ⟨.arityMismatch (.text name) expected got, none⟩))
    (hset : ∀ name ∈ names, ∀ x env, N env → N (env.setVariable name x))
    (hargs : ∀ v ∈ args, Safe C N A (self v)) (hbody : ∀ v ∈ vs, Safe D N A (self v)) :
    Safe C N A (h.callFunction self name names vs args) := by
  unfold callFunction
  split
  · exact safe_fail (hfail _ _)
  · refine (safe_evalAll hargs).bind fun values => ?_
    refine (safe_changeEnv fun env henv => bindAll_induction hset values henv).bind fun _ => ?_
    refine (safe_trace h _).bind fun _ => safe_inContext ?_
    exact safe_evalBody hpoints
      (fun v hv => (hbody v hv).weaken (fun _ => id) fun _ => Within.weaken hpoints) 0

/-- **The rule for all forms.** The children have to be safe, assignments and definitions have to
keep the condition on environments, and a function that the environment has, under that
condition, has to be callable: it can be read, its parameters may be bound, and its statements
are safe after a checkpoint. -/
theorem safe_evalForm (hpoints : Checkpoints C D A) {form : Form}
    (hfail : ∀ f, form.Causes f → A (.failure ⟨f, none⟩))
    (hassign : ∀ name expr x env, form = .assignment name expr → N env →
      N (env.setVariable name x))
    (hdefine : ∀ name f params body env, form = .definition name f params body → N env →
      N (env.define name f))
    (hcall : ∀ name args env f, form = .call name args → N env → env.function? name = some f →
      ∃ names statements, h.graph.HasSignature f names statements
        ∧ (∀ name ∈ names, ∀ x env, N env → N (env.setVariable name x))
        ∧ ∀ v ∈ statements, Safe D N A (self v))
    (hchildren : ∀ c ∈ form.children, Safe C N A (self c)) :
    Safe C N A (h.evalForm self form) := by
  cases form with
  | number n => exact safe_pure n
  | lookup name => exact safe_valueOf name fun env => hfail _ ⟨env, rfl⟩
  | assignment name expr =>
    refine (hchildren expr (by simp [Form.children])).bind fun value => ?_
    refine (safe_changeEnv fun env => hassign name expr value env rfl).bind fun _ => ?_
    exact (safe_trace h _).bind fun _ => safe_pure value
  | arithmetic op left right =>
    refine (hchildren left (by simp [Form.children])).bind fun x => ?_
    refine (hchildren right (by simp [Form.children])).bind fun y => ?_
    refine safe_attempt fun f hf => hfail f ?_
    exact ⟨x, (Arithmetic.compute_eq_error_iff.mp hf).2⟩
  | comparison op left right =>
    refine (hchildren left (by simp [Form.children])).bind fun x => ?_
    exact (hchildren right (by simp [Form.children])).bind fun y => safe_pure _
  | conditional condition body =>
    refine (hchildren condition (by simp [Form.children])).bind fun test => ?_
    split
    · exact hchildren body (by simp [Form.children])
    · exact safe_pure 0
  | alternative condition body otherwise =>
    refine (hchildren condition (by simp [Form.children])).bind fun test => ?_
    split
    · exact hchildren body (by simp [Form.children])
    · exact hchildren otherwise (by simp [Form.children])
  | loop condition body =>
    exact safe_inContext (safe_evalRounds hpoints (hchildren condition (by simp [Form.children]))
      (fun v hv => hchildren v (List.mem_cons_of_mem _ hv)) h.rounds)
  | print expr =>
    exact safe_inContext ((hchildren expr (by simp [Form.children])).bind fun x => safe_print x)
  | definition name function params body =>
    refine (safe_changeEnv fun env => hdefine name function params body env rfl).bind fun _ => ?_
    exact (safe_trace h _).bind fun _ => safe_pure 0
  | function params body =>
    -- the statements are children, safe before the checkpoint and so after it
    exact safe_inContext (safe_evalBody hpoints
      (fun v hv => (hchildren v hv).weaken (fun _ => Within.weaken hpoints) fun _ => id) 0)
  | call name args =>
    -- the function was in the environment before the arguments were evaluated
    refine safe_functionOf_bind name (fun env => hfail _ (.inl ⟨env, rfl⟩)) fun f env henv hf => ?_
    obtain ⟨names, statements, hsignature, hset, hbody⟩ := hcall name args env f rfl henv hf
    rw [apply_of_hasSignature name args hsignature]
    exact safe_callFunction hpoints (fun expected got => hfail _ (.inr ⟨expected, got, rfl⟩)) hset
      hchildren hbody

/-- The rule for nodes. -/
theorem safe_evalNode {v : Value} {form : Form} (hform : h.graph.HasForm v form)
    (hsafe : Safe C N A (h.evalForm self form)) : Safe C N A (h.evalNode self v) := by
  rw [evalNode_of_hasForm hform]
  exact safe_inContext ((safe_trace h _).bind fun _ => hsafe)

/-! ### Statements and programs -/

section

variable {V : Domain} {h : Host V} {P Q : Machine V → Prop} {E E' : Halt V → Machine V → Prop}

/-- A statement does what its node does, and its halt is blamed on it. -/
theorem triple_runStatement {index : Nat} {v : Value}
    (hblamed : ∀ halt m, E halt m → E' (h.blamed index v halt) m)
    (heval : Triple P (h.eval h.nesting v) Q E) : Triple P (h.runStatement index v) Q E' := by
  intro m hm
  have hrun := heval m hm
  rw [runStatement_apply]
  cases hstep : h.eval h.nesting v m with
  | ok x m' => rwa [hstep] at hrun
  | error halt m' =>
    rw [hstep] at hrun
    exact hblamed halt m' hrun

/-- What every statement keeps a row of statements keeps. -/
theorem triple_runStatements (hstatement : ∀ index, ∀ v ∈ vs, Triple P (h.runStatement index v) P E)
    (start : Nat) : Triple P (h.runStatements start vs) P E := by
  induction vs generalizing start with
  | nil => exact Triple.pure []
  | cons v vs ih =>
    refine (hstatement start v (List.mem_cons_self ..)).bind fun x => ?_
    refine (ih (fun index w hw => hstatement index w (List.mem_cons_of_mem v hw)) _).bind
      fun xs => ?_
    exact Triple.pure (x :: xs)

end

variable {A' : Halt → Prop}

theorem safe_runStatement {index : Nat} {v : Value}
    (hblamed : ∀ halt, A halt → A' (h.blamed index v halt))
    (hsafe : Safe C N A (h.eval h.nesting v)) : Safe C N A' (h.runStatement index v) :=
  triple_runStatement (fun halt _ hhalt => ⟨hblamed halt hhalt.1, hhalt.2⟩) hsafe

theorem safe_runStatements (hstatement : ∀ index, ∀ v ∈ vs, Safe C N A' (h.runStatement index v))
    (start : Nat) : Safe C N A' (h.runStatements start vs) :=
  triple_runStatements hstatement start

/-- A run that sets up a context of its own if need be keeps the condition on environments. -/
theorem lands_inContext {α : Type} {x : Eval α} (hx : Safe C N A x) {m : Machine}
    (hcontext : C (m.context.getD .default)) (henv : N m.env) :
    Lands (fun m' => N m'.env) (Halted A N) (inContext x m) := by
  have hrun := hx { m with context := some (m.context.getD .default) } ⟨⟨_, rfl, hcontext⟩, henv⟩
  exact Lands.inContext (fun _ _ => id) (fun _ _ _ => id) (hrun.imp fun _ hm => hm.2)

end Host

end Treewalk
