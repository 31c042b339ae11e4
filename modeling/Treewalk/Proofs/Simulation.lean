import Mathlib.Data.List.Forall2
import Treewalk.Proofs.Cutoff
import Treewalk.Proofs.EvalForm

/-!
## Two runs side by side

Two programs that are alike node by node, in environments that are alike, do the same things one
after the other. What it means to be alike is left open: `Relations` holds a relation for each
sort of thing that a run handles. The names of variables that are read, of variables that are
bound, of functions that are called and of functions that are defined each have a relation of
their own. `Support` says how the relations have to fit together for the steps of a run, and
`Simulation` adds that nodes that are alike have forms that are alike.

* `Relations.Alike`: from machines that are alike two runs come to results that are alike, on
  machines that are alike again.
* `Support.alike_evalForm`: the rule for all forms.
* `Relations.alike_eval`, `Relations.alike_runStatements`: nodes and rows of statements are alike
  if their parts are.
* `Simulation.alike_eval`, `Simulation.alike_runProgram`: so it is with nodes and with programs.
-/

namespace Treewalk

open Eval
open List (Forall₂)

/-! ### Relations -/

/-- What is asked to be alike on the two sides. -/
structure Relations where
  /-- Nodes. -/
  node : Value → Value → Prop
  /-- Functions in an environment. -/
  function : Callable → Callable → Prop
  /-- Names of variables that are read. -/
  read : String → String → Prop
  /-- Names of variables that are bound, parameters among them. -/
  write : String → String → Prop
  /-- Names of functions that are called. -/
  call : String → String → Prop
  /-- Names of functions that are defined. -/
  define : String → String → Prop
  /-- Environments. -/
  env : Env → Env → Prop
  /-- Logs. -/
  log : Log → Log → Prop

namespace Relations

variable (R : Relations)

/-- Forms that do the same with parts that are alike. -/
inductive FormLike : Form → Form → Prop where
  | number (n : Int) : FormLike (.number n) (.number n)
  | lookup {x x' : String} (hx : R.read x x') : FormLike (.lookup x) (.lookup x')
  | assignment {x x' : String} {v v' : Value} (hx : R.write x x') (hv : R.node v v') :
    FormLike (.assignment x v) (.assignment x' v')
  | arithmetic (op : Arithmetic) {v v' w w' : Value} (hv : R.node v v') (hw : R.node w w') :
    FormLike (.arithmetic op v w) (.arithmetic op v' w')
  | comparison (op : Comparison) {v v' w w' : Value} (hv : R.node v v') (hw : R.node w w') :
    FormLike (.comparison op v w) (.comparison op v' w')
  | conditional {v v' w w' : Value} (hv : R.node v v') (hw : R.node w w') :
    FormLike (.conditional v w) (.conditional v' w')
  | alternative {u u' v v' w w' : Value} (hu : R.node u u') (hv : R.node v v') (hw : R.node w w') :
    FormLike (.alternative u v w) (.alternative u' v' w')
  | loop {v v' : Value} {vs vs' : List Value} (hv : R.node v v') (hvs : Forall₂ R.node vs vs') :
    FormLike (.loop v vs) (.loop v' vs')
  | print {v v' : Value} (hv : R.node v v') : FormLike (.print v) (.print v')
  | definition {x x' : String} {f f' : Callable} {ps ps' : List String} {vs vs' : List Value}
    (hx : R.define x x') (hf : R.function f f') (hps : Forall₂ R.write ps ps') :
    FormLike (.definition x f ps vs) (.definition x' f' ps' vs')
  | function {ps ps' : List String} {vs vs' : List Value} (hvs : Forall₂ R.node vs vs') :
    FormLike (.function ps vs) (.function ps' vs')
  | call {x x' : String} {vs vs' : List Value} (hx : R.call x x') (hvs : Forall₂ R.node vs vs') :
    FormLike (.call x vs) (.call x' vs')

/-- Lines of a trace that tell the same. -/
inductive EventLike : Event → Event → Prop where
  | visited (tag : String) : EventLike (.visited tag) (.visited tag)
  | assigned {x x' : String} (hx : R.write x x') (n : Int) :
    EventLike (.assigned x n) (.assigned x' n)
  | defined {x x' : String} {ps ps' : List String} (hx : R.define x x')
    (hps : Forall₂ R.write ps ps') : EventLike (.defined x ps) (.defined x' ps')
  | called {x x' : String} {ps ps' : List String} (hx : R.call x x')
    (hps : Forall₂ R.write ps ps') (ns : List Int) :
    EventLike (.called x (ps.zip ns)) (.called x' (ps'.zip ns))

/-- Failures of one kind, about names that are alike. Failures about no name are alike only when
they are the same. -/
inductive FailureLike : Failure → Failure → Prop where
  | undefinedVariable {x x' : String} {env env' : Env} (hx : R.read x x') (henv : R.env env env') :
    FailureLike (.undefinedVariable (.text x) env) (.undefinedVariable (.text x') env')
  | undefinedFunction {x x' : String} {env env' : Env} (hx : R.call x x') (henv : R.env env env') :
    FailureLike (.undefinedFunction (.text x) env) (.undefinedFunction (.text x') env')
  | arityMismatch {x x' : String} (hx : R.call x x') (expected got : Int) :
    FailureLike (.arityMismatch (.text x) expected got) (.arityMismatch (.text x') expected got)
  | same {f : Failure} (hf : f.identifier? = none) : FailureLike f f

/-- Halts of one sort, at the same statement; two nodes are never objected to alike. -/
inductive HaltLike : Halt → Halt → Prop where
  | failure {f f' : Failure} (hf : R.FailureLike f f') (statement : Option Nat) :
    HaltLike (.failure ⟨f, statement⟩) (.failure ⟨f', statement⟩)
  | fault (f : Fault) : HaltLike (.fault f) (.fault f)
  | tooDeep : HaltLike .tooDeep .tooDeep
  | unfinished : HaltLike .unfinished .unfinished

/-- Machines with the same context, and with environments and logs that are alike. -/
structure MachineLike (m m' : Machine) : Prop where
  env : R.env m.env m'.env
  context : m.context = m'.context
  log : R.log m.log m'.log

variable {α α' β β' : Type}

/-- Results of one sort, with values of which `V` holds, on machines that are alike. -/
def ResultLike (V : α → α' → Prop) :
    EStateM.Result Halt Machine α → EStateM.Result Halt Machine α' → Prop
  | .ok a m, .ok a' m' => V a a' ∧ R.MachineLike m m'
  | .error halt m, .error halt' m' => R.HaltLike halt halt' ∧ R.MachineLike m m'
  | _, _ => False

/-- **Runs that are alike**: so are their results from machines that are alike. -/
def Alike (V : α → α' → Prop) (x : Eval α) (x' : Eval α') : Prop :=
  ∀ m m', R.MachineLike m m' → R.ResultLike V (x m) (x' m')

/-! ### Forms by their labels -/

/-- Labels of one kind, with names that are alike. -/
inductive LabelLike : Label → Label → Prop where
  | number (n : Int) : LabelLike (.number n) (.number n)
  | lookup {x x' : String} (hx : R.read x x') : LabelLike (.lookup x) (.lookup x')
  | assignment {x x' : String} (hx : R.write x x') : LabelLike (.assignment x) (.assignment x')
  | arithmetic (op : Arithmetic) : LabelLike (.arithmetic op) (.arithmetic op)
  | comparison (op : Comparison) : LabelLike (.comparison op) (.comparison op)
  | conditional : LabelLike .conditional .conditional
  | alternative : LabelLike .alternative .alternative
  | loop : LabelLike .loop .loop
  | print : LabelLike .print .print
  | definition {x x' : String} {ps ps' : List String} (hx : R.define x x')
    (hps : Forall₂ R.write ps ps') : LabelLike (.definition x ps) (.definition x' ps')
  | function (ps ps' : List String) : LabelLike (.function ps) (.function ps')
  | call {x x' : String} (hx : R.call x x') : LabelLike (.call x) (.call x')

variable {R} {V : α → α' → Prop} {W : β → β' → Prop} {x : Eval α} {x' : Eval α'}
  {k : α → Eval β} {k' : α' → Eval β'}

theorem FormLike.kind_eq {form form' : Form} (h : R.FormLike form form') :
    form.kind = form'.kind := by
  cases h <;> rfl

/-- **Forms are alike if their labels and their children are.** -/
theorem formLike_of_labelLike {form form' : Form} (hlabel : R.LabelLike form.label form'.label)
    (hchildren : Forall₂ R.node form.children form'.children)
    (hfunction : ∀ x x' f f' ps ps' vs vs', form = .definition x f ps vs →
      form' = .definition x' f' ps' vs' → R.function f f') :
    R.FormLike form form' := by
  -- forms of different kinds have labels of different kinds
  cases form <;> cases form' <;> cases hlabel
  case number n => exact .number n
  case lookup hx => exact .lookup hx
  case assignment hx =>
    obtain ⟨hv, -⟩ := List.forall₂_cons.mp hchildren
    exact .assignment hx hv
  case arithmetic op v w v' w' =>
    obtain ⟨hv, hvs⟩ := List.forall₂_cons.mp hchildren
    exact .arithmetic op hv (List.forall₂_cons.mp hvs).1
  case comparison op v w v' w' =>
    obtain ⟨hv, hvs⟩ := List.forall₂_cons.mp hchildren
    exact .comparison op hv (List.forall₂_cons.mp hvs).1
  case conditional v w v' w' =>
    obtain ⟨hv, hvs⟩ := List.forall₂_cons.mp hchildren
    exact .conditional hv (List.forall₂_cons.mp hvs).1
  case alternative u v w u' v' w' =>
    obtain ⟨hu, hvs⟩ := List.forall₂_cons.mp hchildren
    obtain ⟨hv, hvs⟩ := List.forall₂_cons.mp hvs
    exact .alternative hu hv (List.forall₂_cons.mp hvs).1
  case loop v vs v' vs' =>
    obtain ⟨hv, hvs⟩ := List.forall₂_cons.mp hchildren
    exact .loop hv hvs
  case print v v' =>
    obtain ⟨hv, -⟩ := List.forall₂_cons.mp hchildren
    exact .print hv
  case definition x f ps vs x' f' ps' vs' hx hps =>
    exact .definition hx (hfunction x x' f f' ps ps' vs vs' rfl rfl) hps
  case function ps vs ps' vs' => exact .function hchildren
  case call hx => exact .call hx hchildren

/-- A label is like itself if its names are. -/
theorem labelLike_refl {label : Label} (hread : ∀ x, label = .lookup x → R.read x x)
    (hwrite : ∀ x, R.write x x) (hcall : ∀ x, label = .call x → R.call x x)
    (hdefine : ∀ x ps, label = .definition x ps → R.define x x) : R.LabelLike label label := by
  cases label with
  | number n => exact .number n
  | lookup x => exact .lookup (hread x rfl)
  | assignment x => exact .assignment (hwrite x)
  | arithmetic op => exact .arithmetic op
  | comparison op => exact .comparison op
  | conditional => exact .conditional
  | alternative => exact .alternative
  | loop => exact .loop
  | print => exact .print
  | definition x ps =>
    exact .definition (hdefine x ps rfl) (List.forall₂_same.mpr fun p _ => hwrite p)
  | function ps => exact .function ps ps
  | call x => exact .call (hcall x rfl)

/-- Forms are alike if their labels are the same and their children are alike. -/
theorem formLike_of_label {form form' : Form} (hlabel : form.label = form'.label)
    (hchildren : Forall₂ R.node form.children form'.children)
    (hread : ∀ x, form = .lookup x → R.read x x) (hwrite : ∀ x, R.write x x)
    (hcall : ∀ x, R.call x x) (hdefine : ∀ x, R.define x x)
    (hfunction : ∀ x f f' ps vs vs', form = .definition x f ps vs →
      form' = .definition x f' ps vs' → R.function f f') :
    R.FormLike form form' := by
  refine formLike_of_labelLike ?_ hchildren ?_
  · rw [← hlabel]
    refine labelLike_refl (fun x hx => hread x ?_) hwrite (fun x _ => hcall x)
      fun x _ _ => hdefine x
    cases form <;> cases hx
    rfl
  · rintro x x' f f' ps ps' vs vs' rfl rfl
    cases hlabel
    exact hfunction x f f' ps vs vs' rfl rfl

/-- A form is like itself if its parts are. -/
theorem formLike_refl {form : Form} (hnode : ∀ c ∈ form.children, R.node c c)
    (hread : ∀ x, form = .lookup x → R.read x x) (hwrite : ∀ x, R.write x x)
    (hcall : ∀ x, R.call x x) (hdefine : ∀ x, R.define x x)
    (hfunction : ∀ x f ps vs, form = .definition x f ps vs → R.function f f) :
    R.FormLike form form := by
  refine formLike_of_label rfl (List.forall₂_same.mpr hnode) hread hwrite hcall hdefine ?_
  rintro x f f' ps vs vs' rfl hsame
  cases hsame
  exact hfunction x f ps vs rfl

/-! ### What is the same on both sides -/

/-- If names are alike only when they are the same, then so are the lines of a trace. -/
theorem EventLike.eq {e e' : Event} (he : R.EventLike e e') (hwrite : R.write = Eq)
    (hcall : R.call = Eq) (hdefine : R.define = Eq) : e = e' := by
  cases he with
  | visited tag => rfl
  | assigned hx n =>
    rw [hwrite] at hx
    rw [hx]
  | defined hx hps =>
    rw [hdefine] at hx
    rw [hwrite, List.forall₂_eq_eq_eq] at hps
    rw [hx, hps]
  | called hx hps ns =>
    rw [hcall] at hx
    rw [hwrite, List.forall₂_eq_eq_eq] at hps
    rw [hx, hps]

/-- If names are alike only when they are the same, then failures that are alike are worded the
same, whatever the graphs. -/
theorem FailureLike.message_eq {f f' : Failure} (hf : R.FailureLike f f')
    (hread : ∀ x x', R.read x x' → x = x') (hcall : ∀ x x', R.call x x' → x = x')
    (g g' : Graph) : f.message g = f'.message g' := by
  cases hf with
  | undefinedVariable hx _ =>
    obtain rfl := hread _ _ hx
    rfl
  | undefinedFunction hx _ =>
    obtain rfl := hcall _ _ hx
    rfl
  | arityMismatch hx _ _ =>
    obtain rfl := hcall _ _ hx
    rfl
  | same hname => exact Failure.message_eq_of_identifier?_eq_none hname g g'

/-- If names are alike only when they are the same, then failures that are alike tell the same,
apart from the environments that they show. -/
theorem FailureLike.tells_same {f f' : Failure} (hf : R.FailureLike f f')
    (hread : ∀ x x', R.read x x' → x = x') (hcall : ∀ x x', R.call x x' → x = x') (g : Graph) :
    f.kind = f'.kind ∧ f.message g = f'.message g ∧ f.tag = f'.tag
      ∧ f.identifier? = f'.identifier? := by
  have hmessage := hf.message_eq hread hcall g g
  cases hf with
  | undefinedVariable hx _ =>
    obtain rfl := hread _ _ hx
    exact ⟨rfl, hmessage, rfl, rfl⟩
  | undefinedFunction hx _ =>
    obtain rfl := hcall _ _ hx
    exact ⟨rfl, hmessage, rfl, rfl⟩
  | arityMismatch hx _ _ =>
    obtain rfl := hcall _ _ hx
    exact ⟨rfl, hmessage, rfl, rfl⟩
  | same hname => exact ⟨rfl, hmessage, rfl, rfl⟩

/-- Two results that are alike are both values or both halts. -/
theorem ResultLike.cases {r : EStateM.Result Halt Machine α} {r' : EStateM.Result Halt Machine α'}
    (h : R.ResultLike V r r') :
    (∃ a m a' m', r = .ok a m ∧ r' = .ok a' m' ∧ V a a' ∧ R.MachineLike m m')
      ∨ ∃ halt m halt' m', r = .error halt m ∧ r' = .error halt' m' ∧ R.HaltLike halt halt'
        ∧ R.MachineLike m m' := by
  cases r with
  | ok a m =>
    cases r' with
    | ok a' m' => exact .inl ⟨a, m, a', m', rfl, rfl, h⟩
    | error halt' m' => exact h.elim
  | error halt m =>
    cases r' with
    | ok a' m' => exact h.elim
    | error halt' m' => exact .inr ⟨halt, m, halt', m', rfl, rfl, h⟩

/-! ### Steps -/

theorem alike_pure {a : α} {a' : α'} (h : V a a') : R.Alike V (pure a) (pure a') :=
  fun _ _ hm => ⟨h, hm⟩

theorem alike_throw {halt halt' : Halt} (h : R.HaltLike halt halt') :
    R.Alike V (throw halt) (throw halt') :=
  fun _ _ hm => ⟨h, hm⟩

theorem alike_fail {f f' : Failure} (h : R.FailureLike f f') : R.Alike V (fail f) (fail f') :=
  alike_throw (.failure h none)

/-- **Second parts are alike for all values that first parts can give.** -/
theorem Alike.bind (hx : R.Alike V x x') (hk : ∀ a a', V a a' → R.Alike W (k a) (k' a')) :
    R.Alike W (x >>= k) (x' >>= k') := by
  intro m m' hm
  rcases (hx m m' hm).cases with
    ⟨a, m₁, a', m₁', hrun, hrun', hV, hm₁⟩ | ⟨halt, m₁, halt', m₁', hrun, hrun', hH, hm₁⟩
  · rw [Steps.bind_of_ok hrun, Steps.bind_of_ok hrun']
    exact hk a a' hV m₁ m₁' hm₁
  · rw [Steps.bind_of_error hrun, Steps.bind_of_error hrun']
    exact ⟨hH, hm₁⟩

theorem alike_attempt {operation : Except Failure α}
    (h : ∀ f, operation = .error f → f.identifier? = none) :
    R.Alike (· = ·) (attempt operation) (attempt operation) := by
  cases operation with
  | ok a => exact alike_pure rfl
  | error f => exact alike_fail (.same (h f rfl))

theorem alike_changeEnv {change change' : Env → Env}
    (h : ∀ env env', R.env env env' → R.env (change env) (change' env')) :
    R.Alike (· = ·) (changeEnv change) (changeEnv change') :=
  fun _ _ hm => ⟨rfl, h _ _ hm.env, hm.context, hm.log⟩

theorem alike_checkpoint (site : String) :
    R.Alike (· = ·) (checkpoint site) (checkpoint site) := by
  intro m m' hm
  unfold Eval.checkpoint
  rw [← hm.context]
  cases hc : m.context with
  | none => exact ⟨.fault _, hm⟩
  | some c =>
    dsimp only [Context.checkpoint]
    cases hint : c.interruption? site with
    | none => exact ⟨rfl, hm.env, rfl, hm.log⟩
    | some f =>
      exact ⟨.failure (.same (Context.identifier?_of_interruption? hint)) none, hm.env, rfl, hm.log⟩

theorem Alike.inContext (hx : R.Alike V x x') : R.Alike V (inContext x) (inContext x') := by
  intro m m' hm
  unfold Eval.inContext
  rw [← hm.context]
  cases hc : m.context with
  | some c => exact hx m m' hm
  | none =>
    -- both runs are given a default context, and both drop it
    dsimp only
    rcases (hx { m with context := some .default } { m' with context := some .default }
      ⟨hm.env, rfl, hm.log⟩).cases with
      ⟨a, m₁, a', m₁', hrun, hrun', hV, hm₁⟩ | ⟨halt, m₁, halt', m₁', hrun, hrun', hH, hm₁⟩
    · rw [hrun, hrun']
      exact ⟨hV, hm₁.env, rfl, hm₁.log⟩
    · rw [hrun, hrun']
      exact ⟨hH, hm₁.env, rfl, hm₁.log⟩

end Relations

/-! ### Simulations -/

/-- The relations fit together for the steps of a run: names that are alike are bound to what is
alike, and the steps keep environments and logs alike. -/
structure Support (R : Relations) (h h' : Host) : Prop where
  signature {f f' : Callable} : R.function f f' → ∃ ps ps' vs vs', h.graph.HasSignature f ps vs
    ∧ h'.graph.HasSignature f' ps' vs' ∧ Forall₂ R.write ps ps' ∧ Forall₂ R.node vs vs'
  value {env env' : Env} {x x' : String} : R.env env env' → R.read x x' →
    env.value? x = env'.value? x'
  function {env env' : Env} {x x' : String} : R.env env env' → R.call x x' →
    Option.Rel R.function (env.function? x) (env'.function? x')
  setVariable {env env' : Env} {x x' : String} (n : Int) : R.env env env' → R.write x x' →
    R.env (env.setVariable x n) (env'.setVariable x' n)
  define {env env' : Env} {x x' : String} {f f' : Callable} : R.env env env' → R.define x x' →
    R.function f f' → R.env (env.define x f) (env'.define x' f')
  trace {e e' : Event} {log log' : Log} : R.EventLike e e' → R.log log log' →
    R.log (if h.tracing then log.push e else log) (if h'.tracing then log'.push e' else log')
  print (sink : Sink) (n : Int) {log log' : Log} : R.log log log' →
    R.log (log.push (.printed sink n)) (log'.push (.printed sink n))
  nesting : h.nesting = h'.nesting
  rounds : h.rounds = h'.rounds

/-- The relations fit together, and nodes that are alike have forms that are alike. -/
structure Simulation (R : Relations) (h h' : Host) : Prop extends Support R h h' where
  form {v v' : Value} : R.node v v' → ∃ form form', h.graph.HasForm v form
    ∧ h'.graph.HasForm v' form' ∧ R.FormLike form form'

/-! ### Rows of nodes -/

namespace Relations

open Host

variable {R : Relations} {h h' : Host} {self self' : Value → Eval Int} {v v' : Value}
  {vs vs' : List Value}

theorem alike_evalAll (hself : ∀ v v', R.node v v' → R.Alike (· = ·) (self v) (self' v'))
    (hvs : Forall₂ R.node vs vs') :
    R.Alike (· = ·) (evalAll self vs) (evalAll self' vs') := by
  induction hvs with
  | nil => exact alike_pure rfl
  | cons hv _ ih =>
    refine (hself _ _ hv).bind ?_
    rintro n _ rfl
    refine ih.bind ?_
    rintro ns _ rfl
    exact alike_pure rfl

theorem alike_evalEach (hself : ∀ v v', R.node v v' → R.Alike (· = ·) (self v) (self' v'))
    (hvs : Forall₂ R.node vs vs') :
    R.Alike (· = ·) (evalEach self vs) (evalEach self' vs') := by
  induction hvs with
  | nil => exact alike_pure rfl
  | cons hv _ ih => exact (hself _ _ hv).bind fun _ _ _ => ih

theorem alike_evalBody (hself : ∀ v v', R.node v v' → R.Alike (· = ·) (self v) (self' v'))
    (hvs : Forall₂ R.node vs vs') (last : Int) :
    R.Alike (· = ·) (evalBody self last vs) (evalBody self' last vs') := by
  induction hvs generalizing last with
  | nil => exact alike_pure rfl
  | cons hv _ ih =>
    refine (alike_checkpoint _).bind fun _ _ _ => (hself _ _ hv).bind ?_
    rintro n _ rfl
    exact ih n

theorem alike_evalRounds (hself : ∀ v v', R.node v v' → R.Alike (· = ·) (self v) (self' v'))
    (hv : R.node v v') (hvs : Forall₂ R.node vs vs') (rounds : Nat) :
    R.Alike (· = ·) (evalRounds self v vs rounds) (evalRounds self' v' vs' rounds) := by
  induction rounds with
  | zero => exact alike_throw .unfinished
  | succ rounds ih =>
    refine (alike_checkpoint _).bind fun _ _ _ => (hself _ _ hv).bind ?_
    rintro test _ rfl
    split
    · exact alike_pure rfl
    · exact (alike_evalEach hself hvs).bind fun _ _ _ => ih

end Relations

/-! ### The rule for all forms -/

namespace Support

open Relations Host

variable {R : Relations} {h h' : Host} (hS : Support R h h') {self self' : Value → Eval Int}
  {x x' : String} {v v' : Value} {vs vs' : List Value} {form form' : Form}
include hS

theorem alike_trace {e e' : Event} (he : R.EventLike e e') :
    R.Alike (· = ·) (Eval.trace h e) (Eval.trace h' e') := by
  intro m m' hm
  rw [trace_apply, trace_apply]
  exact ⟨rfl, hm.env, hm.context, hS.trace he hm.log⟩

theorem alike_print (n : Int) : R.Alike (· = ·) (Eval.print n) (Eval.print n) := by
  intro m m' hm
  unfold Eval.print
  rw [← hm.context]
  cases hc : m.context with
  | none => exact ⟨.fault _, hm⟩
  | some c => exact ⟨rfl, hm.env, rfl, hS.print c.sink n hm.log⟩

theorem alike_valueOf (hx : R.read x x') :
    R.Alike (· = ·) (h.valueOf (.text x)) (h'.valueOf (.text x')) := by
  intro m m' hm
  rw [valueOf_text, valueOf_text, ← hS.value hm.env hx]
  cases m.env.value? x with
  | some n => exact ⟨rfl, hm⟩
  | none => exact ⟨.failure (.undefinedVariable hx hm.env) none, hm⟩

theorem alike_functionOf (hx : R.call x x') :
    R.Alike R.function (h.functionOf (.text x)) (h'.functionOf (.text x')) := by
  intro m m' hm
  have hfunction := hS.function hm.env hx
  rw [functionOf_text, functionOf_text]
  generalize m.env.function? x = found at hfunction
  generalize m'.env.function? x' = found' at hfunction
  cases hfunction with
  | some hf => exact ⟨hf, hm⟩
  | none => exact ⟨.failure (.undefinedFunction hx hm.env) none, hm⟩

theorem env_bindAll {ps ps' : List String} (hps : Forall₂ R.write ps ps') (ns : List Int)
    {env env' : Env} (henv : R.env env env') :
    R.env (env.bindAll ps ns) (env'.bindAll ps' ns) := by
  induction hps generalizing ns env env' with
  | nil => exact henv
  | cons hp _ ih =>
    cases ns with
    | nil => exact henv
    | cons n ns => exact ih ns (hS.setVariable n henv hp)

/-- Functions that are alike are called alike. -/
theorem alike_apply (hself : ∀ v v', R.node v v' → R.Alike (· = ·) (self v) (self' v'))
    {f f' : Callable} (hx : R.call x x') (hf : R.function f f') (hvs : Forall₂ R.node vs vs') :
    R.Alike (· = ·) (h.apply self x f vs) (h'.apply self' x' f' vs') := by
  obtain ⟨ps, ps', ss, ss', hsignature, hsignature', hps, hss⟩ := hS.signature hf
  rw [apply_of_hasSignature x vs hsignature, apply_of_hasSignature x' vs' hsignature']
  unfold callFunction
  rw [← hvs.length_eq, ← hps.length_eq]
  split
  · exact alike_fail (.arityMismatch hx _ _)
  · refine (alike_evalAll hself hvs).bind ?_
    rintro ns _ rfl
    refine (alike_changeEnv fun env env' => hS.env_bindAll hps ns).bind fun _ _ _ => ?_
    refine (hS.alike_trace (.called hx hps ns)).bind fun _ _ _ => ?_
    exact (alike_evalBody hself hss 0).inContext

/-- **Nodes of forms that are alike do the same**, if all other nodes do. -/
theorem alike_evalForm (hself : ∀ v v', R.node v v' → R.Alike (· = ·) (self v) (self' v'))
    {form form' : Form} (hform : R.FormLike form form') :
    R.Alike (· = ·) (h.evalForm self form) (h'.evalForm self' form') := by
  cases hform with
  | number n => exact alike_pure rfl
  | lookup hx => exact hS.alike_valueOf hx
  | assignment hx hv =>
    refine (hself _ _ hv).bind ?_
    rintro n _ rfl
    refine (alike_changeEnv fun env env' henv => hS.setVariable n henv hx).bind fun _ _ _ => ?_
    exact (hS.alike_trace (.assigned hx n)).bind fun _ _ _ => alike_pure rfl
  | arithmetic op hv hw =>
    refine (hself _ _ hv).bind ?_
    rintro n _ rfl
    refine (hself _ _ hw).bind ?_
    rintro k _ rfl
    refine alike_attempt fun f hf => ?_
    rw [(Arithmetic.compute_eq_error_iff.mp hf).2]
    rfl
  | comparison op hv hw =>
    refine (hself _ _ hv).bind ?_
    rintro n _ rfl
    refine (hself _ _ hw).bind ?_
    rintro k _ rfl
    exact alike_pure rfl
  | conditional hv hw =>
    refine (hself _ _ hv).bind ?_
    rintro test _ rfl
    split
    · exact hself _ _ hw
    · exact alike_pure rfl
  | alternative hu hv hw =>
    refine (hself _ _ hu).bind ?_
    rintro test _ rfl
    split
    · exact hself _ _ hv
    · exact hself _ _ hw
  | loop hv hvs =>
    show R.Alike _ (inContext (evalRounds _ _ _ h.rounds)) (inContext (evalRounds _ _ _ h'.rounds))
    rw [← hS.rounds]
    exact (alike_evalRounds hself hv hvs h.rounds).inContext
  | print hv =>
    refine Alike.inContext ((hself _ _ hv).bind ?_)
    rintro n _ rfl
    exact hS.alike_print n
  | definition hx hf hps =>
    refine (alike_changeEnv fun env env' henv => hS.define henv hx hf).bind fun _ _ _ => ?_
    exact (hS.alike_trace (.defined hx hps)).bind fun _ _ _ => alike_pure rfl
  | function hvs => exact (alike_evalBody hself hvs 0).inContext
  | call hx hvs => exact (hS.alike_functionOf hx).bind fun f f' hf => hS.alike_apply hself hx hf hvs

/-- **Nodes with forms that are alike are evaluated alike**, if all other nodes are. -/
theorem alike_evalNode (hself : ∀ v v', R.node v v' → R.Alike (· = ·) (self v) (self' v'))
    (hform : h.graph.HasForm v form) (hform' : h'.graph.HasForm v' form')
    (hlike : R.FormLike form form') :
    R.Alike (· = ·) (h.evalNode self v) (h'.evalNode self' v') := by
  rw [evalNode_of_hasForm hform, evalNode_of_hasForm hform', hlike.kind_eq]
  exact ((hS.alike_trace (.visited _)).bind fun _ _ _ => hS.alike_evalForm hself hlike).inContext

/-- The two sides blame alike: statements with forms that are alike have the same tag. -/
theorem haltLike_blamed (index : Nat) (hform : h.graph.HasForm v form)
    (hform' : h'.graph.HasForm v' form') (hlike : R.FormLike form form') {halt halt' : Halt}
    (hhalt : R.HaltLike halt halt') :
    R.HaltLike (h.blamed index v halt) (h'.blamed index v' halt') := by
  cases hhalt with
  | failure hf statement => exact .failure hf (some index)
  | fault f => exact .fault f
  | tooDeep =>
    rw [blamed_tooDeep hform, blamed_tooDeep hform', hlike.kind_eq, hS.nesting]
    exact .failure (.same rfl) _
  | unfinished => exact .unfinished

/-- A statement does what its node does, and statements that are alike are blamed alike. -/
theorem alike_runStatement (index : Nat) (hform : h.graph.HasForm v form)
    (hform' : h'.graph.HasForm v' form') (hlike : R.FormLike form form')
    (heval : R.Alike (· = ·) (h.eval h.nesting v) (h'.eval h.nesting v')) :
    R.Alike (· = ·) (h.runStatement index v) (h'.runStatement index v') := by
  intro m m' hm
  rw [runStatement_apply, runStatement_apply, ← hS.nesting]
  rcases (heval m m' hm).cases with
    ⟨n, m₁, n', m₁', hrun, hrun', hn, hm₁⟩ | ⟨halt, m₁, halt', m₁', hrun, hrun', hH, hm₁⟩
  · rw [hrun, hrun']
    exact ⟨hn, hm₁⟩
  · rw [hrun, hrun']
    exact ⟨hS.haltLike_blamed index hform hform' hlike hH, hm₁⟩

end Support

/-! ### Nodes and programs -/

namespace Relations

open Host

variable {R : Relations} {h h' : Host} {vs vs' : List Value}

/-- **Nodes are evaluated alike to any depth** if they are whenever all other nodes are. -/
theorem alike_eval
    (hstep : ∀ self self', (∀ v v', R.node v v' → R.Alike (· = ·) (self v) (self' v')) →
      ∀ v v', R.node v v' → R.Alike (· = ·) (h.evalNode self v) (h'.evalNode self' v'))
    (depth : Nat) : ∀ v v', R.node v v' → R.Alike (· = ·) (h.eval depth v) (h'.eval depth v') := by
  induction depth with
  | zero => exact fun v v' _ => alike_throw .tooDeep
  | succ depth ih => exact hstep (h.eval depth) (h'.eval depth) ih

/-- Rows of statements run alike if their members do. -/
theorem alike_runStatements
    (hstatement : ∀ index v v', R.node v v' →
      R.Alike (· = ·) (h.runStatement index v) (h'.runStatement index v'))
    (hvs : Forall₂ R.node vs vs') (start : Nat) :
    R.Alike (· = ·) (h.runStatements start vs) (h'.runStatements start vs') := by
  induction hvs generalizing start with
  | nil => exact alike_pure rfl
  | @cons v v' _ _ hv _ ih =>
    refine (hstatement start v v' hv).bind ?_
    rintro n _ rfl
    refine (ih (start + 1)).bind ?_
    rintro ns _ rfl
    exact alike_pure rfl

end Relations

namespace Simulation

open Relations Host

variable {R : Relations} {h h' : Host} (hS : Simulation R h h') {vs vs' : List Value}
include hS

/-- **Nodes that are alike are evaluated alike**, to any depth. -/
theorem alike_eval (depth : Nat) (v v' : Value) (hv : R.node v v') :
    R.Alike (· = ·) (h.eval depth v) (h'.eval depth v') := by
  refine Relations.alike_eval (fun self self' hself v v' hv => ?_) depth v v' hv
  obtain ⟨form, form', hform, hform', hlike⟩ := hS.form hv
  exact hS.alike_evalNode hself hform hform' hlike

/-- **Programs that are alike run alike.** -/
theorem alike_runProgram {p p' : Value} (hp : h.graph.items p = .ok vs)
    (hp' : h'.graph.items p' = .ok vs') (hvs : Forall₂ R.node vs vs') :
    R.Alike (· = ·) (h.runProgram p) (h'.runProgram p') := by
  rw [runProgram_eq hp, runProgram_eq hp']
  refine (alike_runStatements (fun index v v' hv => ?_) hvs 0).inContext
  obtain ⟨form, form', hform, hform', hlike⟩ := hS.form hv
  exact hS.alike_runStatement index hform hform' hlike (hS.alike_eval h.nesting v v' hv)

end Simulation

/-! ### Ends of programs -/

/-- Outcomes with the same result or with halts that are alike, on machines that are alike. -/
structure Relations.OutcomeLike (R : Relations) {α : Type} (o o' : Outcome α) : Prop where
  result : (∃ a, o.result = .ok a ∧ o'.result = .ok a)
    ∨ ∃ halt halt', o.result = .error halt ∧ o'.result = .error halt' ∧ R.HaltLike halt halt'
  machine : R.MachineLike o.machine o'.machine

namespace Relations

variable {R : Relations} {h h' : Host} {p p' : Value} {m m' : Machine}

theorem Alike.outcomeLike {α : Type} {x x' : Eval α} (hx : R.Alike (· = ·) x x')
    (hm : R.MachineLike m m') : R.OutcomeLike (x.carryOut m) (x'.carryOut m') := by
  unfold carryOut
  rcases (hx m m' hm).cases with
    ⟨a, m₁, _, m₁', hrun, hrun', rfl, hm₁⟩ | ⟨halt, m₁, halt', m₁', hrun, hrun', hH, hm₁⟩
  · rw [hrun, hrun']
    exact ⟨.inl ⟨a, rfl, rfl⟩, hm₁⟩
  · rw [hrun, hrun']
    exact ⟨.inr ⟨halt, halt', rfl, rfl, hH⟩, hm₁⟩

theorem OutcomeLike.unfinished_iff {α : Type} {o o' : Outcome α} (h : R.OutcomeLike o o') :
    o.result = .error .unfinished ↔ o'.result = .error .unfinished := by
  rcases h.result with ⟨a, ho, ho'⟩ | ⟨halt, halt', ho, ho', hhalt⟩
  · simp [ho, ho']
  · rw [ho, ho']
    cases hhalt <;> simp

/-- Outcomes that are alike, of which the first can halt only with a failure, are the same values
or failures that are alike, at the same statement. -/
theorem OutcomeLike.values_or_failures {α : Type} {o o' : Outcome α} (h : R.OutcomeLike o o')
    (hfails : ∀ halt, o.result = .error halt → ∃ e, halt = .failure e) :
    (∃ a, o.result = .ok a ∧ o'.result = .ok a)
      ∨ ∃ e e', o.result = .error (.failure e) ∧ o'.result = .error (.failure e')
        ∧ R.FailureLike e.failure e'.failure ∧ e.statement = e'.statement := by
  rcases h.result with hsame | ⟨halt, halt', ho, ho', hhalt⟩
  · exact .inl hsame
  · obtain ⟨e, rfl⟩ := hfails halt ho
    cases hhalt with
    | failure hf statement => exact .inr ⟨_, _, ho, ho', hf, rfl⟩

/-- **Runs that are alike come to an end together**, and to ends that are alike. -/
theorem diverges_or_yields (h h' : Host)
    (halike : ∀ rounds, R.Alike (· = ·) (({ h with rounds := rounds } : Host).runProgram p)
      (({ h' with rounds := rounds } : Host).runProgram p')) (hm : R.MachineLike m m') :
    (h.Diverges p m ∧ h'.Diverges p' m')
      ∨ ∃ o o', h.Yields p m o ∧ h'.Yields p' m' o' ∧ R.OutcomeLike o o' := by
  have hlike : ∀ rounds,
      R.OutcomeLike (h.outcomeWithin rounds p m) (h'.outcomeWithin rounds p' m') :=
    fun rounds => (halike rounds).outcomeLike hm
  rcases h.yields_or_diverges p m with ⟨o, hended, enough, henough⟩ | hdiverges
  · -- where the first run has come to its end, so has the second
    have hrun := henough enough (Nat.le_refl _)
    refine .inr ⟨o, h'.outcomeWithin enough p' m', ⟨hended, enough, henough⟩, ?_, ?_⟩
    · refine Host.yields_of_outcomeWithin rfl fun hunfinished => hended ?_
      rw [← hrun]
      exact (hlike enough).unfinished_iff.mpr hunfinished
    · rw [← hrun]
      exact hlike enough
  · exact .inl ⟨hdiverges, fun rounds => (hlike rounds).unfinished_iff.mp (hdiverges rounds)⟩

end Relations

end Treewalk
