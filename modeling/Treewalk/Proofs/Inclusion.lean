import Treewalk.Dynamic
import Treewalk.Proofs.Safety

/-!
## Domains inside domains

A domain can be part of a wider one: its values and its keys are values and keys there, and what
it does not refuse is done there in the same way. Then each of its runs is a run in the wider
domain, unless it comes upon something that only the wider domain knows what to do with. The
integers are part of the loosely typed values, and since the runs of a program that passes
validation refuse nothing, they are the same in both.

* `Domain.Inclusion`: what it means to be part of a wider domain, proved of the integers in
  `Domain.integersIn`.
* `Domain.Inclusion.Mirrors`: one run is the image of another one, unless that one is refused.
* `mirrors_evalKind`, `mirrors_eval`, `mirrors_runProgram`: so it is for nodes and programs.
* `standardOutput_image`, `collected_image`: what is shown is the same.
* `runProgram_dynamic`: programs that pass validation.
-/

namespace Treewalk

/-- An **inclusion** of one domain in another. Where the first one refuses something, the second
one may do with it what it likes. -/
structure Domain.Inclusion (D D' : Domain) where
  /-- What a value is in the wider domain. -/
  val : D.Val → D'.Val
  /-- What a key is in the wider domain. -/
  key : D.Key → D'.Key
  key_injective : Function.Injective key
  literal (v : Value) : D.literal v = .error .wrongType
    ∨ ∃ x, D.literal v = .ok x ∧ D'.literal v = .ok (val x)
  key?_eq_some_iff (v : Value) (k : D.Key) : D'.key? v = some (key k) ↔ D.key? v = some k
  ofInt (n : Int) : D'.ofInt n = val (D.ofInt n)
  isTrue (x : D.Val) : D'.isTrue (val x) = D.isTrue x
  compute (op : Arithmetic) (x y : D.Val) : D.compute op x y = .error (.fault .wrongType)
    ∨ ∃ result, D.compute op x y = .ok result
      ∧ D'.compute op (val x) (val y) = .ok (result.map val)
  compare (op : Comparison) (x y : D.Val) : D.compare op x y = .error (.fault .wrongType)
    ∨ ∃ holds, D.compare op x y = .ok holds ∧ D'.compare op (val x) (val y) = .ok holds
  text (x : D.Val) : D'.text (val x) = D.text x
  isWritable (limit : Nat) (x : D.Val) : D'.isWritable limit (val x) = D.isWritable limit x

namespace Domain.Inclusion

open Eval Host

variable {D D' : Domain} (i : Inclusion D D')

/-! ### Images -/

/-- The image of an environment. -/
def env (env : Env D) : Env D' where
  values := env.values.transport i.key i.val
  functions := env.functions.transport i.key id

/-- The image of a failure. -/
def failure : Failure D → Failure D'
  | .undefinedVariable name env => .undefinedVariable name (i.env env)
  | .undefinedFunction name env => .undefinedFunction name (i.env env)
  | .arityMismatch name expected got => .arityMismatch name expected got
  | .divisionByZero dividend => .divisionByZero (i.val dividend)
  | .cancelled steps site => .cancelled steps site
  | .budgetExhausted budget site => .budgetExhausted budget site
  | .nestedTooDeep limit tag => .nestedTooDeep limit tag

/-- The image of what ends a run. -/
def halt : Halt D → Halt D'
  | .fault f => .fault f
  | .node e => .node e
  | .failure e => .failure ⟨i.failure e.failure, e.statement⟩
  | .tooDeep => .tooDeep
  | .unfinished => .unfinished

/-- The image of an event. -/
def event : Event D → Event D'
  | .printed sink value => .printed sink (i.val value)
  | .visited tag => .visited tag
  | .assigned name value => .assigned name (i.val value)
  | .defined name params => .defined name params
  | .called name bindings => .called name (bindings.map fun b => (b.1, i.val b.2))

/-- The image of a machine. -/
def machine (m : Machine D) : Machine D' where
  env := i.env m.env
  context := m.context
  log := m.log.map i.event

/-- The image of what a run leaves. -/
def result {α β : Type} (f : α → β) :
    EStateM.Result (Halt D) (Machine D) α → EStateM.Result (Halt D') (Machine D') β
  | .ok a m => .ok (f a) (i.machine m)
  | .error halt m => .error (i.halt halt) (i.machine m)

/-- The image of a host. -/
def host (_ : Inclusion D D') (h : Host D) : Host D' :=
  ⟨h.graph, h.tracing, h.nesting, h.writing, h.rounds⟩

theorem env_setVariable (env : Env D) (name : D.Key) (x : D.Val) :
    i.env (env.setVariable name x) = (i.env env).setVariable (i.key name) (i.val x) := by
  rw [Inclusion.env, Env.setVariable, Table.transport_insert i.key_injective]
  rfl

theorem env_define (env : Env D) (name : D.Key) (f : Callable) :
    i.env (env.define name f) = (i.env env).define (i.key name) f := by
  rw [Inclusion.env, Env.define, Table.transport_insert i.key_injective]
  rfl

theorem line_event (e : Event D) : (i.event e).line = e.line := by
  have hbound : (fun b : String × D'.Val => b.1 ++ "=" ++ D'.text b.2) ∘
      (fun b : String × D.Val => (b.1, i.val b.2)) = fun b => b.1 ++ "=" ++ D.text b.2 :=
    funext fun b => congrArg (b.1 ++ "=" ++ ·) (i.text b.2)
  rw [Event.line.eq_def, Event.line.eq_def]
  cases e with
  | printed sink value | assigned name value => simp only [event, i.text]
  | visited tag | defined name params => simp only [event]
  | called name bindings => simp only [event, List.map_map, hbound]

/-- **What a run puts on standard output** is the same for its image. -/
theorem standardOutput_image (log : Log D) :
    Log.standardOutput (log.map i.event) = Log.standardOutput log := by
  have hshown : Event.onStandardOutput ∘ i.event = Event.onStandardOutput := by
    funext e
    have hline := i.line_event e
    cases e with
    | printed sink value =>
      cases sink with
      | standard => exact congrArg (· ++ "\n") hline
      | collector => rfl
    | _ => exact congrArg (· ++ "\n") hline
  rw [Log.standardOutput, Log.standardOutput, Array.toList_map, List.map_map, hshown]

/-- **What a run prints into the collection** is the same for its image. -/
theorem collected_image (log : Log D) :
    Log.collected (log.map i.event) = Log.collected log := by
  have hcollected : Event.collected? ∘ i.event = Event.collected? := by
    funext e
    cases e with
    | printed sink value => cases sink <;> simp [event, Event.collected?, i.text]
    | _ => rfl
  rw [Log.collected, Log.collected, Array.toList_map, List.filterMap_map, hcollected]

/-! ### Mirroring -/

/-- **One run mirrors another one**: from the image of a machine it leaves the image of what the
other one leaves, unless the other one is refused something on the way. -/
def Mirrors {α β : Type} (f : α → β) (x : Eval α D) (y : Eval β D') : Prop :=
  ∀ m, (∃ m', x m = .error (.fault .wrongType) m') ∨ y (i.machine m) = i.result f (x m)

variable {i} {α β γ δ : Type} {f : α → β} {g : γ → δ} {x : Eval α D} {y : Eval β D'}

theorem mirrors_pure (f : α → β) (a : α) : i.Mirrors f (pure a) (pure (f a)) :=
  fun _ => .inr rfl

theorem mirrors_throw (f : α → β) (halt : Halt D) :
    i.Mirrors f (throw halt) (throw (i.halt halt)) :=
  fun _ => .inr rfl

/-- A run that is refused something is mirrored by any run. -/
theorem mirrors_refused (f : α → β) (y : Eval β D') :
    i.Mirrors f (throw (.fault .wrongType)) y :=
  fun m => .inl ⟨m, rfl⟩

theorem Mirrors.bind {k : α → Eval γ D} {k' : β → Eval δ D'} (hx : i.Mirrors f x y)
    (hk : ∀ a, i.Mirrors g (k a) (k' (f a))) : i.Mirrors g (x >>= k) (y >>= k') := by
  intro m
  rcases hx m with ⟨m', hrefused⟩ | himage
  · exact .inl ⟨m', Steps.bind_of_error hrefused⟩
  cases hrun : x m with
  | ok a m' =>
    rw [hrun] at himage
    rw [Steps.bind_of_ok hrun, Steps.bind_of_ok himage]
    exact hk a m'
  | error halt m' =>
    rw [hrun] at himage
    rw [Steps.bind_of_error hrun, Steps.bind_of_error himage]
    exact .inr rfl

theorem Mirrors.ite {p : Prop} [Decidable p] {x' : Eval α D} {y' : Eval β D'}
    (hx : i.Mirrors f x y) (hx' : i.Mirrors f x' y') :
    i.Mirrors f (if p then x else x') (if p then y else y') := by
  split
  · exact hx
  · exact hx'

theorem mirrors_read (reading : Except Fault α) :
    i.Mirrors id (read reading) (read reading) := by
  cases reading with
  | ok a => exact mirrors_pure id a
  | error fault => exact mirrors_throw id (.fault fault)

theorem mirrors_fail (f : α → β) (failure : Failure D) :
    i.Mirrors f (fail failure) (fail (i.failure failure)) :=
  mirrors_throw f (.failure ⟨failure, none⟩)

theorem mirrors_operate {operation : Except Refusal α} {operation' : Except Refusal β}
    (h : operation = .error (.fault .wrongType)
      ∨ ∃ a, operation = .ok a ∧ operation' = .ok (f a)) :
    i.Mirrors f (operate operation) (operate operation') := by
  rcases h with rfl | ⟨a, rfl, rfl⟩
  · exact mirrors_refused f _
  · exact mirrors_pure f a

theorem mirrors_env : i.Mirrors i.env Eval.env Eval.env :=
  fun _ => .inr rfl

theorem mirrors_changeEnv {change : Env D → Env D} {change' : Env D' → Env D'}
    (h : ∀ env, i.env (change env) = change' (i.env env)) :
    i.Mirrors id (changeEnv change) (changeEnv change') := by
  intro m
  refine .inr ?_
  rw [changeEnv, changeEnv, result, machine, machine, h]

theorem mirrors_emit (e : Event D) : i.Mirrors id (emit e) (emit (i.event e)) := by
  intro m
  refine .inr ?_
  simp [emit, result, machine]

theorem Mirrors.inContext (hx : i.Mirrors f x y) : i.Mirrors f (inContext x) (inContext y) := by
  rintro ⟨env, context, log⟩
  cases context with
  | some c => exact hx ⟨env, some c, log⟩
  | none =>
    -- both runs are given a default context, which is dropped on both sides
    rcases hx ⟨env, some .default, log⟩ with ⟨m', hrefused⟩ | himage
    · exact .inl ⟨{ m' with context := none }, by rw [Eval.inContext, hrefused]⟩
    · refine .inr ?_
      rw [Eval.inContext, Eval.inContext]
      dsimp only [machine]
      rw [show y ⟨i.env env, some .default, log.map i.event⟩ = _ from himage]
      cases x ⟨env, some .default, log⟩ <;> rfl

theorem mirrors_checkpoint (site : String) :
    i.Mirrors id (checkpoint site) (checkpoint site) := by
  rintro ⟨env, context, log⟩
  cases context with
  | none => exact .inl ⟨_, rfl⟩
  | some c =>
    have hsame : c.interruption? site D' = (c.interruption? site D).map i.failure := by
      unfold Context.interruption?
      split
      · rfl
      · split
        · split <;> rfl
        · rfl
    refine .inr ?_
    cases hc : c.interruption? site D with
    | none =>
      rw [hc] at hsame
      rw [checkpoint_of_none rfl hc, checkpoint_of_none rfl hsame]
      rfl
    | some f =>
      rw [hc] at hsame
      rw [checkpoint_of_some rfl hc, checkpoint_of_some rfl hsame]
      rfl

theorem mirrors_print (value : D.Val) :
    i.Mirrors i.val (print value) (print (i.val value)) := by
  rintro ⟨env, context, log⟩
  cases context with
  | none => exact .inl ⟨_, rfl⟩
  | some c =>
    refine .inr ?_
    simp [print, result, machine, event, i.ofInt]

/-! ### Steps of nodes -/

variable (h : Host D)

theorem mirrors_plain (v : Value) : i.Mirrors id (h.plain v) ((i.host h).plain v) := by
  unfold Host.plain
  exact (mirrors_pure id _).ite (mirrors_throw id .tooDeep)

theorem mirrors_checkRoom (x : D.Val) :
    i.Mirrors id (h.checkRoom x) ((i.host h).checkRoom (i.val x)) := by
  unfold Host.checkRoom
  rw [i.isWritable]
  exact (mirrors_pure id ()).ite (mirrors_throw id .tooDeep)

theorem mirrors_objectTo (f : α → β) (issue : Issue) (node : Value) :
    i.Mirrors f (h.objectTo issue node) ((i.host h).objectTo issue node) := by
  unfold Host.objectTo
  exact (mirrors_throw f (.node ⟨issue, some node, none⟩)).ite (mirrors_throw f .tooDeep)

theorem mirrors_failNaming (f : α → β) (name : Value) (failure : Failure D) :
    i.Mirrors f (h.failNaming name failure) ((i.host h).failNaming name (i.failure failure)) := by
  unfold Host.failNaming
  exact (mirrors_fail f failure).ite (mirrors_throw f .tooDeep)

/-- **A lookup finds the image of what is found**, if the images are where they should be. -/
theorem mirrors_lookUp {find : D.Key → Option α} {find' : D'.Key → Option β}
    (hfind : ∀ k, find' (i.key k) = (find k).map f)
    (hnone : ∀ k', (∀ k, i.key k ≠ k') → find' k' = none) (name : Value) :
    i.Mirrors (Option.map f) (h.lookUp find name) ((i.host h).lookUp find' name) := by
  have hsame : (D'.key? name).bind find' = ((D.key? name).bind find).map f := by
    cases hkey : D.key? name with
    | some k => rw [(i.key?_eq_some_iff name k).mpr hkey, Option.bind_some, Option.bind_some, hfind]
    | none =>
      cases hkey' : D'.key? name with
      | none => rfl
      | some k' =>
        refine hnone k' fun k hk => ?_
        rw [← hk, i.key?_eq_some_iff, hkey] at hkey'
        cases hkey'
  unfold Host.lookUp Graph.lookUpBy
  rw [hsame]
  show i.Mirrors _ _ (read (if h.graph.isKey name then _ else _))
  split
  · exact mirrors_pure _ _
  · exact mirrors_throw _ (.fault .wrongType)

theorem mirrors_bindingKey (name : Value) :
    i.Mirrors i.key (h.bindingKey name) ((i.host h).bindingKey name) := by
  unfold Host.bindingKey Domain.bindingKey Graph.lookUpBy
  show i.Mirrors _ _ (read ((if h.graph.isKey name then _ else _) >>= _))
  split
  · cases hkey : D.key? name with
    | some k =>
      rw [(i.key?_eq_some_iff name k).mpr hkey]
      exact mirrors_pure i.key k
    | none => exact mirrors_refused i.key _
  · exact mirrors_refused i.key _

theorem mirrors_valueOf (name : Value) :
    i.Mirrors i.val (h.valueOf name) ((i.host h).valueOf name) := by
  refine mirrors_env.bind fun env => ?_
  refine (mirrors_lookUp h (f := i.val) (fun k => ?_) (fun k' hk' => ?_) name).bind fun found => ?_
  · exact Table.get?_transport i.key_injective i.val env.values k
  · exact Table.get?_transport_of_notMem i.val env.values hk'
  · cases found with
    | some x => exact mirrors_pure i.val x
    | none => exact mirrors_failNaming h i.val name (.undefinedVariable name env)

theorem mirrors_functionOf (name : Value) :
    i.Mirrors id (h.functionOf name) ((i.host h).functionOf name) := by
  refine mirrors_env.bind fun env => ?_
  refine (mirrors_lookUp h (f := id) (fun k => ?_) (fun k' hk' => ?_) name).bind fun found => ?_
  · exact Table.get?_transport i.key_injective id env.functions k
  · exact Table.get?_transport_of_notMem id env.functions hk'
  · cases found with
    | some f => exact mirrors_pure id f
    | none => exact mirrors_failNaming h id name (.undefinedFunction name env)

theorem mirrors_compute (op : Arithmetic) (x y : D.Val) :
    i.Mirrors i.val (h.compute op x y) ((i.host h).compute op (i.val x) (i.val y)) := by
  refine (mirrors_operate (f := Option.map i.val) (i.compute op x y)).bind fun found => ?_
  cases found with
  | some value => exact mirrors_pure i.val value
  | none =>
    exact (mirrors_checkRoom h x).bind fun _ => mirrors_fail i.val (.divisionByZero x)

theorem mirrors_compare (op : Comparison) (x y : D.Val) :
    i.Mirrors i.val (Host.compare op x y) (Host.compare op (i.val x) (i.val y)) := by
  refine (mirrors_operate (f := id) (i.compare op x y)).bind fun holds => ?_
  show i.Mirrors i.val _ (pure (D'.ofInt (if holds then 1 else 0)))
  rw [i.ofInt]
  exact mirrors_pure i.val _

/-! ### Trace lines -/

theorem mirrors_traceVisit (tag : Value) :
    i.Mirrors id (h.traceVisit tag) ((i.host h).traceVisit tag) := by
  unfold Host.traceVisit
  refine Mirrors.ite ?_ (mirrors_pure id ())
  exact (mirrors_plain h tag).bind fun written => mirrors_emit (.visited written)

theorem mirrors_traceAssignment (name : Value) (x : D.Val) :
    i.Mirrors id (h.traceAssignment name x) ((i.host h).traceAssignment name (i.val x)) := by
  unfold Host.traceAssignment
  refine Mirrors.ite ((mirrors_plain h name).bind fun written => ?_) (mirrors_pure id ())
  exact (mirrors_checkRoom h x).bind fun _ => mirrors_emit (.assigned written x)

theorem mirrors_traceDefinition (name params : Value) :
    i.Mirrors id (h.traceDefinition name params) ((i.host h).traceDefinition name params) := by
  unfold Host.traceDefinition
  refine Mirrors.ite ((mirrors_read _).bind fun items => ?_) (mirrors_pure id ())
  refine (mirrors_read _).bind fun names => (mirrors_plain h name).bind fun written => ?_
  exact mirrors_emit (.defined written names)

theorem mirrors_shownBindings (params : List Value) (xs : List D.Val) :
    i.Mirrors (List.map fun b => (b.1, i.val b.2)) (shownBindings h.plain h.checkRoom params xs)
      (shownBindings (i.host h).plain (i.host h).checkRoom params (xs.map i.val)) := by
  induction params generalizing xs with
  | nil => exact mirrors_pure _ []
  | cons param params ih =>
    cases xs with
    | nil => exact mirrors_pure _ []
    | cons x xs =>
      refine (mirrors_plain h param).bind fun name => (mirrors_checkRoom h x).bind fun _ => ?_
      exact (ih xs).bind fun rest => mirrors_pure _ ((name, x) :: rest)

theorem mirrors_traceCall (name : Value) (params : List Value) (xs : List D.Val) :
    i.Mirrors id (h.traceCall name params xs)
      ((i.host h).traceCall name params (xs.map i.val)) := by
  unfold Host.traceCall
  refine Mirrors.ite ((mirrors_shownBindings h params xs).bind fun bindings => ?_)
    (mirrors_pure id ())
  exact (mirrors_plain h name).bind fun written => mirrors_emit (.called written bindings)

/-! ### Sequences -/

theorem mirrors_bindAll (params : List Value) (xs : List D.Val) :
    i.Mirrors id (bindAll h.bindingKey params xs)
      (bindAll (i.host h).bindingKey params (xs.map i.val)) := by
  induction params generalizing xs with
  | nil => exact mirrors_pure id ()
  | cons param params ih =>
    cases xs with
    | nil => exact mirrors_pure id ()
    | cons x xs =>
      refine (mirrors_bindingKey h param).bind fun key => ?_
      exact (mirrors_changeEnv fun env => i.env_setVariable env key x).bind fun _ => ih xs

section

variable {self : Value → Eval D.Val D} {self' : Value → Eval D'.Val D'}
  (hself : ∀ v, i.Mirrors i.val (self v) (self' v))
include hself

theorem mirrors_evalAll (vs : List Value) :
    i.Mirrors (List.map i.val) (evalAll self vs) (evalAll self' vs) := by
  induction vs with
  | nil => exact mirrors_pure _ []
  | cons v vs ih =>
    exact (hself v).bind fun x => ih.bind fun xs => mirrors_pure _ (x :: xs)

theorem mirrors_evalEach (vs : List Value) :
    i.Mirrors id (evalEach self vs) (evalEach self' vs) := by
  induction vs with
  | nil => exact mirrors_pure id ()
  | cons v vs ih => exact (hself v).bind fun _ => ih

theorem mirrors_evalBody (vs : List Value) (last : D.Val) :
    i.Mirrors i.val (evalBody self last vs) (evalBody self' (i.val last) vs) := by
  induction vs generalizing last with
  | nil => exact mirrors_pure i.val last
  | cons v vs ih =>
    exact (mirrors_checkpoint _).bind fun _ => (hself v).bind fun x => ih x

theorem mirrors_runBody (body : Except Fault Value) :
    i.Mirrors i.val (h.runBody self body) ((i.host h).runBody self' body) := by
  refine ((mirrors_read body).bind fun b => (mirrors_read _).bind fun vs => ?_).inContext
  rw [i.ofInt]
  exact mirrors_evalBody hself vs (D.ofInt 0)

/-- The rounds of a loop, by induction on those that are followed. -/
theorem mirrors_iterate (condition body : Value) (rounds : Nat) :
    i.Mirrors i.val (h.iterate self condition body rounds)
      ((i.host h).iterate self' condition body rounds) := by
  induction rounds with
  | zero => exact mirrors_throw i.val .unfinished
  | succ rounds ih =>
    refine (mirrors_checkpoint _).bind fun _ => (hself condition).bind fun test => ?_
    rw [i.isTrue, i.ofInt]
    refine Mirrors.ite ((mirrors_read _).bind fun vs => ?_) (mirrors_pure i.val _)
    exact (mirrors_evalEach hself vs).bind fun _ => ih

/-! ### Nodes -/

theorem mirrors_evalOperands (v : Value) :
    i.Mirrors (fun parts => (parts.1, i.val parts.2.1, i.val parts.2.2)) (h.evalOperands self v)
      ((i.host h).evalOperands self' v) := by
  refine (mirrors_read _).bind fun payload => (mirrors_read _).bind fun op => ?_
  refine (mirrors_read _).bind fun left => (hself left).bind fun x => ?_
  refine (mirrors_read _).bind fun right => (hself right).bind fun y => ?_
  exact mirrors_pure _ (op, x, y)

theorem mirrors_evalCall (v : Value) :
    i.Mirrors i.val (h.evalCall self v) ((i.host h).evalCall self' v) := by
  refine (mirrors_read _).bind fun payload => (mirrors_read _).bind fun target => ?_
  refine (mirrors_read _).bind fun args => (mirrors_functionOf h target).bind fun function => ?_
  refine (mirrors_read _).bind fun params => (mirrors_read _).bind fun got => ?_
  refine (mirrors_read _).bind fun expected => ?_
  refine (mirrors_failNaming h i.val target (.arityMismatch target expected got)).ite ?_
  refine (mirrors_read _).bind fun vs => (mirrors_evalAll hself vs).bind fun values => ?_
  refine (mirrors_read _).bind fun names => (mirrors_bindAll h names values).bind fun _ => ?_
  exact (mirrors_traceCall h target names values).bind fun _ => mirrors_runBody h hself _

/-- **What a node of a given kind does is mirrored** if what all other nodes do is. -/
theorem mirrors_evalKind (kind : Kind) (v : Value) :
    i.Mirrors i.val (h.evalKind self kind v) ((i.host h).evalKind self' kind v) := by
  cases kind with
  | number =>
    refine (mirrors_read _).bind fun payload => ?_
    rcases i.literal payload with hrefused | ⟨x, hx, hx'⟩
    · rw [hrefused]
      exact mirrors_refused i.val _
    · rw [hx, id_eq, hx']
      exact mirrors_pure i.val x
  | lookup => exact (mirrors_read _).bind fun payload => mirrors_valueOf h payload
  | assignment =>
    refine (mirrors_read _).bind fun payload => (mirrors_read _).bind fun target => ?_
    refine (mirrors_read _).bind fun expr => (hself expr).bind fun value => ?_
    refine (mirrors_bindingKey h target).bind fun key => ?_
    refine (mirrors_changeEnv fun env => i.env_setVariable env key value).bind fun _ => ?_
    exact (mirrors_traceAssignment h target value).bind fun _ => mirrors_pure i.val value
  | arithmetic =>
    refine (mirrors_evalOperands h hself v).bind fun ⟨op, x, y⟩ => ?_
    refine (mirrors_read _).bind fun found => ?_
    cases found with
    | some known => exact mirrors_compute h known x y
    | none => exact mirrors_objectTo h i.val _ v
  | comparison =>
    refine (mirrors_evalOperands h hself v).bind fun ⟨op, x, y⟩ => ?_
    refine (mirrors_read _).bind fun found => ?_
    cases found with
    | some known => exact mirrors_compare known x y
    | none => exact mirrors_objectTo h i.val _ v
  | conditional =>
    refine (mirrors_read _).bind fun payload => (mirrors_read _).bind fun condition => ?_
    refine (hself condition).bind fun test => ?_
    rw [i.isTrue, i.ofInt]
    exact ((mirrors_read _).bind fun body => hself body).ite (mirrors_pure i.val _)
  | alternative =>
    refine (mirrors_read _).bind fun payload => (mirrors_read _).bind fun condition => ?_
    refine (hself condition).bind fun test => ?_
    rw [i.isTrue]
    exact ((mirrors_read _).bind fun body => hself body).ite
      ((mirrors_read _).bind fun otherwise => hself otherwise)
  | loop =>
    refine ((mirrors_read _).bind fun payload => ?_).inContext
    refine (mirrors_read _).bind fun condition => (mirrors_read _).bind fun body => ?_
    exact mirrors_iterate h hself condition body h.rounds
  | print =>
    refine ((mirrors_read _).bind fun payload => (hself payload).bind fun x => ?_).inContext
    exact (mirrors_checkRoom h x).bind fun _ => mirrors_print x
  | definition =>
    refine (mirrors_read _).bind fun payload => (mirrors_read _).bind fun target => ?_
    refine (mirrors_read _).bind fun params => (mirrors_read _).bind fun body => ?_
    refine (mirrors_bindingKey h target).bind fun key => ?_
    refine (mirrors_changeEnv fun env => i.env_define env key _).bind fun _ => ?_
    refine (mirrors_traceDefinition h target params).bind fun _ => ?_
    rw [i.ofInt]
    exact mirrors_pure i.val _
  | function => exact mirrors_runBody h hself _
  | call => exact mirrors_evalCall h hself v

theorem mirrors_evalNode (v : Value) :
    i.Mirrors i.val (h.evalNode self v) ((i.host h).evalNode self' v) := by
  refine ((mirrors_read _).bind fun tag => (mirrors_traceVisit h tag).bind fun _ => ?_).inContext
  rw [id_eq]
  cases tag.text?.bind Kind.ofName? with
  | some kind => exact mirrors_evalKind h hself kind v
  | none => exact mirrors_objectTo h i.val _ v

end

/-- **The evaluation of a node is mirrored**, to any depth. -/
theorem mirrors_eval (depth : Nat) (v : Value) :
    i.Mirrors i.val (h.eval depth v) ((i.host h).eval depth v) := by
  induction depth generalizing v with
  | zero => exact mirrors_throw i.val .tooDeep
  | succ depth ih => exact mirrors_evalNode h ih v

/-! ### Programs -/

/-- A rescued run is mirrored if the one that rescues it is, and lets refusals pass. -/
theorem Mirrors.rescue {handler : Halt D → Eval α D} {handler' : Halt D' → Eval β D'}
    (hx : i.Mirrors f x y) (hpasses : handler (.fault .wrongType) = throw (.fault .wrongType))
    (hhandler : ∀ halt, i.Mirrors f (handler halt) (handler' (i.halt halt))) :
    i.Mirrors f (rescue x handler) (rescue y handler') := by
  intro m
  rcases hx m with ⟨m', hrefused⟩ | himage
  · exact .inl ⟨m', by rw [Eval.rescue, hrefused]; exact congrFun hpasses m'⟩
  · rw [Eval.rescue, Eval.rescue, himage]
    cases hrun : x m with
    | ok a m' => exact .inr rfl
    | error halt m' => exact hhandler halt m'

theorem mirrors_runStatement (index : Nat) (v : Value) :
    i.Mirrors i.val (h.runStatement index v) ((i.host h).runStatement index v) := by
  refine (mirrors_eval h h.nesting v).rescue rfl fun halt => ?_
  cases halt with
  | tooDeep =>
    exact (mirrors_read _).bind fun tag =>
      mirrors_throw i.val (.failure ⟨.nestedTooDeep h.nesting tag, some index⟩)
  | fault fault => exact mirrors_throw i.val (.fault fault)
  | node e => exact mirrors_throw i.val (.node (e.atStatement index))
  | failure e => exact mirrors_throw i.val (.failure (e.atStatement index))
  | unfinished => exact mirrors_throw i.val .unfinished

theorem mirrors_runStatements (start : Nat) (vs : List Value) :
    i.Mirrors (List.map i.val) (h.runStatements start vs)
      ((i.host h).runStatements start vs) := by
  induction vs generalizing start with
  | nil => exact mirrors_pure _ []
  | cons v vs ih =>
    refine (mirrors_runStatement h start v).bind fun x => (ih (start + 1)).bind fun xs => ?_
    exact mirrors_pure _ (x :: xs)

/-- **The run of a program is mirrored** in the wider domain. -/
theorem mirrors_runProgram (program : Value) :
    i.Mirrors (List.map i.val) (h.runProgram program) ((i.host h).runProgram program) :=
  ((mirrors_read _).bind fun vs => mirrors_runStatements h 0 vs).inContext

end Domain.Inclusion

/-! ### The integers among the loosely typed values -/

namespace Domain

/-- **The integers are part of the loosely typed values.** -/
def integersIn (g : Graph) (others : Foreign) : Inclusion .integers (.dynamic g others) where
  val := .int
  key s := [.text s]
  key_injective s t hst := by simpa using hst
  literal v := by
    cases v with
    | int n => exact .inr ⟨n, rfl, rfl⟩
    | _ => exact .inl rfl
  key?_eq_some_iff v s := by
    rw [Option.some_inj, Graph.keyOf_eq_text_iff]
    cases v <;> simp [Value.text?]
  ofInt _ := rfl
  isTrue _ := rfl
  compute op m n := .inr ⟨op.apply m n, rfl, rfl⟩
  compare op m n := .inr ⟨op.holds m n, rfl, rfl⟩
  text _ := rfl
  isWritable limit _ := by
    cases limit <;> rfl

end Domain

/-- **Programs that pass validation do the same over the loosely typed values** as they do over
the integers, in an environment whose functions pass validation. -/
theorem Host.runProgram_dynamic (h : Host) (others : Foreign) (program : Value) (m : Machine)
    (tracing : Bool) (depth : Nat)
    (hvalid : (h.graph.validateProgram tracing depth program).1 = .ok ())
    (hfunctions : h.graph.AcceptsFunctions m.env) :
    ((Domain.integersIn h.graph others).host h).runProgram program
        ((Domain.integersIn h.graph others).machine m)
      = (Domain.integersIn h.graph others).result (List.map .int) (h.runProgram program m) := by
  refine (Domain.Inclusion.mirrors_runProgram h program m).resolve_left ?_
  rintro ⟨m', hrefused⟩
  obtain ⟨statements, hitems, hstatements⟩ := Graph.exists_wellFormed_of_validateProgram hvalid
  have hlands := lands_inContext (h.safe_runStatements_of_wellFormed hstatements 0) trivial
    hfunctions
  rw [runProgram_eq hitems] at hrefused
  rw [hrefused] at hlands
  exact hlands.1

end Treewalk
