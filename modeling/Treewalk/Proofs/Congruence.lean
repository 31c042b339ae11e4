import Treewalk.Evaluation.Program

/-!
## Congruences of runs

What a node does is put together from few steps: looking names up, binding them, recording events,
checkpoints, printing, and ends without a result. So a relation between runs that holds between
each of these steps and itself, and that passes from the parts of a run to the whole, holds between
the evaluations of a node, well formed or not, whenever it holds between the evaluations of all
other nodes. The two sides may differ in the limits of their hosts.

A `Congruence` is asked about the steps that nodes take and about no others: the environment is
shown where a name is missed, and it changes by bindings. Some of these steps need a context, and
a `PlainCongruence` is not asked about them. A `StepCongruence` is asked about reading the
environment and about changing it in any way, and so is a `PlainStepCongruence`.

* `StepCongruence.congruence`: then the steps that nodes take are among those.
* `Host.evalKind_congr_of_parts`: the rule for a kind, with all that needs a context left open.
* `Host.evalKind_congr`, `Host.evalNode_congr`: the rule, with the rounds of a loop left open.
* `Host.eval_congr_of_le`: evaluation under limits and under wider ones, for relations that hold
  between giving up and going on.
* `Host.eval_congr`: evaluation to any depth, for relations that hold between runs that give up.
* `Host.runProgram_congr`: programs, for relations that hold between statements.
-/

namespace Treewalk

open Eval

variable {D : Domain}

/-- The environment that a halt shows. -/
def Halt.env? : Halt D → Option (Env D)
  | .failure e => e.failure.env?
  | _ => none

/-- A relation between runs that holds between the steps that nodes take without a context, and that
passes from the parts to the whole. -/
structure PlainCongruence (R : ∀ {α : Type}, Eval α D → Eval α D → Prop) : Prop where
  pure {α : Type} (a : α) : R (pure a) (pure a)
  throw {α : Type} (halt : Halt D) : halt ≠ .unfinished → halt.env? = none →
    R (throw halt : Eval α D) (throw halt)
  bind {α β : Type} {x y : Eval α D} {f g : α → Eval β D} :
    R x y → (∀ a, R (f a) (g a)) → R (x >>= f) (y >>= g)
  valueOf (h : Host D) (name : Value) : R (h.valueOf name) (h.valueOf name)
  functionOf (h : Host D) (name : Value) : R (h.functionOf name) (h.functionOf name)
  setVariable (name : D.Key) (x : D.Val) :
    R (changeEnv (·.setVariable name x)) (changeEnv (·.setVariable name x))
  define (name : D.Key) (f : Callable) :
    R (changeEnv (·.define name f)) (changeEnv (·.define name f))
  emit (e : Event D) : R (emit e) (emit e)

/-- A relation between runs that holds between the steps that nodes take, and that passes from the
parts to the whole. -/
structure Congruence (R : ∀ {α : Type}, Eval α D → Eval α D → Prop) : Prop
    extends PlainCongruence R where
  inContext {α : Type} {x y : Eval α D} : R x y → R (inContext x) (inContext y)
  checkpoint (site : String) : R (checkpoint site) (checkpoint site)
  print (value : D.Val) : R (print value) (print value)

/-- A relation between runs that holds between whatever reads the environment, changes it or ends a
run, and that passes from the parts to the whole. -/
structure PlainStepCongruence (R : ∀ {α : Type}, Eval α D → Eval α D → Prop) : Prop where
  pure {α : Type} (a : α) : R (pure a) (pure a)
  throw {α : Type} (halt : Halt D) : halt ≠ .unfinished → R (throw halt : Eval α D) (throw halt)
  bind {α β : Type} {x y : Eval α D} {f g : α → Eval β D} :
    R x y → (∀ a, R (f a) (g a)) → R (x >>= f) (y >>= g)
  env : R env env
  changeEnv (change : Env D → Env D) : R (changeEnv change) (changeEnv change)
  emit (e : Event D) : R (emit e) (emit e)

/-- So it is, and it also holds between what looks at the context. -/
structure StepCongruence (R : ∀ {α : Type}, Eval α D → Eval α D → Prop) : Prop
    extends PlainStepCongruence R where
  inContext {α : Type} {x y : Eval α D} : R x y → R (inContext x) (inContext y)
  checkpoint (site : String) : R (checkpoint site) (checkpoint site)
  print (value : D.Val) : R (print value) (print value)

namespace PlainStepCongruence

variable {R : ∀ {α : Type}, Eval α D → Eval α D → Prop} (hR : PlainStepCongruence R) {α : Type}
include hR

theorem read (reading : Except Fault α) : R (read reading) (read reading) := by
  cases reading with
  | ok a => exact hR.pure a
  | error f => exact hR.throw (.fault f) (by simp)

theorem failNaming (h : Host D) (name : Value) (f : Failure D) :
    R (h.failNaming name f : Eval α D) (h.failNaming name f) := by
  unfold Host.failNaming
  split
  · exact hR.throw (.failure ⟨f, none⟩) (by simp)
  · exact hR.throw .tooDeep (by simp)

/-- **The steps that nodes take without a context are among those** that a `PlainStepCongruence` is
asked about. -/
theorem plainCongruence : PlainCongruence R where
  pure := hR.pure
  throw halt hfinished _ := hR.throw halt hfinished
  bind := hR.bind
  valueOf h name := by
    refine hR.bind hR.env fun env => hR.bind (hR.read _) fun found => ?_
    cases found with
    | some x => exact hR.pure x
    | none => exact hR.failNaming h name _
  functionOf h name := by
    refine hR.bind hR.env fun env => hR.bind (hR.read _) fun found => ?_
    cases found with
    | some f => exact hR.pure f
    | none => exact hR.failNaming h name _
  setVariable _ _ := hR.changeEnv _
  define _ _ := hR.changeEnv _
  emit := hR.emit

end PlainStepCongruence

/-- **The steps that nodes take are among those** that a `StepCongruence` is asked about. -/
theorem StepCongruence.congruence {R : ∀ {α : Type}, Eval α D → Eval α D → Prop}
    (hR : StepCongruence R) : Congruence R where
  toPlainCongruence := hR.plainCongruence
  inContext := hR.inContext
  checkpoint := hR.checkpoint
  print := hR.print

namespace PlainCongruence

variable {R : ∀ {α : Type}, Eval α D → Eval α D → Prop} (hR : PlainCongruence R) {α : Type}
include hR

/-! ### Steps -/

theorem read (reading : Except Fault α) : R (read reading) (read reading) := by
  cases reading with
  | ok a => exact hR.pure a
  | error f => exact hR.throw (.fault f) (by simp) rfl

/-- A failure that shows no environment. -/
theorem fail {f : Failure D} (h : f.env? = none) : R (fail f : Eval α D) (fail f) :=
  hR.throw (.failure ⟨f, none⟩) (by simp) h

/-- A failure of a name that shows no environment. -/
theorem failNaming (h : Host D) (name : Value) {f : Failure D} (hf : f.env? = none) :
    R (h.failNaming name f : Eval α D) (h.failNaming name f) := by
  unfold Host.failNaming
  split
  · exact hR.fail hf
  · exact hR.throw .tooDeep (by simp) rfl

theorem operate (operation : Except Refusal α) : R (operate operation) (operate operation) := by
  match operation with
  | .ok a => exact hR.pure a
  | .error (.fault f) => exact hR.throw (.fault f) (by simp) rfl
  | .error .tooDeep => exact hR.throw .tooDeep (by simp) rfl

theorem plain (h : Host D) (v : Value) : R (h.plain v) (h.plain v) := by
  unfold Host.plain
  split
  · exact hR.pure _
  · exact hR.throw .tooDeep (by simp) rfl

theorem checkRoom (h : Host D) (x : D.Val) : R (h.checkRoom x) (h.checkRoom x) := by
  unfold Host.checkRoom
  split
  · exact hR.pure ()
  · exact hR.throw .tooDeep (by simp) rfl

theorem compute (h : Host D) (op : Arithmetic) (x y : D.Val) :
    R (h.compute op x y) (h.compute op x y) := by
  refine hR.bind (hR.operate _) fun result => ?_
  cases result with
  | some value => exact hR.pure value
  | none => exact hR.bind (hR.checkRoom h x) fun _ => hR.fail rfl

theorem compare (op : Comparison) (x y : D.Val) :
    R (Host.compare op x y) (Host.compare op x y) :=
  hR.bind (hR.operate _) fun _ => hR.pure _

theorem objectTo (h : Host D) (issue : Issue) (node : Value) :
    R (h.objectTo issue node : Eval α D) (h.objectTo issue node) := by
  unfold Host.objectTo
  split
  · exact hR.throw (.node ⟨issue, some node, none⟩) (by simp) rfl
  · exact hR.throw .tooDeep (by simp) rfl

theorem traceVisit (h : Host D) (tag : Value) : R (h.traceVisit tag) (h.traceVisit tag) := by
  unfold Host.traceVisit
  split
  · exact hR.bind (hR.plain h tag) fun _ => hR.emit _
  · exact hR.pure ()

theorem traceAssignment (h : Host D) (name : Value) (x : D.Val) :
    R (h.traceAssignment name x) (h.traceAssignment name x) := by
  unfold Host.traceAssignment
  split
  · refine hR.bind (hR.plain h name) fun written => ?_
    exact hR.bind (hR.checkRoom h x) fun _ => hR.emit _
  · exact hR.pure ()

theorem traceDefinition (h : Host D) (name params : Value) :
    R (h.traceDefinition name params) (h.traceDefinition name params) := by
  unfold Host.traceDefinition
  split
  · refine hR.bind (hR.read _) fun items => hR.bind (hR.read _) fun names => ?_
    exact hR.bind (hR.plain h name) fun _ => hR.emit _
  · exact hR.pure ()

theorem shownBindings (h : Host D) (params : List Value) (xs : List D.Val) :
    R (Host.shownBindings h.plain h.checkRoom params xs)
      (Host.shownBindings h.plain h.checkRoom params xs) := by
  induction params generalizing xs with
  | nil => exact hR.pure []
  | cons param params ih =>
    cases xs with
    | nil => exact hR.pure []
    | cons x xs =>
      refine hR.bind (hR.plain h param) fun name => hR.bind (hR.checkRoom h x) fun _ => ?_
      exact hR.bind (ih xs) fun rest => hR.pure ((name, x) :: rest)

theorem traceCall (h : Host D) (name : Value) (params : List Value) (xs : List D.Val) :
    R (h.traceCall name params xs) (h.traceCall name params xs) := by
  unfold Host.traceCall
  split
  · refine hR.bind (hR.shownBindings h params xs) fun bindings => ?_
    exact hR.bind (hR.plain h name) fun _ => hR.emit _
  · exact hR.pure ()

theorem bindAll (h : Host D) (params : List Value) (xs : List D.Val) :
    R (Host.bindAll h.bindingKey params xs) (Host.bindAll h.bindingKey params xs) := by
  induction params generalizing xs with
  | nil => exact hR.pure ()
  | cons param params ih =>
    cases xs with
    | nil => exact hR.pure ()
    | cons x xs =>
      refine hR.bind (hR.read _) fun name => ?_
      exact hR.bind (hR.setVariable name x) fun _ => ih xs

/-! ### Sequences -/

variable {self self' : Value → Eval D.Val D} (hself : ∀ v, R (self v) (self' v))
include hself

theorem evalAll (vs : List Value) : R (Host.evalAll self vs) (Host.evalAll self' vs) := by
  induction vs with
  | nil => exact hR.pure []
  | cons v vs ih =>
    exact hR.bind (hself v) fun x => hR.bind ih fun xs => hR.pure (x :: xs)

theorem evalEach (vs : List Value) : R (Host.evalEach self vs) (Host.evalEach self' vs) := by
  induction vs with
  | nil => exact hR.pure ()
  | cons v vs ih => exact hR.bind (hself v) fun _ => ih

end PlainCongruence

namespace Congruence

variable {R : ∀ {α : Type}, Eval α D → Eval α D → Prop} (hR : Congruence R)
  {self self' : Value → Eval D.Val D} (hself : ∀ v, R (self v) (self' v))
include hR hself

theorem evalBody (vs : List Value) (last : D.Val) :
    R (Host.evalBody self last vs) (Host.evalBody self' last vs) := by
  induction vs generalizing last with
  | nil => exact hR.pure last
  | cons v vs ih =>
    exact hR.bind (hR.checkpoint _) fun _ => hR.bind (hself v) fun x => ih x

theorem runBody (h : Host D) (body : Except Fault Value) :
    R (h.runBody self body) (h.runBody self' body) := by
  refine hR.inContext (hR.bind (hR.read _) fun b => ?_)
  exact hR.bind (hR.read _) fun vs => hR.evalBody hself vs (D.ofInt 0)

end Congruence

namespace Host

/-- The rounds of a loop depend on no limit of the host. -/
theorem iterate_limits (h : Host D) (nesting rounds : Nat) (self : Value → Eval D.Val D)
    (condition body : Value) (n : Nat) :
    ({ h with nesting := nesting, rounds := rounds } : Host D).iterate self condition body n
      = h.iterate self condition body n := by
  induction n with
  | zero => rfl
  | succ n ih =>
    rw [iterate, iterate, ih]
    rfl

section

variable {R : ∀ {α : Type}, Eval α D → Eval α D → Prop} (hR : PlainCongruence R) (h : Host D)
  {self self' : Value → Eval D.Val D} (hself : ∀ v, R (self v) (self' v))
include hR hself

/-! ### Kinds -/

theorem evalOperands_congr (v : Value) :
    R (h.evalOperands self v) (h.evalOperands self' v) := by
  refine hR.bind (hR.read _) fun payload => hR.bind (hR.read _) fun op => ?_
  refine hR.bind (hR.read _) fun left => hR.bind (hself left) fun x => ?_
  refine hR.bind (hR.read _) fun right => hR.bind (hself right) fun y => ?_
  exact hR.pure (op, x, y)

theorem evalCall_congr (hbody : ∀ body, R (h.runBody self body) (h.runBody self' body))
    (v : Value) : R (h.evalCall self v) (h.evalCall self' v) := by
  refine hR.bind (hR.read _) fun payload => hR.bind (hR.read _) fun target => ?_
  refine hR.bind (hR.read _) fun args => hR.bind (hR.functionOf h target) fun function => ?_
  refine hR.bind (hR.read _) fun params => hR.bind (hR.read _) fun got => ?_
  refine hR.bind (hR.read _) fun expected => ?_
  split
  · exact hR.failNaming h target rfl
  · refine hR.bind (hR.read _) fun vs => hR.bind (hR.evalAll hself vs) fun values => ?_
    refine hR.bind (hR.read _) fun names => hR.bind (hR.bindAll h names values) fun _ => ?_
    exact hR.bind (hR.traceCall h target names values) fun _ => hbody _

/-- **What a node of a given kind does is related** if what all other nodes do is, and if so is
whatever needs a context: loops, printing, and the bodies of functions. -/
theorem evalKind_congr_of_parts (nesting rounds : Nat) (kind : Kind) (v : Value)
    (hloop : R (h.evalLoop self v)
      (({ h with nesting := nesting, rounds := rounds } : Host D).evalLoop self' v))
    (hprint : R (h.evalPrint self v) (h.evalPrint self' v))
    (hbody : ∀ body, R (h.runBody self body) (h.runBody self' body)) :
    R (h.evalKind self kind v)
      (({ h with nesting := nesting, rounds := rounds } : Host D).evalKind self' kind v) := by
  cases kind with
  | number => exact hR.bind (hR.read _) fun payload => hR.read _
  | lookup => exact hR.bind (hR.read _) fun payload => hR.valueOf h payload
  | assignment =>
    refine hR.bind (hR.read _) fun payload => hR.bind (hR.read _) fun target => ?_
    refine hR.bind (hR.read _) fun expr => hR.bind (hself expr) fun value => ?_
    refine hR.bind (hR.read _) fun name => hR.bind (hR.setVariable name value) fun _ => ?_
    exact hR.bind (hR.traceAssignment h target value) fun _ => hR.pure value
  | arithmetic =>
    -- the operator is looked up when both operands have their values
    refine hR.bind (evalOperands_congr hR h hself v) fun ⟨op, x, y⟩ => ?_
    refine hR.bind (hR.read _) fun found => ?_
    cases found with
    | some known => exact hR.compute h known x y
    | none => exact hR.objectTo h _ v
  | comparison =>
    refine hR.bind (evalOperands_congr hR h hself v) fun ⟨op, x, y⟩ => ?_
    refine hR.bind (hR.read _) fun found => ?_
    cases found with
    | some known => exact hR.compare known x y
    | none => exact hR.objectTo h _ v
  | conditional =>
    refine hR.bind (hR.read _) fun payload => hR.bind (hR.read _) fun condition => ?_
    refine hR.bind (hself condition) fun test => ?_
    split
    · exact hR.bind (hR.read _) fun body => hself body
    · exact hR.pure (D.ofInt 0)
  | alternative =>
    refine hR.bind (hR.read _) fun payload => hR.bind (hR.read _) fun condition => ?_
    refine hR.bind (hself condition) fun test => ?_
    split
    · exact hR.bind (hR.read _) fun body => hself body
    · exact hR.bind (hR.read _) fun otherwise => hself otherwise
  | loop => exact hloop
  | print => exact hprint
  | definition =>
    refine hR.bind (hR.read _) fun payload => hR.bind (hR.read _) fun target => ?_
    refine hR.bind (hR.read _) fun params => hR.bind (hR.read _) fun body => ?_
    refine hR.bind (hR.read _) fun name => hR.bind (hR.define name _) fun _ => ?_
    -- the names of the parameters are read once more, for the trace alone
    exact hR.bind (hR.traceDefinition h target params) fun _ => hR.pure (D.ofInt 0)
  | function => exact hbody _
  | call => exact evalCall_congr hR h hself hbody v

end

section

variable {R : ∀ {α : Type}, Eval α D → Eval α D → Prop} (hR : Congruence R) (h : Host D)
  {self self' : Value → Eval D.Val D} (hself : ∀ v, R (self v) (self' v))
include hR hself

/-- **What a node of a given kind does is related** if what all other nodes do is, and if loops
are, however long they are followed on either side. -/
theorem evalKind_congr (nesting rounds : Nat)
    (hloop : ∀ condition body,
      R (h.iterate self condition body h.rounds) (h.iterate self' condition body rounds))
    (kind : Kind) (v : Value) :
    R (h.evalKind self kind v)
      (({ h with nesting := nesting, rounds := rounds } : Host D).evalKind self' kind v) := by
  refine evalKind_congr_of_parts hR.toPlainCongruence h hself nesting rounds kind v ?_ ?_
    (hR.runBody hself h)
  · refine hR.inContext (hR.bind (hR.read _) fun payload => ?_)
    refine hR.bind (hR.read _) fun condition => hR.bind (hR.read _) fun body => ?_
    -- the one place where the limits of the two hosts count
    rw [iterate_limits h nesting rounds self']
    exact hloop condition body
  · refine hR.inContext (hR.bind (hR.read _) fun payload => ?_)
    refine hR.bind (hself payload) fun x => ?_
    exact hR.bind (hR.checkRoom h x) fun _ => hR.print x

/-- **What a node does is related**, whatever its tag says. -/
theorem evalNode_congr (nesting rounds : Nat)
    (hloop : ∀ condition body,
      R (h.iterate self condition body h.rounds) (h.iterate self' condition body rounds))
    (v : Value) :
    R (h.evalNode self v)
      (({ h with nesting := nesting, rounds := rounds } : Host D).evalNode self' v) := by
  refine hR.inContext (hR.bind (hR.read _) fun tag => ?_)
  refine hR.bind (hR.traceVisit h tag) fun _ => ?_
  cases tag.text?.bind Kind.ofName? with
  | some kind => exact evalKind_congr hR h hself nesting rounds hloop kind v
  | none => exact hR.objectTo h _ v

/-! ### Limits -/

/-- **Loops are related**, of which the second is followed for longer, if giving up is related to
going on for the rounds that the second has more. -/
theorem iterate_congr_of_le (condition body : Value) {n n' : Nat} (hle : n ≤ n')
    (hunfinished : R (throw .unfinished) (h.iterate self' condition body (n' - n))) :
    R (h.iterate self condition body n) (h.iterate self' condition body n') := by
  induction n generalizing n' with
  | zero => exact hunfinished
  | succ n ih =>
    obtain ⟨n', rfl⟩ : ∃ k, n' = k + 1 := ⟨n' - 1, by omega⟩
    rw [Nat.add_sub_add_right] at hunfinished
    refine hR.bind (hR.checkpoint _) fun _ => hR.bind (hself condition) fun test => ?_
    split
    · -- one round less is left on both sides, and they differ as before
      refine hR.bind (hR.read _) fun vs => hR.bind (hR.evalEach hself vs) fun _ => ?_
      exact ih (Nat.le_of_succ_le_succ hle) hunfinished
    · exact hR.pure (D.ofInt 0)

omit hself in
/-- **Evaluation under limits is related to evaluation under wider ones**, if giving up is related
to going on within what the wider limits leave. -/
theorem eval_congr_of_le (nesting : Nat) {rounds : Nat} (hrounds : h.rounds ≤ rounds)
    (hunfinished : ∀ depth condition body, R (throw .unfinished)
      (h.iterate (({ h with nesting := nesting, rounds := rounds } : Host D).eval depth)
        condition body (rounds - h.rounds)))
    {depth depth' : Nat} (hdepth : depth ≤ depth')
    (hdeep : ∀ v, R (throw .tooDeep)
      (({ h with nesting := nesting, rounds := rounds } : Host D).eval (depth' - depth) v))
    (v : Value) :
    R (h.eval depth v)
      (({ h with nesting := nesting, rounds := rounds } : Host D).eval depth' v) := by
  induction depth generalizing depth' v with
  | zero => exact hdeep v
  | succ depth ih =>
    obtain ⟨depth', rfl⟩ : ∃ k, depth' = k + 1 := ⟨depth' - 1, by omega⟩
    rw [Nat.add_sub_add_right] at hdeep
    have hself : ∀ c, R (h.eval depth c)
        (({ h with nesting := nesting, rounds := rounds } : Host D).eval depth' c) :=
      fun c => ih (Nat.le_of_succ_le_succ hdepth) hdeep c
    exact evalNode_congr hR h hself nesting rounds (fun condition body =>
      iterate_congr_of_le hR h hself condition body hrounds (hunfinished depth' condition body)) v

omit hself in
/-- **Evaluation to any depth is related to itself**, if giving up is. -/
theorem eval_congr (hunfinished : R (throw .unfinished : Eval D.Val D) (throw .unfinished))
    (depth : Nat) (v : Value) : R (h.eval depth v) (h.eval depth v) := by
  refine eval_congr_of_le hR h h.nesting (Nat.le_refl h.rounds) (fun _ _ _ => ?_)
    (Nat.le_refl depth) (fun v => ?_) v
  · rw [Nat.sub_self]
    exact hunfinished
  · rw [Nat.sub_self]
    exact hR.throw .tooDeep (by simp) rfl

end

/-! ### Programs -/

section

variable {R : ∀ {α : Type}, Eval α D → Eval α D → Prop}

/-- **Rows of statements are related if statements are.** -/
theorem runStatements_congr (hR : PlainCongruence R) (h h' : Host D)
    (hstatement : ∀ index v, R (h.runStatement index v) (h'.runStatement index v)) (start : Nat)
    (vs : List Value) : R (h.runStatements start vs) (h'.runStatements start vs) := by
  induction vs generalizing start with
  | nil => exact hR.pure []
  | cons v vs ih =>
    exact hR.bind (hstatement start v) fun x => hR.bind (ih (start + 1)) fun xs =>
      hR.pure (x :: xs)

/-- **Programs are related if statements are.** -/
theorem runProgram_congr (hR : Congruence R) (h h' : Host D) (hgraph : h'.graph = h.graph)
    (hstatement : ∀ index v, R (h.runStatement index v) (h'.runStatement index v))
    (program : Value) : R (h.runProgram program) (h'.runProgram program) := by
  refine hR.inContext (hR.bind ?_ fun vs =>
    runStatements_congr hR.toPlainCongruence h h' hstatement 0 vs)
  rw [Host.items, Host.items, hgraph]
  exact hR.read _

end

end Host

end Treewalk
