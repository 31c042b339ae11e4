import Treewalk.History
import Treewalk.Proofs.ShapeCheck

/-!
## Environments over histories

An environment is a store in which the last write wins, whatever else is done in the history that
it belongs to. An action puts something under one name into one table of one environment, or clears
both tables of an environment, or leaves all tables alone, unless it evaluates a node. So what is
read under a name is decided by the last of the actions that concern it since the environment was
made. Each action is taken in a host of its own, since the graph may change between two of them: an
environment does not depend on the values that it was made from any more.

* `Action.written?`, `Action.get?_writeTo`: what an action leaves under a name.
* `envAt_act`, `size_act`, `getElem?_snapshots_act`: what an action does to a history.
* `get?_after`: what is read after any number of actions.
* `after_latest_write`: the law for histories from their beginning.
-/

namespace Treewalk

/-! ### Given bindings -/

/-- The integers that a table gives are the values under its names. -/
theorem Value.findEntry_integers {entries : List (String × Value)}
    {integers : List (String × Int)} (h : Value.integers entries = .ok integers) (name : String) :
    Table.findEntry name integers = (Table.findEntry name entries).bind Value.int? := by
  induction entries generalizing integers with
  | nil =>
    cases h
    rfl
  | cons entry rest ih =>
    obtain ⟨k, value⟩ := entry
    cases value with
    | int n =>
      obtain ⟨others, hothers, hcons⟩ := Graph.except_bind_eq_ok_iff.mp h
      cases hcons
      by_cases hk : name = k
      · simp [Table.findEntry, hk, Value.int?]
      · simp [Table.findEntry, hk, ih hothers]
    | _ => cases h

/-- **An environment starts with the bindings that it is given.** -/
theorem Env.exists_bindings {g : Graph} {v w : Value} {env : Env}
    (h : Env.ofValues g v w = .ok env) :
    ∃ values functions, g.bindings v = .ok values ∧ g.bindings w = .ok functions
      ∧ (∀ x, env.value? x = (values.get? x).bind Value.int?)
      ∧ ∀ x, env.function? x = (functions.get? x).map .given := by
  obtain ⟨values, hvalues, h⟩ := Graph.except_bind_eq_ok_iff.mp h
  obtain ⟨functions, hfunctions, h⟩ := Graph.except_bind_eq_ok_iff.mp h
  obtain ⟨integers, hintegers, h⟩ := Graph.except_bind_eq_ok_iff.mp h
  cases h
  exact ⟨values, functions, hvalues, hfunctions, Value.findEntry_integers hintegers,
    fun x => functions.get?_map Callable.given x⟩

/-! ### What an action writes -/

namespace Action

variable {α : Type} {puts : Action → Option (Nat × Value × α)} {e : Nat} {x : String}

/-- The environment, the name and the value of an action that binds a variable. -/
def binding? : Action → Option (Nat × Value × Int)
  | .set index name value => some (index, name, value)
  | _ => none

/-- The environment, the name and the function of an action that gives a name to a function. -/
def definition? : Action → Option (Nat × Value × Callable)
  | .define index name function => some (index, name, function)
  | _ => none

/-- What an action leaves under the name `x` in a table of environment `e`, if it writes there:
something if it puts it there, and nothing if it clears the environment. -/
def written? (puts : Action → Option (Nat × Value × α)) (e : Nat) (x : String) (a : Action) :
    Option (Option α) :=
  if a = .clear e then some none
  else (puts a).bind fun (index, name, value) =>
    if index = e ∧ name = .text x then some (some value) else none

/-- What an action makes of a table of environment `e`. -/
def writeTo (puts : Action → Option (Nat × Value × α)) (e : Nat) (a : Action) (t : Table α) :
    Table α :=
  if a = .clear e then .empty
  else match puts a with
    | some (index, .text name, value) => if index = e then t.insert name value else t
    | _ => t

/-- What an action that is no evaluation makes of environment `e`. -/
def change (e : Nat) (a : Action) (env : Env) : Env where
  values := a.writeTo binding? e env.values
  functions := a.writeTo definition? e env.functions

/-- Does the action make an environment? -/
def makes (h : Host) : Action → Bool
  | .make v w => (Env.ofValues h.graph v w).isOk
  | _ => false

theorem makes_iff {h : Host} {a : Action} :
    a.makes h = true ↔ ∃ v w env, a = .make v w ∧ Env.ofValues h.graph v w = .ok env := by
  cases a with
  | make v w =>
    cases hmade : Env.ofValues h.graph v w <;> simp [makes, hmade, Except.isOk, Except.toBool]
  | _ => simp [makes]

/-- **An action writes under one name, or under all of them.** -/
theorem get?_writeTo (a : Action) (t : Table α) :
    (a.writeTo puts e t).get? x = (a.written? puts e x).getD (t.get? x) := by
  unfold writeTo written?
  by_cases hclear : a = .clear e
  · rw [if_pos hclear, if_pos hclear]
    rfl
  · rw [if_neg hclear, if_neg hclear]
    cases puts a with
    | none => rfl
    | some put =>
      obtain ⟨index, name, value⟩ := put
      cases name with
      | text name =>
        by_cases he : index = e
        · by_cases hx : name = x
          · simp [he, hx]
          · simp [Table.get?_insert, he, hx, Ne.symm hx]
        · simp [he]
      | _ => simp

theorem written?_of_none {a : Action} (hclear : a ≠ .clear e) (hputs : puts a = none) :
    a.written? puts e x = none := by
  rw [written?, if_neg hclear, hputs]
  rfl

/-- Giving a name to a function writes no variable. -/
theorem keeps_variables_of_definition? {a : Action} (ha : a.definition?.isNone = false)
    (h : Host) : a.written? binding? e x = none ∧ a.makes h = false := by
  cases a with
  | define index name function => exact ⟨written?_of_none nofun rfl, rfl⟩
  | _ => cases ha

/-- Binding a variable writes no function. -/
theorem keeps_functions_of_binding? {a : Action} (ha : a.binding?.isNone = false)
    (h : Host) : a.written? definition? e x = none ∧ a.makes h = false := by
  cases a with
  | set index name value => exact ⟨written?_of_none nofun rfl, rfl⟩
  | _ => cases ha

theorem change_set (index : Nat) (name : String) (value : Int) (env : Env) :
    (set index (.text name) value).change e env
      = if index = e then env.setVariable name value else env := by
  by_cases he : index = e <;> simp [change, writeTo, binding?, definition?, Env.setVariable, he]

theorem change_define (index : Nat) (name : String) (function : Callable) (env : Env) :
    (define index (.text name) function).change e env
      = if index = e then env.define name function else env := by
  by_cases he : index = e <;> simp [change, writeTo, binding?, definition?, Env.define, he]

theorem change_clear (index : Nat) (env : Env) :
    (clear index).change e env = if index = e then .empty else env := by
  by_cases he : index = e <;> simp [change, writeTo, binding?, definition?, Env.empty, he]

end Action

namespace History

variable {s : History} {h : Host} {a : Action} {e k : Nat} {x : String} {env : Env}

/-! ### One action -/

theorem act_make_of_ok {v w : Value} (henv : Env.ofValues h.graph v w = .ok env) :
    s.act h (.make v w)
      = (.ok (.shown env), { s with environments := s.environments.push env }) := by
  simp [act, henv]

theorem act_make_of_error {v w : Value} {f : Fault} (hfault : Env.ofValues h.graph v w = .error f) :
    s.act h (.make v w) = (.error (.fault f), s) := by
  simp [act, hfault]

theorem size_setEnv (s : History) (index : Nat) (env : Env) :
    (s.setEnv index env).environments.size = s.environments.size := by
  simp [setEnv]

theorem size_write (s : History) (index : Nat) (name : Value) (change : String → Env → Env)
    (reply : Reply) :
    (s.write index name change reply).2.environments.size = s.environments.size := by
  unfold write
  split
  · exact size_setEnv s index _
  · rfl

theorem snapshots_write (s : History) (index : Nat) (name : Value) (change : String → Env → Env)
    (reply : Reply) : (s.write index name change reply).2.snapshots = s.snapshots := by
  unfold write
  split <;> rfl

theorem envAt_setEnv (hlt : e < s.environments.size) (index : Nat) (change : Env → Env) :
    (s.setEnv index (change (s.envAt index))).envAt e
      = if index = e then change (s.envAt e) else s.envAt e := by
  by_cases he : index = e
  · subst he
    simp [setEnv, envAt, hlt]
  · simp [setEnv, envAt, he]

/-- **What an action makes of an environment**, if it evaluates no node in it. -/
theorem envAt_act (hlt : e < s.environments.size) (hno : ∀ node, a ≠ .eval e node) :
    (s.act h a).2.envAt e = a.change e (s.envAt e) := by
  cases a with
  | make v w =>
    cases hmade : Env.ofValues h.graph v w with
    | ok env =>
      rw [act_make_of_ok hmade]
      simp only [envAt, Array.getElem?_push, if_neg (Nat.ne_of_lt hlt)]
      rfl
    | error f =>
      rw [act_make_of_error hmade]
      rfl
  | set index name value =>
    -- a name that is no text is refused, and then both sides write nothing
    cases name with
    | text name =>
      rw [Action.change_set]
      exact envAt_setEnv hlt index (·.setVariable name value)
    | _ => rfl
  | define index name function =>
    cases name with
    | text name =>
      rw [Action.change_define]
      exact envAt_setEnv hlt index (·.define name function)
    | _ => rfl
  | clear index =>
    rw [Action.change_clear]
    exact envAt_setEnv hlt index fun _ => .empty
  | eval index node =>
    have hne : index ≠ e := fun he => hno node (he ▸ rfl)
    exact (envAt_setEnv hlt index fun _ => _).trans (if_neg hne)
  | lookup index name | has index name | lookupFunction index name | snapshot index
  | showSnapshot index => rfl

theorem size_act (s : History) (h : Host) (a : Action) :
    (s.act h a).2.environments.size = s.environments.size + if a.makes h then 1 else 0 := by
  cases a with
  | make v w =>
    cases hmade : Env.ofValues h.graph v w with
    | ok env =>
      rw [act_make_of_ok hmade, if_pos (Action.makes_iff.mpr ⟨v, w, env, rfl, hmade⟩)]
      exact Array.size_push env
    | error f =>
      rw [act_make_of_error hmade, if_neg (by simp [Action.makes_iff, hmade])]
      rfl
  | set index name value | define index name function => exact size_write s index name _ _
  | clear index | eval index node => exact size_setEnv s index _
  | lookup index name | has index name | lookupFunction index name | snapshot index
  | showSnapshot index => rfl

/-- No action touches a snapshot that has been taken. -/
theorem getElem?_snapshots_act (hk : s.snapshots[k]? = some env) :
    (s.act h a).2.snapshots[k]? = some env := by
  cases a with
  | make v w =>
    cases hmade : Env.ofValues h.graph v w with
    | ok env => rwa [act_make_of_ok hmade]
    | error f => rwa [act_make_of_error hmade]
  | set index name value | define index name function =>
    exact (congrArg (·[k]?) (snapshots_write s index name _ _)).trans hk
  | snapshot index =>
    obtain ⟨hlt, heq⟩ := Array.getElem?_eq_some_iff.mp hk
    exact (Array.getElem?_push_lt hlt).trans (congrArg some heq)
  | clear index | eval index node | lookup index name | has index name | lookupFunction index name
  | showSnapshot index => exact hk

/-! ### Replies -/

theorem act_lookup_text (s : History) (h : Host) (e : Nat) (x : String) :
    s.act h (.lookup e (.text x)) = (match (s.envAt e).value? x with
      | some n => .ok (.value n)
      | none => .error (.failure ⟨.undefinedVariable (.text x) (s.envAt e), none⟩), s) := by
  show ((s.outcomeAt e (h.valueOf (.text x))).result.map Reply.value, s) = _
  rw [outcomeAt, Eval.carryOut, h.valueOf_text]
  cases (s.envAt e).value? x <;> rfl

theorem act_lookupFunction_text (s : History) (h : Host) (e : Nat) (x : String) :
    s.act h (.lookupFunction e (.text x)) = (match (s.envAt e).function? x with
      | some f => .ok (.function f)
      | none => .error (.failure ⟨.undefinedFunction (.text x) (s.envAt e), none⟩), s) := by
  show ((s.outcomeAt e (h.functionOf (.text x))).result.map Reply.function, s) = _
  rw [outcomeAt, Eval.carryOut, h.functionOf_text]
  cases (s.envAt e).function? x <;> rfl

theorem act_has_text (s : History) (h : Host) (e : Nat) (x : String) :
    s.act h (.has e (.text x))
      = (.ok (.presence ((s.envAt e).value? x).isSome ((s.envAt e).function? x).isSome), s) := by
  show ((s.outcomeAt e (h.presence (.text x))).result.map _, s) = _
  rw [outcomeAt, Eval.carryOut, h.presence_text]
  rfl

theorem act_showSnapshot (hk : s.snapshots[k]? = some env) :
    s.act h (.showSnapshot k) = (.ok (.shown env), s) := by
  show (Except.ok (Reply.shown (s.snapshots[k]?.getD .empty)), s) = _
  rw [hk]
  rfl

/-! ### Actions one after the other -/

/-- The history after actions that are taken one after the other, each in its own host: the graph
may change between two of them. -/
def after (s : History) : List (Host × Action) → History
  | [] => s
  | (h, a) :: steps => (s.act h a).2.after steps

theorem after_append (s : History) (steps later : List (Host × Action)) :
    s.after (steps ++ later) = (s.after steps).after later := by
  induction steps generalizing s with
  | nil => rfl
  | cons step steps ih => exact ih _

/-- There are as many environments as have been made. -/
theorem size_after (s : History) (steps : List (Host × Action)) :
    (s.after steps).environments.size
      = s.environments.size + steps.countP fun step => step.2.makes step.1 := by
  induction steps generalizing s with
  | nil => rfl
  | cons step steps ih =>
    rw [after, ih, size_act, List.countP_cons]
    omega

/-- Actions that make no environment can be dropped without changing the places of the others. -/
theorem size_after_filter {p : Host × Action → Bool}
    (hp : ∀ step, p step = false → step.2.makes step.1 = false) (s : History)
    (steps : List (Host × Action)) :
    (s.after (steps.filter p)).environments.size = (s.after steps).environments.size := by
  rw [size_after, size_after, List.countP_filter]
  congr 1
  refine List.countP_congr fun step _ => ?_
  cases hstep : p step with
  | true => simp
  | false => simp [hp step hstep]

theorem getElem?_snapshots_after (hk : s.snapshots[k]? = some env)
    (steps : List (Host × Action)) : (s.after steps).snapshots[k]? = some env := by
  induction steps generalizing s with
  | nil => exact hk
  | cons step steps ih => exact ih (getElem?_snapshots_act hk)

/-- Every environment has been made. -/
theorem exists_make {steps : List (Host × Action)} (hle : s.environments.size ≤ e)
    (hlt : e < (s.after steps).environments.size) :
    ∃ before h v w env later, steps = before ++ (h, .make v w) :: later
      ∧ (s.after before).environments.size = e ∧ Env.ofValues h.graph v w = .ok env := by
  induction steps generalizing s with
  | nil => exact absurd hlt (Nat.not_lt.mpr hle)
  | cons step steps ih =>
    obtain ⟨h, a⟩ := step
    by_cases hnow : e < (s.act h a).2.environments.size
    · -- the place has just been reached, so this is the action that made the environment
      rw [size_act] at hnow
      cases hmakes : a.makes h with
      | false =>
        rw [if_neg (by simp [hmakes])] at hnow
        omega
      | true =>
        obtain ⟨v, w, env, rfl, henv⟩ := Action.makes_iff.mp hmakes
        rw [if_pos hmakes] at hnow
        exact ⟨[], h, v, w, env, steps, rfl, by rw [after]; omega, henv⟩
    · obtain ⟨before, h', v, w, env, later, rfl, hsize, henv⟩ := ih (by omega) hlt
      exact ⟨(h, a) :: before, h', v, w, env, later, rfl, hsize, henv⟩

/-! ### The latest write -/

section latest

variable {α : Type} {puts : Action → Option (Nat × Value × α)} {start : Option α}
  {steps before later : List (Host × Action)} {p : Host × Action → Bool}

/-- What has been written last under the name `x` in a table of environment `e`, and `start` if
nothing has. -/
def latest (puts : Action → Option (Nat × Value × α)) (e : Nat) (x : String) (start : Option α)
    (steps : List (Host × Action)) : Option α :=
  (steps.reverse.findSome? fun step => step.2.written? puts e x).getD start

theorem latest_cons (step : Host × Action) :
    latest puts e x start (step :: steps)
      = latest puts e x ((step.2.written? puts e x).getD start) steps := by
  rw [latest, latest, List.reverse_cons, List.findSome?_append, Option.getD_or,
    List.findSome?_singleton]

/-- Actions that write nothing can be dropped. -/
theorem latest_filter (hp : ∀ step, p step = false → step.2.written? puts e x = none) :
    latest puts e x start (steps.filter p) = latest puts e x start steps := by
  induction steps generalizing start with
  | nil => rfl
  | cons step steps ih =>
    cases hstep : p step with
    | true => rw [List.filter_cons_of_pos hstep, latest_cons, latest_cons, ih]
    | false =>
      rw [List.filter_cons_of_neg (by simp [hstep]), latest_cons, hp step hstep, ih]
      rfl

variable (part : Env → Table α)
  (hpart : ∀ (a : Action) (env : Env), part (a.change e env) = a.writeTo puts e (part env))

include hpart

/-- **Reading gives what has been written last.** -/
theorem get?_after (hlt : e < s.environments.size)
    (hno : ∀ step ∈ later, ∀ node, step.2 ≠ .eval e node) :
    (part ((s.after later).envAt e)).get? x
      = latest puts e x ((part (s.envAt e)).get? x) later := by
  -- the first action moves what the table starts with, on both sides
  induction later generalizing s with
  | nil => rfl
  | cons step later ih =>
    obtain ⟨h, a⟩ := step
    have hlt' : e < (s.act h a).2.environments.size := by
      rw [size_act]
      omega
    rw [after, ih hlt' fun step hstep => hno step (List.mem_cons_of_mem _ hstep), latest_cons,
      envAt_act hlt (hno (h, a) List.mem_cons_self), hpart, Action.get?_writeTo]

/-- An environment has its bindings when it is made, and what is written then comes on top. -/
theorem get?_after_make {v w : Value} (hsize : (s.after before).environments.size = e)
    (henv : Env.ofValues h.graph v w = .ok env)
    (hno : ∀ step ∈ later, ∀ node, step.2 ≠ .eval e node) :
    (part ((s.after (before ++ (h, .make v w) :: later)).envAt e)).get? x
      = latest puts e x ((part env).get? x) later := by
  have hmake := act_make_of_ok (s := s.after before) henv
  have hlt : e < ((s.after before).act h (.make v w)).2.environments.size := by
    rw [hmake, Array.size_push]
    omega
  have hfirst : ((s.after before).act h (.make v w)).2.envAt e = env := by
    rw [hmake, envAt, ← hsize]
    simp
  rw [after_append, after, get?_after part hpart hlt hno, hfirst]

/-- **What writes nothing into a table can be left out when it is read.** -/
theorem get?_after_filter {v w : Value} (hsize : (s.after before).environments.size = e)
    (henv : Env.ofValues h.graph v w = .ok env)
    (hno : ∀ step ∈ later, ∀ node, step.2 ≠ .eval e node)
    (hp : ∀ step, p step = false → step.2.written? puts e x = none ∧ step.2.makes step.1 = false) :
    (part ((s.after ((before ++ (h, .make v w) :: later).filter p)).envAt e)).get? x
      = latest puts e x ((part env).get? x) later := by
  have hkept : p (h, .make v w) = true := by
    cases hdropped : p (h, .make v w) with
    | true => rfl
    | false =>
      have hmakes := (hp (h, .make v w) hdropped).2
      rw [Action.makes_iff.mpr ⟨v, w, env, rfl, henv⟩] at hmakes
      cases hmakes
  have hsize' : (s.after (before.filter p)).environments.size = e :=
    (size_after_filter (fun step hstep => (hp step hstep).2) s before).trans hsize
  rw [List.filter_append, List.filter_cons_of_pos hkept, get?_after_make part hpart hsize' henv
    fun step hstep => hno step (List.mem_of_mem_filter hstep),
    latest_filter fun step hstep => (hp step hstep).1]

end latest

/-! ### Histories from the beginning -/

/-- The environment at place `e` has been made from the bindings of two tables, and `later` is what
has been done since then. -/
def MadeFrom (values functions : Table Value) (e : Nat) (steps later : List (Host × Action)) :
    Prop :=
  ∃ before h v w env, steps = before ++ (h, .make v w) :: later
    ∧ (after {} before).environments.size = e ∧ Env.ofValues h.graph v w = .ok env
    ∧ h.graph.bindings v = .ok values ∧ h.graph.bindings w = .ok functions

theorem exists_madeFrom {steps : List (Host × Action)}
    (hlt : e < (after {} steps).environments.size) :
    ∃ values functions later, MadeFrom values functions e steps later := by
  obtain ⟨before, h, v, w, env, later, hsteps, hsize, henv⟩ := exists_make (Nat.zero_le e) hlt
  obtain ⟨values, functions, hvalues, hfunctions, -⟩ := Env.exists_bindings henv
  exact ⟨values, functions, later, before, h, v, w, env, hsteps, hsize, henv, hvalues, hfunctions⟩

/-- What an environment was made from is what it started with. -/
theorem MadeFrom.exists_env {values functions : Table Value} {steps later : List (Host × Action)}
    (hmade : MadeFrom values functions e steps later) :
    ∃ before h v w env, steps = before ++ (h, .make v w) :: later
      ∧ (after {} before).environments.size = e ∧ Env.ofValues h.graph v w = .ok env
      ∧ (∀ x, env.value? x = (values.get? x).bind Value.int?)
      ∧ ∀ x, env.function? x = (functions.get? x).map .given := by
  obtain ⟨before, h, v, w, env, hsteps, hsize, henv, hv, hw⟩ := hmade
  obtain ⟨values', functions', hv', hw', hvalue, hfunction⟩ := Env.exists_bindings henv
  obtain rfl : values = values' := Except.ok.inj (hv.symm.trans hv')
  obtain rfl : functions = functions' := Except.ok.inj (hw.symm.trans hw')
  exact ⟨before, h, v, w, env, hsteps, hsize, henv, hvalue, hfunction⟩

/-- **Environments remember the latest write.** Take any history from its beginning, and any
environment in it.
* The environment was made at some moment, from the bindings of two tables.
* If no node has been evaluated in it since then, what is read under a name is what has been put
  there last since the environment was last cleared, or, if it has neither been put there nor
  cleared, what the environment was made with. This holds of variables and of functions. Where
  nothing is found, the failure is that of an undefined name, and shows the environment. Reading
  changes nothing, and asking whether a name is there tells whether reading it succeeds. Without the
  definitions of functions the variables would be the same, and the other way round.
* A snapshot taken now shows the environment as it is now, whatever is done later, evaluations
  included. -/
theorem after_latest_write (steps : List (Host × Action)) (h : Host) (e : Nat)
    (hmade : e < (after {} steps).environments.size) :
    let s := after {} steps
    (∃ values functions later, MadeFrom values functions e steps later)
    ∧ (∀ values functions later, MadeFrom values functions e steps later →
      (∀ step ∈ later, ∀ node, step.2 ≠ .eval e node) → ∀ x,
        let value := latest Action.binding? e x ((values.get? x).bind Value.int?) later
        let function := latest Action.definition? e x ((functions.get? x).map .given) later
        s.act h (.lookup e (.text x)) = (match value with
          | some n => .ok (.value n)
          | none => .error (.failure ⟨.undefinedVariable (.text x) (s.envAt e), none⟩), s)
        ∧ s.act h (.lookupFunction e (.text x)) = (match function with
          | some f => .ok (.function f)
          | none => .error (.failure ⟨.undefinedFunction (.text x) (s.envAt e), none⟩), s)
        ∧ s.act h (.has e (.text x)) = (.ok (.presence value.isSome function.isSome), s)
        ∧ ((after {} (steps.filter fun step => step.2.definition?.isNone)).envAt e).value? x = value
        ∧ ((after {} (steps.filter fun step => step.2.binding?.isNone)).envAt e).function? x
            = function)
    ∧ ∀ later h',
      let t := (s.act h (.snapshot e)).2.after later
      (s.act h (.snapshot e)).1 = .ok (.place s.snapshots.size)
        ∧ t.act h' (.showSnapshot s.snapshots.size) = (.ok (.shown (s.envAt e)), t) := by
  intro s
  refine ⟨exists_madeFrom hmade, ?_, fun later h' => ⟨rfl, ?_⟩⟩
  · intro values functions later hfrom hno x
    obtain ⟨before, maker, v, w, env, rfl, hsize, henv, hgiven, hgiven'⟩ := hfrom.exists_env
    rw [← hgiven x, ← hgiven' x]
    have hvalue : (s.envAt e).value? x = latest Action.binding? e x (env.value? x) later :=
      get?_after_make Env.values (fun _ _ => rfl) hsize henv hno
    have hfunction : (s.envAt e).function? x
        = latest Action.definition? e x (env.function? x) later :=
      get?_after_make Env.functions (fun _ _ => rfl) hsize henv hno
    refine ⟨?_, ?_, ?_, ?_, ?_⟩
    · rw [← hvalue]
      exact act_lookup_text s h e x
    · rw [← hfunction, act_lookupFunction_text]
    · rw [← hvalue, ← hfunction, act_has_text]
    · exact get?_after_filter Env.values (fun _ _ => rfl) hsize henv hno
        fun step hstep => Action.keeps_variables_of_definition? hstep step.1
    · exact get?_after_filter Env.functions (fun _ _ => rfl) hsize henv hno
        fun step hstep => Action.keeps_functions_of_binding? hstep step.1
  · have hk : (s.act h (.snapshot e)).2.snapshots[s.snapshots.size]? = some (s.envAt e) :=
      Array.getElem?_push_size
    exact act_showSnapshot (getElem?_snapshots_after hk later)

/-- A record that binds two names to integers. -/
def twoNumbers : Graph where
  objects := #[.record ⟨[("x", .int 1), ("y", .int 7)]⟩]

/-- What is done to two environments after the second one was made. The first one shares its names,
and the second one is cleared in between. -/
def rebinding : List (Host × Action) :=
  [.set 1 (.text "x") 2, .set 0 (.text "y") 5, .define 1 (.text "y") (.given (.ref 0)), .clear 1,
    .set 1 (.text "x") 3, .define 1 (.text "x") (.given (.ref 0)), .clear 0].map
      fun a => (⟨twoNumbers, false, 9, 9, 9⟩, a)

/-- The second environment shows what was put there since it was cleared, and no more. -/
theorem rebinding_latest_write :
    let h : Host := ⟨twoNumbers, false, 9, 9, 9⟩
    let steps := (h, .make .absent .absent) :: (h, .make (.ref 0) .absent) :: rebinding
    let s := after {} steps
    1 < s.environments.size
      ∧ MadeFrom ⟨[("x", .int 1), ("y", .int 7)]⟩ .empty 1 steps rebinding
      ∧ (∀ step ∈ rebinding, ∀ node, step.2 ≠ .eval 1 node)
      ∧ s.act h (.lookup 1 (.text "x")) = (.ok (.value 3), s)
      ∧ s.act h (.lookup 1 (.text "y"))
        = (.error (.failure ⟨.undefinedVariable (.text "y") (s.envAt 1), none⟩), s)
      ∧ s.act h (.lookupFunction 1 (.text "x")) = (.ok (.function (.given (.ref 0))), s)
      ∧ s.act h (.has 1 (.text "y")) = (.ok (.presence false false), s)
      ∧ (((s.act h (.snapshot 1)).2.after [(h, .clear 1)]).act h (.showSnapshot 0)).1
        = .ok (.shown ⟨⟨[("x", 3)]⟩, ⟨[("x", .given (.ref 0))]⟩⟩) := by
  intro h steps s
  have hsize : 1 < s.environments.size := by decide
  have hmade : MadeFrom ⟨[("x", .int 1), ("y", .int 7)]⟩ .empty 1 steps rebinding :=
    ⟨[(h, .make .absent .absent)], h, .ref 0, .absent, _, rfl, rfl, rfl, rfl, rfl⟩
  have hno : ∀ step ∈ rebinding, ∀ node, step.2 ≠ .eval 1 node := by
    intro step hstep node
    obtain ⟨a, ha, rfl⟩ := List.mem_map.mp hstep
    revert a
    simp
  have hlaw := after_latest_write steps h 1 hsize
  have hread := hlaw.2.1 _ _ _ hmade hno
  have hnow : s.envAt 1 = ⟨⟨[("x", 3)]⟩, ⟨[("x", .given (.ref 0))]⟩⟩ := by decide +kernel
  have hnone : s.snapshots.size = 0 := by decide +kernel
  have hshown := congrArg Prod.fst (hlaw.2.2 [(h, .clear 1)] h).2
  rw [hnow, hnone] at hshown
  exact ⟨hsize, hmade, hno, (hread "x").1, (hread "y").1, (hread "x").2.1, (hread "y").2.2.1,
    hshown⟩

end History

end Treewalk
