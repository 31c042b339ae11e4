import Mathlib.Data.Int.Basic
import Treewalk.Proofs.Endings
import Treewalk.Proofs.EvalForm
import Treewalk.Proofs.ShapeCheck

/-!
## Expressions

A node that is built from literals, variables, arithmetic and comparisons spells an expression.
What it evaluates to is what the expression denotes over the integers, and nothing else happens.

* `isQuotient_iff`: the quotient that is rounded toward zero is told by its remainder.
* `value_eq_ok_iff`: an expression has a value exactly when it denotes one.
* `exists_firstFault`: an expression without a value has a first part that is at fault.
* `eval_of_spells`: a node that spells an expression gives its value or its fault, and it leaves
  the environment, the context and the printed lines alone.
* `eval_expression`: all of this, with the denotation and the faults as they are defined.
-/

namespace Treewalk

open Eval

/-! ### Operators over the integers -/

/-- **The quotient rounded toward zero**: the remainder is smaller than the divisor, and it is zero
or has the sign of the dividend. -/
def IsQuotient (x y q : Int) : Prop :=
  ∃ r : Int, x = q * y + r ∧ r.natAbs < y.natAbs ∧ (r = 0 ∨ r.sign = x.sign)

theorem isQuotient_tdiv (x : Int) {y : Int} (hy : y ≠ 0) : IsQuotient x y (x.tdiv y) := by
  refine ⟨x.tmod y, ?_, ?_, ?_⟩
  · rw [Int.mul_comm, Int.mul_tdiv_add_tmod]
  · rw [Int.natAbs_tmod]
    exact Nat.mod_lt _ (Int.natAbs_pos.mpr hy)
  · by_cases hdvd : y ∣ x
    · exact .inl (Int.tmod_eq_zero_of_dvd hdvd)
    · right
      rw [Int.sign_tmod, if_neg hdvd]

theorem eq_tdiv_of_isQuotient {x y q : Int} (hy : y ≠ 0) (h : IsQuotient x y q) :
    q = x.tdiv y := by
  obtain ⟨r, hsum, hlt, hsign⟩ := h
  have hx : r + y * q = x := by rw [hsum, Int.mul_comm, Int.add_comm]
  -- the remainder lies on the side of zero where the dividend lies
  rcases Int.le_total 0 x with hnonneg | hnonpos
  · have hr : 0 ≤ r := by
      rcases hsign with rfl | hsign
      · exact Int.le_refl 0
      · rw [← Int.sign_nonneg_iff, hsign]
        exact Int.sign_nonneg_iff.mpr hnonneg
    exact ((Int.tdiv_tmod_unique hnonneg hy).mpr ⟨hx, hr, by omega⟩).1.symm
  · have hr : r ≤ 0 := by
      rcases hsign with rfl | hsign
      · exact Int.le_refl 0
      · rw [← Int.sign_nonpos_iff, hsign]
        exact Int.sign_nonpos_iff.mpr hnonpos
    exact ((Int.tdiv_tmod_unique' hnonpos hy).mpr ⟨hx, by omega, hr⟩).1.symm

/-- **The quotient is told by its remainder.** -/
theorem isQuotient_iff {x y q : Int} (hy : y ≠ 0) : IsQuotient x y q ↔ q = x.tdiv y := by
  constructor
  · exact eq_tdiv_of_isQuotient hy
  · rintro rfl
    exact isQuotient_tdiv x hy

/-- What an arithmetic operator means over the integers. -/
def Arithmetic.Means : Arithmetic → Int → Int → Int → Prop
  | add, x, y, z => z = x + y
  | sub, x, y, z => z = x - y
  | mul, x, y, z => z = x * y
  | div, x, y, z => y ≠ 0 ∧ IsQuotient x y z

/-- The relation of integers that a comparison asks for. -/
def Comparison.Relates : Comparison → Int → Int → Prop
  | eq, x, y => x = y
  | ne, x, y => x ≠ y
  | lt, x, y => x < y
  | gt, x, y => x > y

/-- What a comparison means: one if the integers are related, and zero if they are not. -/
def Comparison.Means (op : Comparison) (x y z : Int) : Prop :=
  op.Relates x y ∧ z = 1 ∨ ¬ op.Relates x y ∧ z = 0

/-- **An arithmetic operator computes what it means.** -/
theorem Arithmetic.compute_eq_ok_iff {op : Arithmetic} {x y z : Int} :
    op.compute x y = .ok z ↔ op.Means x y z := by
  cases op with
  | div =>
    by_cases hy : y = 0
    · simp [compute, apply, Means, hy]
    · simp [compute, apply, Means, hy, isQuotient_iff hy, eq_comm]
  | _ => simp [compute, apply, Means, eq_comm]

theorem Comparison.holds_iff {op : Comparison} {x y : Int} :
    op.holds x y = true ↔ op.Relates x y := by
  cases op <;> simp [holds, Relates]

/-- **A comparison answers what it means.** -/
theorem Comparison.apply_eq_iff {op : Comparison} {x y z : Int} :
    op.apply x y = z ↔ op.Means x y z := by
  unfold apply Means
  by_cases hrelates : op.Relates x y
  · simp [holds_iff.mpr hrelates, hrelates, eq_comm]
  · have hnot : ¬ op.holds x y = true := fun hholds => hrelates (holds_iff.mp hholds)
    simp [hnot, hrelates, eq_comm]

/-! ### Expressions -/

/-- An **expression** over the integers. -/
inductive Expression where
  | number (n : Int)
  | lookup (name : String)
  | arithmetic (op : Arithmetic) (left right : Expression)
  | comparison (op : Comparison) (left right : Expression)
deriving DecidableEq, Repr, Inhabited

namespace Expression

/-- The number of nodes on the longest way down. -/
def height : Expression → Nat
  | number _ | lookup _ => 1
  | arithmetic _ left right | comparison _ left right => max left.height right.height + 1

/-- All parts of the expression, operands before what is made of them and from left to right. -/
def postorder : Expression → List Expression
  | number n => [number n]
  | lookup name => [lookup name]
  | arithmetic op left right => left.postorder ++ right.postorder ++ [arithmetic op left right]
  | comparison op left right => left.postorder ++ right.postorder ++ [comparison op left right]

/-- **What an expression denotes**, if its variables have the given values. -/
def Denotes (value? : String → Option Int) : Expression → Int → Prop
  | number n, z => z = n
  | lookup name, z => value? name = some z
  | arithmetic op left right, z =>
    ∃ x y, left.Denotes value? x ∧ right.Denotes value? y ∧ op.Means x y z
  | comparison op left right, z =>
    ∃ x y, left.Denotes value? x ∧ right.Denotes value? y ∧ op.Means x y z

/-- **A part is at fault** if it is a variable that is not bound, or a division whose divisor
denotes zero. -/
def IsFaulty (value? : String → Option Int) : Expression → Prop
  | lookup name => value? name = none
  | arithmetic .div _ right => right.Denotes value? 0
  | _ => False

/-- The failure of a part that is at fault. That of a division shows the dividend. -/
def FailsWith (env : Env) : Expression → Failure → Prop
  | lookup name, f => f = .undefinedVariable (.text name) env
  | arithmetic .div left _, f => ∃ x, left.Denotes env.value? x ∧ f = .divisionByZero x
  | _, _ => False

/-- The value of an expression, or the failure that there is in place of it. -/
def value (env : Env) : Expression → Except Failure Int
  | number n => .ok n
  | lookup name =>
    match env.value? name with
    | some x => .ok x
    | none => .error (.undefinedVariable (.text name) env)
  | arithmetic op left right => do
    let x ← left.value env
    let y ← right.value env
    op.compute x y
  | comparison op left right => do
    let x ← left.value env
    let y ← right.value env
    pure (op.apply x y)

variable {env : Env} {expr left right : Expression} {x : Int} {f : Failure}

/-! ### Values -/

/-- **An expression has a value exactly when it denotes one.** -/
theorem value_eq_ok_iff : expr.value env = .ok x ↔ expr.Denotes env.value? x := by
  induction expr generalizing x with
  | number n =>
    rw [value, Denotes, Except.ok.injEq]
    exact eq_comm
  | lookup name =>
    rw [value, Denotes]
    cases env.value? name <;> simp
  | arithmetic op left right ihleft ihright =>
    rw [value, Denotes, Graph.except_bind_eq_ok_iff]
    simp only [Graph.except_bind_eq_ok_iff, ihleft, ihright, Arithmetic.compute_eq_ok_iff]
    exact ⟨fun ⟨x, hx, y, hy, hz⟩ => ⟨x, y, hx, hy, hz⟩, fun ⟨x, y, hx, hy, hz⟩ =>
      ⟨x, hx, y, hy, hz⟩⟩
  | comparison op left right ihleft ihright =>
    rw [value, Denotes, Graph.except_bind_eq_ok_iff]
    simp only [Graph.except_bind_eq_ok_iff, ihleft, ihright, pure, Except.pure, Except.ok.injEq,
      Comparison.apply_eq_iff]
    exact ⟨fun ⟨x, hx, y, hy, hz⟩ => ⟨x, y, hx, hy, hz⟩, fun ⟨x, y, hx, hy, hz⟩ =>
      ⟨x, hx, y, hy, hz⟩⟩

/-! ### Faults -/

/-- **The first part that is at fault** fails with the failure. -/
def FirstFault (env : Env) (parts : List Expression) (f : Failure) : Prop :=
  ∃ before part after, parts = before ++ part :: after
    ∧ (∀ earlier ∈ before, ¬ earlier.IsFaulty env.value?)
    ∧ part.IsFaulty env.value? ∧ part.FailsWith env f

variable {parts later : List Expression}

theorem FirstFault.append (h : FirstFault env parts f) (later : List Expression) :
    FirstFault env (parts ++ later) f := by
  obtain ⟨before, part, after, rfl, hbefore, hfault⟩ := h
  exact ⟨before, part, after ++ later, by simp, hbefore, hfault⟩

theorem FirstFault.behind (h : FirstFault env later f)
    (hparts : ∀ part ∈ parts, ¬ part.IsFaulty env.value?) : FirstFault env (parts ++ later) f := by
  obtain ⟨before, part, after, rfl, hbefore, hfault⟩ := h
  refine ⟨parts ++ before, part, after, by simp, ?_, hfault⟩
  intro earlier hmem
  rcases List.mem_append.mp hmem with hmem | hmem
  · exact hparts earlier hmem
  · exact hbefore earlier hmem

/-- **An expression that has a value** has no part that is at fault. -/
theorem not_isFaulty_of_value (h : expr.value env = .ok x) :
    ∀ part ∈ expr.postorder, ¬ part.IsFaulty env.value? := by
  induction expr generalizing x with
  | number n => simp [postorder, IsFaulty]
  | lookup name =>
    rw [value_eq_ok_iff] at h
    have hbound : env.value? name = some x := h
    simp [postorder, IsFaulty, hbound]
  | arithmetic op left right ihleft ihright =>
    rw [value, Graph.except_bind_eq_ok_iff] at h
    obtain ⟨x, hx, h⟩ := h
    obtain ⟨y, hy, hcompute⟩ := Graph.except_bind_eq_ok_iff.mp h
    intro part hpart
    rw [postorder, List.mem_append, List.mem_append, List.mem_singleton] at hpart
    rcases hpart with (hpart | hpart) | rfl
    · exact ihleft hx part hpart
    · exact ihright hy part hpart
    · cases op with
      | div =>
        -- a divisor that denotes zero has the value zero
        intro hzero
        have hvalue : right.value env = .ok 0 := value_eq_ok_iff.mpr hzero
        obtain rfl : y = 0 := Except.ok.inj (hy.symm.trans hvalue)
        exact (Arithmetic.compute_eq_ok_iff.mp hcompute).1 rfl
      | _ => exact id
  | comparison op left right ihleft ihright =>
    rw [value, Graph.except_bind_eq_ok_iff] at h
    obtain ⟨x, hx, h⟩ := h
    obtain ⟨y, hy, -⟩ := Graph.except_bind_eq_ok_iff.mp h
    intro part hpart
    rw [postorder, List.mem_append, List.mem_append, List.mem_singleton] at hpart
    rcases hpart with (hpart | hpart) | rfl
    · exact ihleft hx part hpart
    · exact ihright hy part hpart
    · exact id

/-- Two operands and what is done with their values fail in the first part that is at fault. -/
theorem firstFault_of_operands {last : Expression} {k : Int → Int → Except Failure Int}
    (hleft : left.value env = .error f → FirstFault env left.postorder f)
    (hright : right.value env = .error f → FirstFault env right.postorder f)
    (hlast : ∀ x y, left.value env = .ok x → right.value env = .ok y → k x y = .error f →
      last.IsFaulty env.value? ∧ last.FailsWith env f)
    (h : (do let x ← left.value env; let y ← right.value env; k x y) = .error f) :
    FirstFault env (left.postorder ++ right.postorder ++ [last]) f := by
  rcases Graph.except_bind_eq_error_iff.mp h with herror | ⟨x, hx, h⟩
  · rw [List.append_assoc]
    exact (hleft herror).append _
  rw [List.append_assoc]
  refine FirstFault.behind ?_ (not_isFaulty_of_value hx)
  rcases Graph.except_bind_eq_error_iff.mp h with herror | ⟨y, hy, h⟩
  · exact (hright herror).append _
  · refine FirstFault.behind ?_ (not_isFaulty_of_value hy)
    exact ⟨[], last, [], rfl, by simp, hlast x y hx hy h⟩

/-- **An expression without a value** fails in the first part that is at fault. -/
theorem exists_firstFault (h : expr.value env = .error f) : FirstFault env expr.postorder f := by
  induction expr with
  | number n => cases h
  | lookup name =>
    rw [value] at h
    cases hname : env.value? name with
    | some x =>
      rw [hname] at h
      cases h
    | none =>
      rw [hname] at h
      cases h
      exact ⟨[], lookup name, [], rfl, by simp, hname, rfl⟩
  | arithmetic op left right ihleft ihright =>
    refine firstFault_of_operands ihleft ihright (fun x y hx hy hcompute => ?_) h
    obtain ⟨⟨rfl, rfl⟩, rfl⟩ := Arithmetic.compute_eq_error_iff.mp hcompute
    exact ⟨value_eq_ok_iff.mp hy, x, value_eq_ok_iff.mp hx, rfl⟩
  | comparison op left right ihleft ihright =>
    refine firstFault_of_operands (k := fun x y => pure (op.apply x y)) ihleft ihright ?_ h
    intro x y _ _ happly
    cases happly

end Expression

/-! ### Runs that only compute -/

namespace Eval

variable {α β : Type} {tracing : Bool} {env : Env} {x : Eval α} {k : α → Eval β}
  {outcome : Except Failure α} {next : α → Except Failure β}

/-- The events are visits of nodes, and there are none if they are not to be shown. -/
def OnlyVisits (tracing : Bool) (events : Log) : Prop :=
  (∀ event ∈ events, ∃ tag, event = .visited tag) ∧ (tracing = false → events = #[])

theorem OnlyVisits.append {events later : Log} (h : OnlyVisits tracing events)
    (hlater : OnlyVisits tracing later) : OnlyVisits tracing (events ++ later) := by
  constructor
  · intro event hevent
    rcases Array.mem_append.mp hevent with hevent | hevent
    · exact h.1 event hevent
    · exact hlater.1 event hevent
  · intro htracing
    rw [h.2 htracing, hlater.2 htracing]
    rfl

/-- Visits of nodes print nothing. -/
theorem OnlyVisits.printed {events : Log} (h : OnlyVisits tracing events) :
    events.printed = [] := by
  refine List.filterMap_eq_nil_iff.mpr fun event hevent => ?_
  obtain ⟨tag, rfl⟩ := h.1 event (Array.mem_toList_iff.mp hevent)
  rfl

/-- **A run that only computes**: in the environment it comes to the outcome, whatever the context
is, and it does nothing but show the nodes that it visits. -/
def Computes (tracing : Bool) (env : Env) (x : Eval α) (outcome : Except Failure α) : Prop :=
  ∀ log, ∃ events : Log, OnlyVisits tracing events
    ∧ ∀ context, x ⟨env, context, log⟩ = finish outcome ⟨env, context, log ++ events⟩

theorem Computes.of_eq
    (h : ∀ context log, x ⟨env, context, log⟩ = finish outcome ⟨env, context, log⟩) :
    Computes tracing env x outcome :=
  fun log => ⟨#[], ⟨by simp, fun _ => rfl⟩, fun context => h context log⟩

/-- What comes after an outcome is not reached if that is a failure. -/
theorem Computes.bind (hx : Computes tracing env x outcome)
    (hk : ∀ a, outcome = .ok a → Computes tracing env (k a) (next a)) :
    Computes tracing env (x >>= k) (outcome >>= next) := by
  intro log
  obtain ⟨events, hevents, hrun⟩ := hx log
  cases outcome with
  | error f =>
    refine ⟨events, hevents, fun context => ?_⟩
    rw [Steps.bind_of_error (hrun context)]
    rfl
  | ok a =>
    obtain ⟨later, hlater, hrest⟩ := hk a rfl (log ++ events)
    refine ⟨events ++ later, hevents.append hlater, fun context => ?_⟩
    rw [Steps.bind_of_ok (hrun context), hrest, Array.append_assoc]
    rfl

theorem Computes.attempt (operation : Except Failure α) :
    Computes tracing env (attempt operation) operation := by
  cases operation <;> exact .of_eq fun _ _ => rfl

/-- Showing a node comes before the rest of a run. -/
theorem Computes.visit {h : Host} (hx : Computes h.tracing env x outcome) (tag : String) :
    Computes h.tracing env (trace h (.visited tag) >>= fun _ => x) outcome := by
  intro log
  have htrace : ∀ context, trace h (.visited tag) ⟨env, context, log⟩
      = .ok () ⟨env, context, if h.tracing then log.push (.visited tag) else log⟩ := by
    intro context
    exact trace_apply h _ _
  cases htracing : h.tracing with
  | false =>
    obtain ⟨events, hevents, hrun⟩ := hx log
    rw [htracing] at hevents
    refine ⟨events, hevents, fun context => ?_⟩
    rw [Steps.bind_of_ok (htrace context), htracing]
    exact hrun context
  | true =>
    obtain ⟨events, hevents, hrun⟩ := hx (log.push (.visited tag))
    rw [htracing] at hevents
    have hvisit : OnlyVisits true #[.visited tag] :=
      ⟨fun event hevent => ⟨tag, by simpa using hevent⟩, nofun⟩
    refine ⟨#[.visited tag] ++ events, hvisit.append hevents, fun context => ?_⟩
    rw [Steps.bind_of_ok (htrace context), htracing, ← Array.append_assoc]
    exact hrun context

theorem Computes.inContext (hx : Computes tracing env x outcome) :
    Computes tracing env (inContext x) outcome := by
  intro log
  obtain ⟨events, hevents, hrun⟩ := hx log
  refine ⟨events, hevents, fun context => ?_⟩
  -- a context that is set up for the run is dropped as it has been set up
  cases outcome with
  | ok a => exact inContext_eq_ok hrun
  | error f => exact inContext_eq_error hrun

end Eval

/-! ### Nodes -/

/-- **A node spells an expression**: it is built from literals, variables, arithmetic and
comparisons. A node that is shared spells its expression at each of its occurrences. -/
inductive Graph.Spells (g : Graph) : Value → Expression → Prop where
  | number {v : Value} {n : Int} (hform : g.HasForm v (.number n)) : g.Spells v (.number n)
  | lookup {v : Value} {name : String} (hform : g.HasForm v (.lookup name)) :
    g.Spells v (.lookup name)
  | arithmetic {v left right : Value} {op : Arithmetic} {x y : Expression}
    (hform : g.HasForm v (.arithmetic op left right)) (hleft : g.Spells left x)
    (hright : g.Spells right y) : g.Spells v (.arithmetic op x y)
  | comparison {v left right : Value} {op : Comparison} {x y : Expression}
    (hform : g.HasForm v (.comparison op left right)) (hleft : g.Spells left x)
    (hright : g.Spells right y) : g.Spells v (.comparison op x y)

namespace Host

variable {h : Host} {v : Value} {expr : Expression} {depth : Nat} {form : Form}
  {outcome : Except Failure Int} {env : Env}

theorem computes_of_hasForm (hform : h.graph.HasForm v form)
    (hrule : Computes h.tracing env (h.evalForm (h.eval depth) form) outcome) :
    Computes h.tracing env (h.eval (depth + 1) v) outcome := by
  rw [eval_succ, evalNode_of_hasForm hform]
  exact (hrule.visit form.kind.name).inContext

/-- **A node that spells an expression computes its value**, with room for its height. -/
theorem eval_of_spells (hv : h.graph.Spells v expr) (hdepth : expr.height ≤ depth) :
    Computes h.tracing env (h.eval depth v) (expr.value env) := by
  induction hv generalizing depth with
  | @number v n hform =>
    obtain ⟨depth, rfl⟩ := Nat.exists_eq_add_of_le' hdepth
    exact computes_of_hasForm hform (.of_eq fun _ _ => rfl)
  | @lookup v name hform =>
    obtain ⟨depth, rfl⟩ := Nat.exists_eq_add_of_le' hdepth
    refine computes_of_hasForm hform (.of_eq fun context log => ?_)
    show h.valueOf (.text name) _ = _
    rw [valueOf_text, Expression.value]
    cases env.value? name <;> rfl
  | arithmetic hform _ _ ihleft ihright =>
    rw [Expression.height] at hdepth
    obtain ⟨depth, rfl⟩ := Nat.exists_eq_add_of_le' (Nat.le_trans (Nat.le_add_left 1 _) hdepth)
    refine computes_of_hasForm hform ((ihleft (by omega)).bind fun x _ => ?_)
    exact (ihright (by omega)).bind fun y _ => .attempt _
  | comparison hform _ _ ihleft ihright =>
    rw [Expression.height] at hdepth
    obtain ⟨depth, rfl⟩ := Nat.exists_eq_add_of_le' (Nat.le_trans (Nat.le_add_left 1 _) hdepth)
    refine computes_of_hasForm hform ((ihleft (by omega)).bind fun x _ => ?_)
    exact (ihright (by omega)).bind fun y _ => .of_eq fun _ _ => rfl

/-- What is left of a run that has come to an outcome. -/
theorem carryOut_of_finish {α : Type} {x : Eval α} {m m' : Machine} {outcome : Except Failure α}
    (hx : x m = finish outcome m') :
    x.carryOut m = ⟨outcome.mapError fun f => .failure ⟨f, none⟩, m'⟩ := by
  rw [carryOut, hx]
  cases outcome <;> rfl

/-- **Expressions denote exact integer arithmetic.** A node that spells an expression, with room
for the height of that, leaves the environment and the context as they are, and it prints nothing;
without tracing it leaves the whole machine as it is. It gives a value exactly when the expression
denotes that value, where a quotient is the only integer that multiplies back to the dividend up
to a smaller remainder on its side of zero. It gives none exactly when a part of the expression is
at fault, be it a variable that is not bound or a division whose divisor denotes zero; and it
fails as the first such part does, in the order of evaluation: with the name of the variable, or
with a message that shows the dividend of the division. -/
theorem eval_expression (h : Host) (v : Value) (expr : Expression) (depth : Nat) (m : Machine)
    (hv : h.graph.Spells v expr) (hdepth : expr.height ≤ depth) :
    (∃ events, ((h.eval depth v).carryOut m).machine = { m with log := m.log ++ events }
      ∧ Log.printed events = [] ∧ (h.tracing = false → events = #[]))
    ∧ (∀ x, ((h.eval depth v).carryOut m).result = .ok x ↔ expr.Denotes m.env.value? x)
    ∧ (∀ x y : Int, y ≠ 0 → ∃! q, IsQuotient x y q)
    ∧ ((∃ halt, ((h.eval depth v).carryOut m).result = .error halt)
      ↔ ∃ part ∈ expr.postorder, part.IsFaulty m.env.value?)
    ∧ ∀ halt, ((h.eval depth v).carryOut m).result = .error halt →
      ∃ f before part after, halt = .failure ⟨f, none⟩
        ∧ expr.postorder = before ++ part :: after
        ∧ (∀ earlier ∈ before, ¬ earlier.IsFaulty m.env.value?)
        ∧ ((∃ name, part = .lookup name ∧ m.env.value? name = none
            ∧ f = .undefinedVariable (.text name) m.env)
          ∨ ∃ left right x, part = .arithmetic .div left right
            ∧ right.Denotes m.env.value? 0 ∧ left.Denotes m.env.value? x
            ∧ f = .divisionByZero x
            ∧ f.message h.graph = "Division by zero: " ++ toString x ++ " / 0") := by
  have hcomputes : Computes h.tracing m.env (h.eval depth v) (expr.value m.env) :=
    eval_of_spells hv hdepth
  obtain ⟨events, hevents, hrun⟩ := hcomputes m.log
  have houtcome : (h.eval depth v).carryOut m
      = ⟨(expr.value m.env).mapError fun f => .failure ⟨f, none⟩,
        { m with log := m.log ++ events }⟩ := carryOut_of_finish (hrun m.context)
  rw [houtcome]
  refine ⟨⟨events, rfl, hevents.printed, hevents.2⟩, fun x => ?_, fun x y hy => ?_, ?_,
    fun halt hhalt => ?_⟩
  · rw [← Expression.value_eq_ok_iff]
    cases expr.value m.env <;> simp [Except.mapError]
  · exact ⟨x.tdiv y, isQuotient_tdiv x hy, fun q hq => eq_tdiv_of_isQuotient hy hq⟩
  · constructor
    · rintro ⟨halt, hhalt⟩
      cases hvalue : expr.value m.env with
      | ok x =>
        rw [hvalue] at hhalt
        cases hhalt
      | error f =>
        obtain ⟨before, part, after, hparts, -, hfaulty, -⟩ := Expression.exists_firstFault hvalue
        exact ⟨part, by simp [hparts], hfaulty⟩
    · rintro ⟨part, hpart, hfaulty⟩
      cases hvalue : expr.value m.env with
      | ok x => exact absurd hfaulty (Expression.not_isFaulty_of_value hvalue part hpart)
      | error f => exact ⟨_, rfl⟩
  · cases hvalue : expr.value m.env with
    | ok x =>
      rw [hvalue] at hhalt
      cases hhalt
    | error f =>
      rw [hvalue] at hhalt
      cases hhalt
      obtain ⟨before, part, after, hparts, hbefore, hfaulty, hfails⟩ :=
        Expression.exists_firstFault hvalue
      refine ⟨f, before, part, after, rfl, hparts, hbefore, ?_⟩
      -- only a variable and a division can be at fault
      cases part with
      | lookup name => exact .inl ⟨name, rfl, hfaulty, hfails⟩
      | arithmetic op left right =>
        cases op with
        | div =>
          obtain ⟨x, hx, rfl⟩ := hfails
          exact .inr ⟨left, right, x, rfl, hfaulty, hx, rfl, rfl⟩
        | _ => cases hfails
      | _ => cases hfails

/-- The quotient of -7 by 2, to which the quotient of `x` by the answer to `2 < -7` is added. -/
def quotients : Graph where
  objects := #[
    .record ⟨[("type", .text "NUMBER"), ("value", .int (-7))]⟩,
    .record ⟨[("type", .text "NUMBER"), ("value", .int 2)]⟩,
    .record ⟨[("op", .text "/"), ("left", .ref 0), ("right", .ref 1)]⟩,
    .record ⟨[("type", .text "OPERATION"), ("value", .ref 2)]⟩,
    .record ⟨[("type", .text "VARIABLE"), ("value", .text "x")]⟩,
    .record ⟨[("op", .text "<"), ("left", .ref 1), ("right", .ref 0)]⟩,
    .record ⟨[("type", .text "COMPARISON"), ("value", .ref 5)]⟩,
    .record ⟨[("op", .text "/"), ("left", .ref 4), ("right", .ref 6)]⟩,
    .record ⟨[("type", .text "OPERATION"), ("value", .ref 7)]⟩,
    .record ⟨[("op", .text "+"), ("left", .ref 3), ("right", .ref 8)]⟩,
    .record ⟨[("type", .text "OPERATION"), ("value", .ref 9)]⟩]

/-- The first quotient is -3, and the second one divides `x` by zero. -/
theorem quotients_denote :
    (quotients.Spells (.ref 3) (.arithmetic .div (.number (-7)) (.number 2))
      ∧ quotients.Spells (.ref 10) (.arithmetic .add
        (.arithmetic .div (.number (-7)) (.number 2))
        (.arithmetic .div (.lookup "x") (.comparison .lt (.number 2) (.number (-7))))))
    ∧ (((⟨quotients, false, 9, 9, 9⟩ : Host).eval 4 (.ref 3)).carryOut {}).result = .ok (-3)
    ∧ ∃ halt, (((⟨quotients, false, 9, 9, 9⟩ : Host).eval 4 (.ref 10)).carryOut
      { env := { values := ⟨[("x", 5)]⟩ } }).result = .error halt := by
  have hseven : quotients.Spells (.ref 0) (.number (-7)) := .number ⟨.int (-7), rfl, rfl⟩
  have htwo : quotients.Spells (.ref 1) (.number 2) := .number ⟨.int 2, rfl, rfl⟩
  have hx : quotients.Spells (.ref 4) (.lookup "x") := .lookup ⟨.text "x", rfl, rfl, by decide⟩
  have hfirst : quotients.Spells (.ref 3) (.arithmetic .div (.number (-7)) (.number 2)) :=
    .arithmetic ⟨.ref 2, rfl, rfl, ⟨rfl, nofun⟩, rfl, nofun⟩ hseven htwo
  have hless : quotients.Spells (.ref 6) (.comparison .lt (.number 2) (.number (-7))) :=
    .comparison ⟨.ref 5, rfl, rfl, ⟨rfl, nofun⟩, rfl, nofun⟩ htwo hseven
  have hsecond : quotients.Spells (.ref 8)
      (.arithmetic .div (.lookup "x") (.comparison .lt (.number 2) (.number (-7)))) :=
    .arithmetic ⟨.ref 7, rfl, rfl, ⟨rfl, nofun⟩, rfl, nofun⟩ hx hless
  have hsum : quotients.Spells (.ref 10) (.arithmetic .add
      (.arithmetic .div (.number (-7)) (.number 2))
      (.arithmetic .div (.lookup "x") (.comparison .lt (.number 2) (.number (-7))))) :=
    .arithmetic ⟨.ref 9, rfl, rfl, ⟨rfl, nofun⟩, rfl, nofun⟩ hfirst hsecond
  refine ⟨⟨hfirst, hsum⟩, ?_, ?_⟩
  · refine ((eval_expression _ _ _ 4 _ hfirst (by decide)).2.1 (-3)).mpr ?_
    -- -7 is -3 times 2 and a remainder of -1
    exact ⟨-7, 2, rfl, rfl, by decide, -1, by decide, by decide, .inr (by decide)⟩
  · refine (eval_expression _ _ _ 4 _ hsum (by decide)).2.2.2.1.mpr ?_
    refine ⟨.arithmetic .div (.lookup "x") (.comparison .lt (.number 2) (.number (-7))),
      by simp [Expression.postorder], ?_⟩
    exact ⟨2, -7, rfl, rfl, .inr ⟨show ¬ (2 : Int) < -7 by decide, rfl⟩⟩

end Host

end Treewalk
