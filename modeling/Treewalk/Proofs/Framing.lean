import Treewalk.Proofs.Endings
import Treewalk.Proofs.Triple
import Treewalk.Proofs.Unread

/-!
## What a node leaves alone

A node below which nothing is called or defined binds only variables that are assigned below it,
and it prints only if something is printed below it. So a run of it that gives a value leaves all
other variables as they were, and all functions.

* `keeps_evalForm`: the rule for all forms without functions, for any condition on machines that
  the steps of a run keep.
* `leaves_of_eval`: what the evaluation of a node leaves alone.
-/

namespace Treewalk

open Eval

/-! ### What occurs below a node -/

namespace Graph

variable {g : Graph} {v c : Value} {x : String}

/-- The variable is assigned by a node that is reached from the value. -/
def Assigns (g : Graph) (v : Value) (x : String) : Prop :=
  ∃ w expr, g.Reaches v w ∧ g.HasForm w (.assignment x expr)

/-- The variable is read or assigned by a node that is reached from the value. -/
def Mentions (g : Graph) (v : Value) (x : String) : Prop :=
  g.Reads v x ∨ g.Assigns v x

/-- Something is printed by a node that is reached from the value. -/
def Prints (g : Graph) (v : Value) : Prop :=
  ∃ w expr, g.Reaches v w ∧ g.HasForm w (.print expr)

/-- The node is well formed, and **nothing is called or defined** below it. -/
structure CallsNothing (g : Graph) (v : Value) : Prop where
  wellFormed : g.WellFormed v
  kind : ∀ w form, g.Reaches v w → g.HasForm w form → form.kind ≠ .call ∧ form.kind ≠ .definition

theorem Assigns.of_isChild (hchild : g.IsChild v c) (h : g.Assigns c x) : g.Assigns v x := by
  obtain ⟨w, expr, hreaches, hform⟩ := h
  exact ⟨w, expr, Relation.ReflTransGen.head hchild hreaches, hform⟩

theorem Mentions.of_isChild (hchild : g.IsChild v c) (h : g.Mentions c x) : g.Mentions v x :=
  h.imp (Reads.of_isChild hchild) (Assigns.of_isChild hchild)

theorem Prints.of_isChild (hchild : g.IsChild v c) (h : g.Prints c) : g.Prints v := by
  obtain ⟨w, expr, hreaches, hform⟩ := h
  exact ⟨w, expr, Relation.ReflTransGen.head hchild hreaches, hform⟩

theorem CallsNothing.of_isChild (h : g.CallsNothing v) (hchild : g.IsChild v c) :
    g.CallsNothing c :=
  ⟨h.wellFormed.of_isChild hchild, fun w form hreaches =>
    h.kind w form (Relation.ReflTransGen.head hchild hreaches)⟩

end Graph

/-! ### Conditions that runs keep -/

namespace Eval

variable {α β : Type} {P : Machine → Prop} {x : Eval α} {f : α → Eval β} {h : Host}
  {assigned : String → Prop} {printing : Prop}

/-- A run that gives a value from a machine with `P` leaves one with `P`. -/
def Keeps (P : Machine → Prop) (x : Eval α) : Prop :=
  Triple P x P fun _ _ => True

/-- **The steps of a run keep `P`**: counting and showing, assignments of some variables, and, if
there is printing, printing. -/
structure Steady (h : Host) (assigned : String → Prop) (printing : Prop) (P : Machine → Prop) :
    Prop where
  context : ∀ m context, P m → P { m with context := context }
  event : h.tracing = true → ∀ m event, event.printedLine? = none → P m →
    P { m with log := m.log.push event }
  assign : ∀ m x n, assigned x → P m → P { m with env := m.env.setVariable x n }
  print : printing → ∀ m sink n, P m → P { m with log := m.log.push (.printed sink n) }

theorem keeps_pure (a : α) : Keeps P (pure a) :=
  Triple.pure a

theorem keeps_throw (halt : Halt) : Keeps P (throw halt : Eval α) :=
  Triple.throw fun _ _ => trivial

theorem Keeps.bind (hx : Keeps P x) (hf : ∀ a, Keeps P (f a)) : Keeps P (x >>= f) :=
  Triple.bind hx hf

theorem keeps_attempt (operation : Except Failure α) : Keeps P (attempt operation) := by
  cases operation with
  | ok a => exact keeps_pure a
  | error f => exact keeps_throw _

theorem keeps_valueOf (name : String) : Keeps P (h.valueOf (.text name)) := by
  intro m hm
  rw [Host.valueOf_text]
  cases m.env.value? name with
  | some n => exact hm
  | none => trivial

variable (hP : Steady h assigned printing P)
include hP

theorem Keeps.inContext (hx : Keeps P x) : Keeps P (inContext x) := by
  intro m hm
  refine Lands.inContext (fun m context => hP.context m context) (fun _ _ _ => id) ?_
  exact hx _ (hP.context m _ hm)

theorem keeps_checkpoint (site : String) : Keeps P (checkpoint site) := by
  intro m hm
  unfold Eval.checkpoint
  cases m.context with
  | none => trivial
  | some c =>
    dsimp only [Context.checkpoint]
    cases c.interruption? site with
    | none => exact hP.context m _ hm
    | some f => trivial

theorem keeps_trace {event : Event} (hevent : event.printedLine? = none) :
    Keeps P (trace h event) := by
  intro m hm
  rw [trace_apply]
  cases htracing : h.tracing with
  | false => exact hm
  | true => exact hP.event htracing m _ hevent hm

theorem keeps_assign {name : String} (hname : assigned name) (n : Int) :
    Keeps P (changeEnv (·.setVariable name n)) :=
  fun m hm => hP.assign m name n hname hm

theorem keeps_print (hprinting : printing) (n : Int) : Keeps P (print n) := by
  rintro ⟨env, context, log⟩ hm
  cases context with
  | none => trivial
  | some c => exact hP.print hprinting _ c.sink n hm

end Eval

/-! ### Forms -/

namespace Host

variable {h : Host} {self : Value → Eval Int} {P : Machine → Prop} {vs : List Value}
  {assigned : String → Prop} {printing : Prop} {form : Form}

theorem keeps_evalEach (hself : ∀ v ∈ vs, Keeps P (self v)) : Keeps P (evalEach self vs) := by
  induction vs with
  | nil => exact keeps_pure ()
  | cons v vs ih =>
    refine (hself v (List.mem_cons_self ..)).bind fun _ => ?_
    exact ih fun w hw => hself w (List.mem_cons_of_mem v hw)

variable (hP : Steady h assigned printing P)
include hP

theorem keeps_evalBody (hself : ∀ v ∈ vs, Keeps P (self v)) (last : Int) :
    Keeps P (evalBody self last vs) := by
  induction vs generalizing last with
  | nil => exact keeps_pure last
  | cons v vs ih =>
    refine (keeps_checkpoint hP _).bind fun _ => ?_
    refine (hself v (List.mem_cons_self ..)).bind fun x => ?_
    exact ih (fun w hw => hself w (List.mem_cons_of_mem v hw)) x

theorem keeps_evalRounds {condition : Value} (hcondition : Keeps P (self condition))
    (hbody : ∀ v ∈ vs, Keeps P (self v)) (rounds : Nat) :
    Keeps P (evalRounds self condition vs rounds) := by
  induction rounds with
  | zero => exact keeps_throw _
  | succ rounds ih =>
    refine (keeps_checkpoint hP _).bind fun _ => hcondition.bind fun test => ?_
    split
    · exact keeps_pure 0
    · exact (keeps_evalEach hbody).bind fun _ => ih

/-- **The rule for all forms without functions.** The children have to keep the condition, and what
the form assigns or prints has to be allowed. -/
theorem keeps_evalForm (hkind : form.kind ≠ .call ∧ form.kind ≠ .definition)
    (hassigned : ∀ name expr, form = .assignment name expr → assigned name)
    (hprinting : ∀ expr, form = .print expr → printing)
    (hchildren : ∀ c ∈ form.children, Keeps P (self c)) : Keeps P (h.evalForm self form) := by
  cases form with
  | number n => exact keeps_pure n
  | lookup name => exact keeps_valueOf name
  | assignment name expr =>
    refine (hchildren expr (by simp [Form.children])).bind fun n => ?_
    refine (keeps_assign hP (hassigned name expr rfl) n).bind fun _ => ?_
    exact (keeps_trace hP rfl).bind fun _ => keeps_pure n
  | arithmetic op left right =>
    refine (hchildren left (by simp [Form.children])).bind fun x => ?_
    exact (hchildren right (by simp [Form.children])).bind fun y => keeps_attempt _
  | comparison op left right =>
    refine (hchildren left (by simp [Form.children])).bind fun x => ?_
    exact (hchildren right (by simp [Form.children])).bind fun y => keeps_pure _
  | conditional condition body =>
    refine (hchildren condition (by simp [Form.children])).bind fun test => ?_
    split
    · exact hchildren body (by simp [Form.children])
    · exact keeps_pure 0
  | alternative condition body otherwise =>
    refine (hchildren condition (by simp [Form.children])).bind fun test => ?_
    split
    · exact hchildren body (by simp [Form.children])
    · exact hchildren otherwise (by simp [Form.children])
  | loop condition body =>
    exact Keeps.inContext hP (keeps_evalRounds hP (hchildren condition (by simp [Form.children]))
      (fun v hv => hchildren v (List.mem_cons_of_mem _ hv)) h.rounds)
  | print expr =>
    refine Keeps.inContext hP ((hchildren expr (by simp [Form.children])).bind fun n => ?_)
    exact keeps_print hP (hprinting expr rfl) n
  | definition name function params body => exact absurd rfl hkind.2
  | function params body => exact Keeps.inContext hP (keeps_evalBody hP hchildren 0)
  | call name args => exact absurd rfl hkind.1

/-- **A node keeps what its steps keep**, to any depth. -/
theorem keeps_eval (depth : Nat) : ∀ v, h.graph.CallsNothing v →
    (∀ x, h.graph.Assigns v x → assigned x) → (h.graph.Prints v → printing) →
    Keeps P (h.eval depth v) := by
  induction depth with
  | zero => exact fun v _ _ _ => keeps_throw _
  | succ depth ih =>
    intro v hv hassigned hprinting
    obtain ⟨form, hform⟩ := hv.wellFormed.hasForm
    rw [eval_succ, evalNode_of_hasForm hform]
    refine Keeps.inContext hP ((keeps_trace hP rfl).bind fun _ => ?_)
    refine keeps_evalForm hP (hv.kind v form .refl hform) ?_ ?_ fun c hc => ?_
    · rintro name expr rfl
      exact hassigned name ⟨v, expr, .refl, hform⟩
    · rintro expr rfl
      exact hprinting ⟨v, expr, .refl, hform⟩
    · have hchild : h.graph.IsChild v c := (Graph.isChild_iff hform).mpr hc
      exact ih c (hv.of_isChild hchild) (fun x hx => hassigned x (hx.of_isChild hchild))
        fun hprints => hprinting (hprints.of_isChild hchild)

end Host

/-! ### What is left alone -/

/-- **All but some variables is as it was**: the other variables, the functions, and what has been
printed, unless there is printing. Without tracing, there is then nothing new in the log at all. -/
structure Machine.Leaves (h : Host) (assigned : String → Prop) (printing : Prop)
    (m m' : Machine) : Prop where
  values : ∀ x, ¬ assigned x → m'.env.value? x = m.env.value? x
  functions : m'.env.functions = m.env.functions
  printed : ¬ printing → m'.log.printed = m.log.printed
  log : ¬ printing → h.tracing = false → m'.log = m.log

namespace Host

variable {h : Host} {v : Value} {depth : Nat} {n : Int} {m m' : Machine}

theorem steady_leaves (h : Host) (assigned : String → Prop) (printing : Prop) (m : Machine) :
    Steady h assigned printing (m.Leaves h assigned printing) where
  context _ _ hm := ⟨hm.values, hm.functions, hm.printed, hm.log⟩
  event htracing m' _ hevent hm := by
    refine ⟨hm.values, hm.functions, fun hsilent => ?_, fun _ hquiet => ?_⟩
    · rw [← hm.printed hsilent]
      simp [Log.printed, hevent]
    · rw [htracing] at hquiet
      cases hquiet
  assign m' x n hx hm := by
    refine ⟨fun other hother => ?_, hm.functions, hm.printed, hm.log⟩
    have hne : other ≠ x := by
      rintro rfl
      exact hother hx
    rw [Env.value?_setVariable, if_neg hne]
    exact hm.values other hother
  print hprinting _ _ _ hm :=
    ⟨hm.values, hm.functions, fun hsilent => absurd hprinting hsilent,
      fun hsilent => absurd hprinting hsilent⟩

/-- **What a node leaves alone** when it gives a value: the variables that it does not assign, the
functions, and, if nothing is printed below it, what has been printed. -/
theorem leaves_of_eval (hv : h.graph.CallsNothing v) (hrun : h.eval depth v m = .ok n m') :
    m.Leaves h (h.graph.Assigns v) (h.graph.Prints v) m' := by
  have hkeeps : Keeps (m.Leaves h (h.graph.Assigns v) (h.graph.Prints v)) (h.eval depth v) :=
    keeps_eval (steady_leaves h _ _ m) depth v hv (fun _ => id) id
  have hstart : m.Leaves h (h.graph.Assigns v) (h.graph.Prints v) m :=
    ⟨fun _ _ => rfl, rfl, fun _ => rfl, fun _ _ => rfl⟩
  have hend := hkeeps m hstart
  rw [hrun] at hend
  exact hend

end Host

end Treewalk
