import Treewalk.Proofs.Coverage
import Treewalk.Proofs.Safety

/-!
## What a run can touch

A run touches what its summary tells and no more. It binds the names that are assigned and the
parameters of the functions that are defined in the program; it defines functions under the names
that are defined; and a call that fails by itself is one of a name that is called. Functions are
called from wherever they have been stored, so what carries the proof is that every function in
the environment is that of a definition that occurs in the program, and its body with it.

* `safe_eval_within`: what is kept while a node is evaluated.
* `runProgram_footprint`: what a run of an accepted program can touch, however it ends.
-/

namespace Treewalk

open Eval

/-! ### Failures of calls -/

/-- The failure is one of a call: its name has no function, or one for other arguments. -/
def Failure.IsOfCall (f : Failure) : Prop :=
  f.kind = "UndefinedFunction" ∨ f.kind = "ArityMismatch"

/-- A checkpoint never fails as a call does. -/
theorem Context.not_isOfCall_of_interruption? {c : Context} {site : String} {f : Failure}
    (h : c.interruption? site = some f) : ¬ f.IsOfCall := by
  have hname := identifier?_of_interruption? h
  cases f <;> simp_all [Failure.IsOfCall, Failure.kind, Failure.identifier?]

/-- A failure of a call is caused by calls only, and names what is called. -/
theorem Form.Causes.exists_call {form : Form} {f : Failure} (hcauses : form.Causes f)
    (hcall : f.IsOfCall) :
    ∃ name args, form = .call name args ∧ f.identifier? = some (.text name) := by
  cases form with
  | lookup name =>
    obtain ⟨env, rfl⟩ := hcauses
    simp [Failure.IsOfCall, Failure.kind] at hcall
  | arithmetic op left right =>
    obtain ⟨x, rfl⟩ := hcauses
    simp [Failure.IsOfCall, Failure.kind] at hcall
  | call name args =>
    rcases hcauses with ⟨env, rfl⟩ | ⟨expected, got, rfl⟩ <;> exact ⟨name, args, rfl, rfl⟩
  | _ => cases hcauses

/-! ### Environments within a program -/

namespace Graph

variable {g : Graph} {program w : Value} {summary : Summary} {initial env : Env} {name : String}

/-- The name is a parameter of a function that is defined in the program. -/
def IsParameter (g : Graph) (program : Value) (name : String) : Prop :=
  ∃ w f fname params body, g.Occurs program w ∧ g.HasForm w (.definition fname f params body)
    ∧ name ∈ params

/-- The environment has come from the initial one by what the program can do. -/
structure Within (g : Graph) (program : Value) (summary : Summary) (initial env : Env) : Prop where
  /-- A variable has its initial value, or it is assigned or a parameter. -/
  values : ∀ name, env.value? name = initial.value? name ∨ name ∈ summary.assigned
    ∨ g.IsParameter program name
  /-- A function is that of a definition of its name. -/
  functions : ∀ name f, env.function? name = some f → name ∈ summary.defined
    ∧ ∃ w params body, g.Occurs program w ∧ g.HasForm w (.definition name f params body)

theorem Within.setVariable (henv : g.Within program summary initial env)
    (hname : name ∈ summary.assigned ∨ g.IsParameter program name) (x : Int) :
    g.Within program summary initial (env.setVariable name x) where
  values := by
    intro other
    rw [Env.value?_setVariable]
    by_cases hother : other = name
    · rw [hother]
      exact .inr hname
    · rw [if_neg hother]
      exact henv.values other
  functions := henv.functions

theorem Within.define {params : List String} {body : List Value} {f : Callable}
    (henv : g.Within program summary initial env) (hname : name ∈ summary.defined)
    (hw : g.Occurs program w) (hform : g.HasForm w (.definition name f params body)) :
    g.Within program summary initial (env.define name f) where
  values := henv.values
  functions := by
    intro other f' hf'
    rw [Env.function?_define] at hf'
    split at hf'
    · rename_i hother
      cases hf'
      rw [hother]
      exact ⟨hname, w, params, body, hw, hform⟩
    · exact henv.functions other f' hf'

end Graph

/-- If the halt is a failure of a call, then of one that the summary tells of. -/
def Halt.IsCovered (summary : Summary) (halt : Halt) : Prop :=
  ∀ e, halt = .failure e → e.failure.IsOfCall →
    ∃ name ∈ summary.called, e.failure.identifier? = some (.text name)

namespace Host

variable (h : Host) {program : Value} {summary : Summary} {initial : Env}

theorem checkpoints_covered (summary : Summary) :
    Checkpoints (fun _ => True) (fun _ => True) (Halt.IsCovered summary) where
  advance _ _ _ _ := trivial
  weaken _ _ := trivial
  interruption c site f _ hint := by
    rintro e heq hcall
    cases heq
    exact absurd hcall (Context.not_isOfCall_of_interruption? hint)
  unfinished := by
    intro e heq
    cases heq

/-- **While a node of the program is evaluated**, the environment stays within the program, and
failures of calls are covered. -/
theorem safe_eval_within
    (hcovers : ∀ w form, h.graph.Occurs program w → h.graph.HasForm w form → summary.Covers form)
    (hwell : ∀ w, h.graph.Occurs program w → h.graph.WellFormed w) (depth : Nat) :
    ∀ v, h.graph.Occurs program v → Safe (fun _ => True)
      (h.graph.Within program summary initial) (Halt.IsCovered summary) (h.eval depth v) := by
  induction depth with
  | zero => exact fun v _ => safe_throw (fun e heq => nomatch heq)
  | succ depth ih =>
    intro v hv
    obtain ⟨form, hform⟩ := (hwell v hv).hasForm
    have hnoted : summary.Covers form := hcovers v form hv hform
    refine safe_evalNode hform (safe_evalForm (checkpoints_covered summary) ?_ ?_ ?_ ?_
      fun c hc => ih c (hv.of_isChild ((Graph.isChild_iff hform).mpr hc)))
    · intro f hcauses e heq hcall
      cases heq
      obtain ⟨name, args, rfl, hidentifier⟩ := hcauses.exists_call hcall
      exact ⟨name, hnoted, hidentifier⟩
    · rintro name expr x env rfl henv
      exact henv.setVariable (.inl hnoted) x
    · rintro name f params body env rfl henv
      exact henv.define hnoted hv hform
    · -- the body belongs to a definition in the program, and so do its parameters
      intro name args env f _ henv hf
      obtain ⟨-, w, params, body, hw, hdefinition⟩ := henv.functions name f hf
      obtain ⟨p, b, rfl, hsignature⟩ := Graph.hasSignature_of_definition hdefinition
      refine ⟨params, body, hsignature, fun param hparam x env' henv' => ?_, fun s hs => ?_⟩
      · exact henv'.setVariable (.inr ⟨w, _, name, params, body, hw, hdefinition, hparam⟩) x
      · exact ih s (hw.of_isChild ((Graph.isChild_iff hdefinition).mpr hs))

/-- A statement is blamed for no call but those that its evaluation has failed at. -/
theorem isCovered_blamed {index : Nat} {v : Value} {halt : Halt} (hhalt : halt.IsCovered summary) :
    (h.blamed index v halt).IsCovered summary := by
  intro e heq hcall
  cases halt with
  | failure e' =>
    cases heq
    exact hhalt e' rfl hcall
  | tooDeep =>
    -- nesting too deep is no failure of a call, even where it happens within one
    unfold blamed at heq
    cases htag : h.graph.field v "type" with
    | ok tag =>
      rw [htag] at heq
      cases heq
      simp [Failure.IsOfCall, Failure.kind] at hcall
    | error f =>
      rw [htag] at heq
      cases heq
  | _ => cases heq

/-- So it is while the statements of the program run. -/
theorem safe_runStatements_within {statements : List Value}
    (hcovers : ∀ w form, h.graph.Occurs program w → h.graph.HasForm w form → summary.Covers form)
    (hwell : ∀ w, h.graph.Occurs program w → h.graph.WellFormed w)
    (hitems : h.graph.items program = .ok statements) (start : Nat) :
    Safe (fun _ => True) (h.graph.Within program summary initial) (Halt.IsCovered summary)
      (h.runStatements start statements) := by
  refine safe_runStatements (fun index v hv => ?_) start
  refine safe_runStatement (fun halt => h.isCovered_blamed) ?_
  exact h.safe_eval_within hcovers hwell h.nesting v
    ⟨statements, hitems, v, hv, Relation.ReflTransGen.refl⟩

/-- **What a run of an accepted program can touch.** Take a program that validation accepts, an
environment without functions, and any context or none. However the run ends, a variable that is
bound to something else than before is one that the summary tells to be assigned, or a parameter
of a definition that occurs in the program; a function in the environment has a name that the
summary tells to be defined, and the parameters and the body of a definition of that name that
occurs in the program; and if the run fails because a function is undefined or called with the
wrong number of arguments, then the summary tells its name to be called. -/
theorem runProgram_footprint (h : Host) (program : Value) (m : Machine) (tracing : Bool)
    (depth : Nat) (hvalid : (h.graph.validateProgram tracing depth program).1 = .ok ())
    (hnone : ∀ name, m.env.function? name = none) :
    (∀ name, ((h.runProgram program).carryOut m).machine.env.value? name ≠ m.env.value? name →
      name ∈ (h.graph.validateProgram tracing depth program).2.summary.assigned
        ∨ ∃ w f fname params body, h.graph.Occurs program w
          ∧ h.graph.HasForm w (.definition fname f params body) ∧ name ∈ params)
    ∧ (∀ name f, ((h.runProgram program).carryOut m).machine.env.function? name = some f →
      name ∈ (h.graph.validateProgram tracing depth program).2.summary.defined
        ∧ ∃ w params body, h.graph.Occurs program w
          ∧ h.graph.HasForm w (.definition name f params body))
    ∧ ∀ e, ((h.runProgram program).carryOut m).result = .error (.failure e) →
      e.failure.kind = "UndefinedFunction" ∨ e.failure.kind = "ArityMismatch" →
      ∃ name ∈ (h.graph.validateProgram tracing depth program).2.summary.called,
        e.failure.identifier? = some (.text name) := by
  obtain ⟨statements, hitems, hstatements⟩ := Graph.exists_wellFormed_of_validateProgram hvalid
  have hwell : ∀ w, h.graph.Occurs program w → h.graph.WellFormed w := by
    rintro w ⟨statements', hitems', s, hs, hreaches⟩
    obtain rfl : statements = statements' := Except.ok.inj (hitems.symm.trans hitems')
    exact (hstatements s hs).of_reaches hreaches
  have hinitial : h.graph.Within program
      (h.graph.validateProgram tracing depth program).2.summary m.env m.env :=
    ⟨fun name => .inl rfl, fun name f hf => by rw [hnone name] at hf; cases hf⟩
  have hlands := lands_inContext (h.safe_runStatements_within
    (fun w form => Graph.covers_of_validateProgram hvalid) hwell hitems 0)
    (show (fun _ => True) (m.context.getD .default) from trivial) hinitial
  rw [runProgram_eq hitems]
  unfold carryOut
  cases hrun : inContext (h.runStatements 0 statements) m with
  | ok xs m' =>
    rw [hrun] at hlands
    exact ⟨fun name hne => (hlands.values name).resolve_left hne, hlands.functions,
      fun e heq => nomatch heq⟩
  | error halt m' =>
    rw [hrun] at hlands
    obtain ⟨hcovered, henv⟩ := hlands
    refine ⟨fun name hne => (henv.values name).resolve_left hne, henv.functions, ?_⟩
    exact fun e heq => hcovered e (Except.error.inj heq)

/-- A program that defines a function of one parameter, which assigns a variable and calls what is
not defined, and that calls it. -/
def callsUndefined : Graph where
  objects := #[
    .record ⟨[("type", .text "NUMBER"), ("value", .int 4)]⟩,
    .record ⟨[("name", .text "x"), ("expr", .ref 0)]⟩,
    .record ⟨[("type", .text "ASSIGNMENT"), ("value", .ref 1)]⟩,
    .tuple [], .record ⟨[("name", .text "g"), ("args", .ref 3)]⟩,
    .record ⟨[("type", .text "FUNCTION_CALL"), ("value", .ref 4)]⟩,
    .tuple [.text "y"], .tuple [.ref 2, .ref 5],
    .record ⟨[("name", .text "f"), ("params", .ref 6), ("body", .ref 7)]⟩,
    .record ⟨[("type", .text "FUNCTION_DEF"), ("value", .ref 8)]⟩,
    .tuple [.ref 0], .record ⟨[("name", .text "f"), ("args", .ref 10)]⟩,
    .record ⟨[("type", .text "FUNCTION_CALL"), ("value", .ref 11)]⟩,
    .list [.ref 9, .ref 12]]

/-- The run fails in the body of the function, which has bound both variables. -/
theorem callsUndefined_footprint :
    ((callsUndefined.validateProgram false 4 (.ref 13)).1 = .ok ()
      ∧ ∀ name, (Env.empty : Env).function? name = none)
    ∧ ("x" ∈ (callsUndefined.validateProgram false 4 (.ref 13)).2.summary.assigned
      ∨ ∃ w f fname params body, callsUndefined.Occurs (.ref 13) w
        ∧ callsUndefined.HasForm w (.definition fname f params body) ∧ "x" ∈ params)
    ∧ (∃ w params body, callsUndefined.Occurs (.ref 13) w
      ∧ callsUndefined.HasForm w (.definition "f" (.defined (.ref 6) (.ref 7)) params body))
    ∧ ∃ name ∈ (callsUndefined.validateProgram false 4 (.ref 13)).2.summary.called,
      some (Value.text "g") = some (.text name) := by
  have hvalid : (callsUndefined.validateProgram false 4 (.ref 13)).1 = .ok () := by
    decide
  obtain ⟨hvalues, hfunctions, hcalled⟩ := runProgram_footprint
    ⟨callsUndefined, false, 9, 9, 9⟩ (.ref 13) {} false 4 hvalid fun _ => rfl
  refine ⟨⟨hvalid, fun _ => rfl⟩, hvalues "x" ?_, (hfunctions "f" _ ?_).2, hcalled _ rfl (.inl ?_)⟩
  · decide
  · rfl
  · rfl

end Host

end Treewalk
