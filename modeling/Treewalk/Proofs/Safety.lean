import Treewalk.Proofs.Cutoff
import Treewalk.Proofs.Functions
import Treewalk.Proofs.Triple

/-!
## Accepted programs do not go wrong

A program that validation accepts, run in an environment whose functions pass validation, either
gives one value for each statement or fails for a reason of its own: no node is objected to, and
every reading of the graph succeeds. The functions in the environment pass validation again
afterwards, however the run has ended.

* `safe_eval`: the evaluation of a well-formed node is safe, in any context and to any depth.
* `runProgram_safe`: the law for programs.
-/

namespace Treewalk

open Eval

namespace Graph

variable {g : Graph} {v : Value} {name : String} {f : Callable} {params : List String}
  {body : List Value} {env : Env}

/-- Every function in the environment passes validation. -/
def AcceptsFunctions (g : Graph) (env : Env) : Prop :=
  ∀ name f, env.function? name = some f → g.AcceptsFunction f

theorem AcceptsFunctions.singleton (hf : g.AcceptsFunction f) :
    g.AcceptsFunctions { functions := ⟨[(name, f)]⟩ } := by
  intro other f' hf'
  rw [Env.function?, Table.get?, Table.findEntry, Table.findEntry] at hf'
  split at hf'
  · cases hf'
    exact hf
  · cases hf'

theorem AcceptsFunctions.define (henv : g.AcceptsFunctions env) (hf : g.AcceptsFunction f) :
    g.AcceptsFunctions (env.define name f) := by
  intro other f' hf'
  rw [Env.function?_define] at hf'
  split at hf'
  · cases hf'
    exact hf
  · exact henv other f' hf'

theorem hasSignature_of_definition (hform : g.HasForm v (.definition name f params body)) :
    ∃ p b, f = .defined p b ∧ g.HasSignature (.defined p b) params body := by
  obtain ⟨payload, -, -, ⟨p, b, -, -, rfl⟩, hsignature⟩ := hform
  exact ⟨p, b, rfl, hsignature⟩

/-- What a well-formed definition defines passes validation. -/
theorem acceptsFunction_of_definition (hform : g.HasForm v (.definition name f params body))
    (hbody : ∀ s ∈ body, g.WellFormed s) : g.AcceptsFunction f := by
  obtain ⟨p, b, rfl, hsignature⟩ := hasSignature_of_definition hform
  exact acceptsFunction_defined_iff.mpr ⟨params, body, hsignature, hbody⟩

end Graph

/-- Neither an objection to a node nor a reading that failed. -/
def Halt.IsBenign : Halt → Prop
  | .failure _ | .tooDeep | .unfinished => True
  | .node _ | .fault _ => False

/-- A failure of the program, if the run has been followed to its end. -/
def Halt.IsFailure : Halt → Prop
  | .failure _ | .unfinished => True
  | .tooDeep | .node _ | .fault _ => False

namespace Host

variable (h : Host)

theorem checkpoints_benign :
    Checkpoints (fun _ => True) (fun _ => True) Halt.IsBenign where
  advance _ _ _ _ := trivial
  weaken _ _ := trivial
  interruption _ _ _ _ _ := trivial
  unfinished := trivial

/-- **A well-formed node is evaluated safely**, to any depth. The induction is on the depth and not
on the node, since a call goes on with a body from the environment. -/
theorem safe_eval (depth : Nat) : ∀ v, h.graph.WellFormed v →
    Safe (fun _ => True) h.graph.AcceptsFunctions Halt.IsBenign (h.eval depth v) := by
  induction depth with
  | zero => exact fun v _ => safe_throw trivial
  | succ depth ih =>
    intro v hv
    obtain ⟨form, hform⟩ := hv.hasForm
    have hchildren : ∀ c ∈ form.children, h.graph.WellFormed c :=
      fun c hc => hv.of_isChild ((Graph.isChild_iff hform).mpr hc)
    refine safe_evalNode hform (safe_evalForm checkpoints_benign (fun _ _ => trivial)
      (fun _ _ _ _ _ henv => henv) ?_ ?_ fun c hc => ih c (hchildren c hc))
    · -- the statements of what is defined are the children of the definition
      rintro name f params body env rfl henv
      exact henv.define (Graph.acceptsFunction_of_definition hform hchildren)
    · -- the body may stand anywhere, but the depth that is left is less
      intro name args env f _ henv hf
      obtain ⟨names, statements, hsignature, hstatements⟩ :=
        Graph.exists_signature_of_acceptsFunction (henv name f hf)
      exact ⟨names, statements, hsignature, fun _ _ _ _ henv' => henv',
        fun s hs => ih s (hstatements s hs)⟩

theorem safe_runStatements_of_wellFormed {vs : List Value}
    (hvs : ∀ v ∈ vs, h.graph.WellFormed v) (start : Nat) :
    Safe (fun _ => True) h.graph.AcceptsFunctions Halt.IsFailure (h.runStatements start vs) := by
  refine safe_runStatements (fun index v hv => ?_) start
  obtain ⟨form, hform⟩ := (hvs v hv).hasForm
  refine safe_runStatement (fun halt hbenign => ?_) (h.safe_eval h.nesting v (hvs v hv))
  cases halt with
  | node e => exact hbenign
  | fault f => exact hbenign
  | tooDeep =>
    -- the tag of the statement can be read, so that nesting too deep becomes a failure
    rw [blamed_tooDeep hform]
    trivial
  | _ => trivial

variable {h}

theorem exists_of_inContext_eq_ok {α : Type} {x : Eval α} {a : α} {m m' : Machine}
    (hrun : inContext x m = .ok a m') : ∃ m₁ m₂, x m₁ = .ok a m₂ := by
  cases hc : m.context with
  | some c =>
    rw [inContext_of_some x hc] at hrun
    exact ⟨m, m', hrun⟩
  | none =>
    rw [inContext, hc] at hrun
    cases hx : x { m with context := some .default } with
    | ok b m₂ =>
      simp only [hx] at hrun
      cases hrun
      exact ⟨_, m₂, hx⟩
    | error halt m₂ => simp [hx] at hrun

/-- A run of an accepted program that comes to its end without results has failed. -/
theorem exists_failure_of_yields {program : Value} {m : Machine} {outcome : Outcome (List Int)}
    {halt : Halt} {tracing : Bool} {depth : Nat}
    (hvalid : (h.graph.validateProgram tracing depth program).1 = .ok ())
    (hfunctions : h.graph.AcceptsFunctions m.env) (hyields : h.Yields program m outcome)
    (hhalt : outcome.result = .error halt) : ∃ e, halt = .failure e := by
  obtain ⟨statements, hitems, hstatements⟩ := Graph.exists_wellFormed_of_validateProgram hvalid
  obtain ⟨hended, enough, henough⟩ := hyields
  have hlands := lands_inContext (({ h with rounds := enough } : Host)
    |>.safe_runStatements_of_wellFormed hstatements 0) trivial hfunctions
  have hrun := henough enough (Nat.le_refl _)
  have hitems' : ({ h with rounds := enough } : Host).graph.items program = .ok statements := hitems
  rw [outcomeWithin, runProgram_eq hitems', carryOut] at hrun
  cases hstep : inContext (({ h with rounds := enough } : Host).runStatements 0 statements) m with
  | ok xs m' =>
    rw [hstep] at hrun
    rw [← hrun] at hhalt
    cases hhalt
  | error halt' m' =>
    rw [hstep] at hrun hlands
    rw [← hrun] at hhalt hended
    cases hhalt
    cases halt with
    | failure e => exact ⟨e, rfl⟩
    | unfinished => exact absurd rfl hended
    | _ => exact hlands.1.elim

/-- **Accepted programs do not go wrong.** A run of a program that validation accepts, in an
environment whose functions pass validation, in any context and traced or not, gives one value
for each statement or fails, if it ends; and the functions in the environment that is left pass
validation. -/
theorem runProgram_safe (h : Host) (program : Value) (m : Machine) (tracing : Bool) (depth : Nat)
    (hvalid : (h.graph.validateProgram tracing depth program).1 = .ok ())
    (hfunctions : ∀ name f, m.env.function? name = some f → h.graph.AcceptsFunction f)
    (hends : ((h.runProgram program).carryOut m).result ≠ .error .unfinished) :
    ((∃ statements xs, h.graph.items program = .ok statements
        ∧ ((h.runProgram program).carryOut m).result = .ok xs ∧ xs.length = statements.length)
      ∨ ∃ e, ((h.runProgram program).carryOut m).result = .error (.failure e))
    ∧ ∀ name f, ((h.runProgram program).carryOut m).machine.env.function? name = some f →
      h.graph.AcceptsFunction f := by
  obtain ⟨statements, hitems, hstatements⟩ :=
    Graph.exists_wellFormed_of_validateProgram hvalid
  rw [runProgram_eq hitems] at hends ⊢
  have hlands := lands_inContext (h.safe_runStatements_of_wellFormed hstatements 0)
    trivial hfunctions
  unfold carryOut at hends ⊢
  cases hrun : inContext (h.runStatements 0 statements) m with
  | ok xs m' =>
    rw [hrun] at hlands
    obtain ⟨m₁, m₂, hok⟩ := exists_of_inContext_eq_ok hrun
    exact ⟨.inl ⟨statements, xs, hitems, rfl, length_of_runStatements hok⟩, hlands⟩
  | error halt m' =>
    rw [hrun] at hlands hends
    obtain ⟨hfailure, henv⟩ := hlands
    cases halt with
    | failure e => exact ⟨.inr ⟨e, rfl⟩, henv⟩
    | unfinished => exact absurd rfl hends
    | _ =>
      -- objections to nodes and readings that fail do not end a safe run
      exact hfailure.elim

/-- A function of one parameter that divides it by itself, and a program that calls it with four
and with zero. -/
def selfQuotient : Graph where
  objects := #[
    .record ⟨[("type", .text "VARIABLE"), ("value", .text "x")]⟩,
    .record ⟨[("op", .text "/"), ("left", .ref 0), ("right", .ref 0)]⟩,
    .record ⟨[("type", .text "OPERATION"), ("value", .ref 1)]⟩,
    .tuple [.text "x"], .tuple [.ref 2],
    .record ⟨[("params", .ref 3), ("body", .ref 4)]⟩,
    .record ⟨[("type", .text "FUNCTION"), ("value", .ref 5)]⟩,
    .record ⟨[("type", .text "NUMBER"), ("value", .int 4)]⟩, .tuple [.ref 7],
    .record ⟨[("name", .text "f"), ("args", .ref 8)]⟩,
    .record ⟨[("type", .text "FUNCTION_CALL"), ("value", .ref 9)]⟩,
    .record ⟨[("type", .text "NUMBER"), ("value", .int 0)]⟩, .tuple [.ref 11],
    .record ⟨[("name", .text "f"), ("args", .ref 12)]⟩,
    .record ⟨[("type", .text "FUNCTION_CALL"), ("value", .ref 13)]⟩,
    .list [.ref 10, .ref 14]]

/-- The second call fails, and the function stays as it is. -/
theorem selfQuotient_safe :
    (selfQuotient.validateProgram false 4 (.ref 15)).1 = .ok ()
      ∧ ((∃ statements xs, selfQuotient.items (.ref 15) = .ok statements
          ∧ (((⟨selfQuotient, false, 9, 9, 9⟩ : Host).runProgram (.ref 15)).carryOut
            { env := { functions := ⟨[("f", .given (.ref 6))]⟩ } }).result = .ok xs
          ∧ xs.length = statements.length)
        ∨ ∃ e, (((⟨selfQuotient, false, 9, 9, 9⟩ : Host).runProgram (.ref 15)).carryOut
            { env := { functions := ⟨[("f", .given (.ref 6))]⟩ } }).result = .error (.failure e))
      ∧ ∀ name f, (((⟨selfQuotient, false, 9, 9, 9⟩ : Host).runProgram (.ref 15)).carryOut
          { env := { functions := ⟨[("f", .given (.ref 6))]⟩ } }).machine.env.function? name
            = some f → selfQuotient.AcceptsFunction f :=
  ⟨by decide, runProgram_safe ⟨selfQuotient, false, 9, 9, 9⟩ (.ref 15)
    { env := { functions := ⟨[("f", .given (.ref 6))]⟩ } } false 4 (by decide)
    (Graph.AcceptsFunctions.singleton
      ⟨.ref 6, selfQuotient, rfl, ⟨.ref 5, by decide⟩, 3, by decide⟩)
    (by decide +kernel)⟩

end Host

end Treewalk
