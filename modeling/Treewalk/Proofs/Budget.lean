import Treewalk.Proofs.Height
import Treewalk.Proofs.Limits
import Treewalk.Proofs.Profile
import Treewalk.Proofs.Safety

/-!
## A budget ends every run

Neither a loop nor a call makes a node less high, since a call goes on with a body from the
environment. But each of them passes a checkpoint first, and a budget covers only so many. So the
depth that an evaluation needs is bounded by the height of its node and, for each checkpoint that
is left, the greatest height of a node or a function.

* `safe_eval_charged`: the bound for a node, with `s` checkpoints passed.
* `unfinished_of_budget`: no loop is followed for more rounds than the budget has checkpoints.
* `isShallow_of_runProgram`: with room up to the bound no run fails by nesting too deep.
* `runProgram_ends_within_budget`: so the run of an accepted program ends, and limits beyond the
  bound play no part in how it does.
-/

namespace Treewalk

open Eval

/-! ### What a budget covers -/

namespace Context

variable {c : Context} {site : String} {budget : Int}

theorem le_budget_of_interruption?_eq_none (h : c.interruption? site = none)
    (hbudget : c.budget = some budget) : (c.steps : Int) + 1 ≤ budget := by
  unfold interruption? at h
  split at h
  · cases h
  · rw [hbudget] at h
    by_contra hlt
    simp [show budget < (c.steps : Int) + 1 by omega] at h

theorem interruption?_ne_nestedTooDeep {f : Failure} (h : c.interruption? site = some f)
    (limit : Nat) (tag : Value) : f ≠ .nestedTooDeep limit tag := by
  unfold interruption? at h
  rintro rfl
  split at h
  · cases h
  · split at h
    · split at h <;> cases h
    · cases h

end Context

/-- The context has the given budget and has passed at least `s` checkpoints. -/
def Charged (budget : Int) (s : Nat) (c : Context) : Prop :=
  c.budget = some budget ∧ s ≤ c.steps

/-- The functions in the environment can be called, and their statements are well formed and
less high than `height`. -/
def Graph.CallableBelow (g : Graph) (height : Nat) (env : Env) : Prop :=
  ∀ name f, env.function? name = some f → ∃ names statements,
    g.HasSignature f names statements ∧ ∀ v ∈ statements, g.WellFormed v ∧ g.height v < height

/-- A failure other than nesting too deep, if the run has been followed to its end. -/
def Halt.IsShallow : Halt → Prop
  | .failure e => ∀ limit tag, e.failure ≠ .nestedTooDeep limit tag
  | .unfinished => True
  | .tooDeep | .node _ | .fault _ => False

theorem Form.Causes.ne_nestedTooDeep {form : Form} {f : Failure} (h : form.Causes f)
    (limit : Nat) (tag : Value) : f ≠ .nestedTooDeep limit tag := by
  rintro rfl
  cases form <;> simp [Form.Causes] at h

/-- A checkpoint that is passed is covered by the budget and charged. -/
theorem checkpoints_charged (budget : Int) (s : Nat) :
    Checkpoints (Charged budget s)
      (fun c => Charged budget (s + 1) c ∧ s + 1 ≤ budget.toNat) Halt.IsShallow where
  advance := by
    rintro c site ⟨hbudget, hs⟩ hpass
    have hle := Context.le_budget_of_interruption?_eq_none hpass hbudget
    refine ⟨⟨hbudget, ?_⟩, by omega⟩
    rw [Context.steps_advance]
    omega
  weaken := by
    rintro c ⟨⟨hbudget, hs⟩, -⟩
    exact ⟨hbudget, by omega⟩
  interruption _ _ _ _ hint := Context.interruption?_ne_nestedTooDeep hint
  unfinished := trivial

namespace Host

variable (h : Host) {budget : Int} {height : Nat}

/-- **The depth that an evaluation needs** is at most the height of its node and the greatest
height for each checkpoint that is left. A child is less high than its node; a statement of a
function may be higher, but then there is a checkpoint less. -/
theorem safe_eval_charged (depth : Nat) : ∀ v s, h.graph.WellFormed v →
    h.graph.height v ≤ height → h.graph.height v + (budget.toNat - s) * height ≤ depth →
    Safe (Charged budget s) (h.graph.CallableBelow height) Halt.IsShallow (h.eval depth v) := by
  induction depth with
  | zero =>
    intro v s hv _ hroom
    -- no room at all, but every node is at least one high
    have := Graph.height_pos hv
    omega
  | succ depth ih =>
    intro v s hv hheight hroom
    obtain ⟨form, hform⟩ := hv.hasForm
    have hchildren : ∀ c ∈ form.children,
        h.graph.WellFormed c ∧ h.graph.height c < h.graph.height v := by
      intro c hc
      have hchild := (Graph.isChild_iff hform).mpr hc
      exact ⟨hv.of_isChild hchild, Graph.height_lt_of_isChild hv hchild⟩
    refine safe_evalNode hform (safe_evalForm (checkpoints_charged budget s)
      (fun f hf => hf.ne_nestedTooDeep) ?_ ?_ ?_ ?_)
    · intro name expr x env _ henv
      exact henv
    · rintro name f params body env rfl henv other f' hf'
      rw [Env.function?_define] at hf'
      split at hf'
      · cases hf'
        obtain ⟨p, b, rfl, hsignature⟩ := Graph.hasSignature_of_definition hform
        refine ⟨params, body, hsignature, fun w hw => ?_⟩
        obtain ⟨hwell, hlt⟩ := hchildren w hw
        exact ⟨hwell, Nat.lt_of_lt_of_le hlt hheight⟩
      · exact henv other f' hf'
    · intro name args env f _ henv hf
      obtain ⟨names, statements, hsignature, hstatements⟩ := henv name f hf
      refine ⟨names, statements, hsignature, fun _ _ _ _ henv' => henv', fun w hw => ?_⟩
      obtain ⟨hwell, hlt⟩ := hstatements w hw
      rintro m ⟨⟨c, hc, hcharged, hcovered⟩, hN⟩
      -- the statement may be as high as any, which the checkpoint just passed pays for
      have hroom' : h.graph.height w + (budget.toNat - (s + 1)) * height ≤ depth := by
        have hsplit : (budget.toNat - s) * height
            = (budget.toNat - (s + 1)) * height + height := by
          rw [← Nat.succ_mul]
          congr 1
          omega
        have := Graph.height_pos hv
        omega
      have hsafe := ih w (s + 1) hwell (Nat.le_of_lt hlt) hroom'
      refine Triple.weaken hsafe (fun _ => id) ?_ m ⟨⟨c, hc, hcharged⟩, hN⟩
      rintro m' ⟨⟨c', hc', hcharged'⟩, hN'⟩
      exact ⟨⟨c', hc', hcharged', hcovered⟩, hN'⟩
    · intro c hc
      obtain ⟨hwell, hlt⟩ := hchildren c hc
      exact ih c s hwell (by omega) (by omega)

theorem safe_runStatements_charged {vs : List Value} (hnesting : (budget.toNat + 1) * height
      ≤ h.nesting) (hvs : ∀ v ∈ vs, h.graph.WellFormed v ∧ h.graph.height v ≤ height) :
    Safe (Charged budget 0) (h.graph.CallableBelow height) Halt.IsShallow
      (h.runStatements 0 vs) := by
  refine safe_runStatements (fun index v hv => ?_) 0
  obtain ⟨hwell, hle⟩ := hvs v hv
  refine safe_runStatement (fun halt hshallow => ?_)
    (h.safe_eval_charged h.nesting v 0 hwell hle ?_)
  · cases halt with
    | failure e => exact hshallow
    | unfinished => trivial
    | _ => exact hshallow.elim
  · rw [Nat.add_mul, Nat.one_mul] at hnesting
    rw [Nat.sub_zero]
    omega

end Host

/-! ### Loops -/

/-- With a budget, a run is cut at a checkpoint, or the budget covers all checkpoints. -/
theorem Profile.playCuts_of_budget {α : Type} (next : Context → EStateM.Result Halt Machine α)
    (cuts : List Cut) {c : Context} {budget : Int} (hbudget : c.budget = some budget) :
    (∃ f statement m, playCuts next cuts c = .error (.failure ⟨f, statement⟩) m)
      ∨ ∃ c', playCuts next cuts c = next c'
        ∧ (cuts = [] ∨ (c.steps : Int) + cuts.length ≤ budget) := by
  induction cuts generalizing c with
  | nil => exact .inr ⟨c, rfl, .inl rfl⟩
  | cons cut cuts ih =>
    rw [playCuts]
    cases hint : c.interruption? cut.site with
    | some f => exact .inl ⟨f, cut.statement, _, rfl⟩
    | none =>
      have hle := Context.le_budget_of_interruption?_eq_none hint hbudget
      have hadvanced : c.advance.budget = some budget := by rw [Context.budget_advance, hbudget]
      rcases ih hadvanced with hcut | ⟨c', hnext, hcuts⟩
      · exact .inl hcut
      · refine .inr ⟨c', hnext, .inr ?_⟩
        rw [List.length_cons]
        rcases hcuts with rfl | hcuts
        · simpa using hle
        · rw [Context.steps_advance] at hcuts
          omega

namespace Host

variable {h : Host} {program : Value} {env : Env} {log : Log} {c : Context} {budget : Int}

/-- **No loop is followed for more rounds than the budget has checkpoints.** -/
theorem unfinished_of_budget (hbudget : c.budget = some budget)
    (hrounds : budget.toNat < h.rounds) :
    ((h.runProgram program).carryOut ⟨env, some c, log⟩).result ≠ .error .unfinished := by
  obtain ⟨p, hplay, -, hcount⟩ := h.runProgram_profiled program env log c.sink
  rw [carryOut, hplay c rfl, Profile.play]
  rcases Profile.playCuts_of_budget p.finish p.cuts hbudget with
    ⟨f, statement, m, hcut⟩ | ⟨c', hnext, hcuts⟩
  · rw [hcut]
    simp
  · rw [hnext, Profile.finish]
    cases hresult : p.result with
    | ok xs => simp
    | error halt =>
      intro hunfinished
      -- all rounds have passed their checkpoints, which are more than the budget covers
      have hle := hcount (by rw [hresult]; exact hunfinished)
      rcases hcuts with hnil | hcovered
      · rw [hnil, List.length_nil] at hle
        omega
      · omega

/-! ### Programs -/

theorem callableBelow_greatestHeight (g : Graph) (program : Value) (env : Env)
    (hfunctions : g.AcceptsFunctions env) :
    g.CallableBelow (g.greatestHeight program env) env := by
  intro name f hf
  obtain ⟨names, body, hsignature, hbody⟩ :=
    Graph.exists_signature_height_lt (hfunctions name f hf)
  refine ⟨names, body, hsignature, fun v hv => ?_⟩
  obtain ⟨hwell, hlt⟩ := hbody v hv
  exact ⟨hwell, Nat.lt_of_lt_of_le hlt (Graph.functionHeight_le_greatestHeight program hf)⟩

/-- **With room up to the bound an accepted program does not fail by nesting too deep.** -/
theorem isShallow_of_runProgram {tracing : Bool} {depth : Nat} {halt : Halt}
    (hbudget : c.budget = some budget)
    (hvalid : (h.graph.validateProgram tracing depth program).1 = .ok ())
    (hfunctions : h.graph.AcceptsFunctions env)
    (hnesting : (budget.toNat + 1) * h.graph.greatestHeight program env ≤ h.nesting)
    (hhalt : ((h.runProgram program).carryOut ⟨env, some c, log⟩).result = .error halt) :
    halt.IsShallow := by
  obtain ⟨statements, hitems, hstatements⟩ := Graph.exists_wellFormed_of_validateProgram hvalid
  have hvs : ∀ v ∈ statements, h.graph.WellFormed v
      ∧ h.graph.height v ≤ h.graph.greatestHeight program env :=
    fun v hv => ⟨hstatements v hv, Graph.height_le_greatestHeight env hitems hv⟩
  have hlands := lands_inContext (h.safe_runStatements_charged hnesting hvs)
    (m := ⟨env, some c, log⟩) ⟨hbudget, Nat.zero_le _⟩
    (callableBelow_greatestHeight h.graph program env hfunctions)
  rw [← runProgram_eq hitems] at hlands
  unfold carryOut at hhalt
  cases hresult : h.runProgram program ⟨env, some c, log⟩ with
  | ok xs m' => simp [hresult] at hhalt
  | error halt' m' =>
    rw [hresult] at hhalt hlands
    obtain rfl := Except.error.inj hhalt
    exact hlands.1

/-- Wider limits change nothing about a run that has come to its end and did not fail by nesting
too deep. -/
theorem carryOut_eq_of_isShallow {m : Machine} {nesting rounds : Nat}
    (hnesting : h.nesting ≤ nesting) (hrounds : h.rounds ≤ rounds)
    (hshallow : ∀ halt, ((h.runProgram program).carryOut m).result = .error halt →
      halt.IsShallow)
    (hended : ((h.runProgram program).carryOut m).result ≠ .error .unfinished) :
    (({ h with nesting := nesting, rounds := rounds } : Host).runProgram program).carryOut m
      = (h.runProgram program).carryOut m := by
  have hcontinues := h.runProgram_continues (fun halt => halt = .tooDeep ∨ halt = .unfinished)
    (fun halt => ¬ halt.IsShallow ∨ halt = .unfinished) hrounds (fun _ => .inr rfl) hnesting
    (fun _ => .inl rfl) program ?_
  · refine hcontinues.carryOut_eq fun halt hhalt hgave => ?_
    rcases hgave with hgave | rfl
    · exact hgave (hshallow halt hhalt)
    · exact hended hhalt
  · rintro index v halt (rfl | rfl)
    · -- with or without a tag, what it becomes is not shallow
      refine .inl ?_
      rw [blamed]
      cases h.graph.field v "type" with
      | ok tag => exact fun hno => hno _ _ rfl
      | error f => exact id
    · exact .inr rfl

/-- **A budget ends every run**, and it bounds nesting. The run of an accepted program, in an
environment whose functions pass validation and in a context with a budget, is the same for all
limits on nesting from the bound on, and however long its loops are followed, beyond the budget;
it has come to its end, and not by nesting too deep. The bound is the greatest height among the
statements and the functions, taken once for each checkpoint that the budget covers and once
more. -/
theorem runProgram_ends_within_budget (h : Host) (program : Value) (env : Env) (log : Log)
    (c : Context) (budget : Int) (tracing : Bool) (depth : Nat)
    (hbudget : c.budget = some budget)
    (hvalid : (h.graph.validateProgram tracing depth program).1 = .ok ())
    (hfunctions : ∀ name f, env.function? name = some f → h.graph.AcceptsFunction f) :
    ∃ outcome : Outcome (List Int),
      (∀ nesting rounds, (budget.toNat + 1) * h.graph.greatestHeight program env ≤ nesting →
        budget.toNat < rounds →
        (({ h with nesting := nesting, rounds := rounds } : Host).runProgram program).carryOut
          ⟨env, some c, log⟩ = outcome)
      ∧ outcome.result ≠ .error .unfinished ∧ outcome.result ≠ .error .tooDeep
      ∧ ∀ limit tag statement,
        outcome.result ≠ .error (.failure ⟨.nestedTooDeep limit tag, statement⟩) := by
  -- the narrowest limits, from which all others follow
  let narrow : Host := { h with
    nesting := (budget.toNat + 1) * h.graph.greatestHeight program env
    rounds := budget.toNat + 1 }
  have hshallow : ∀ halt, ((narrow.runProgram program).carryOut ⟨env, some c, log⟩).result
      = .error halt → halt.IsShallow :=
    fun halt => isShallow_of_runProgram hbudget hvalid hfunctions (Nat.le_refl _)
  have hended : ((narrow.runProgram program).carryOut ⟨env, some c, log⟩).result
      ≠ .error .unfinished := unfinished_of_budget hbudget (Nat.lt_succ_self _)
  refine ⟨(narrow.runProgram program).carryOut ⟨env, some c, log⟩, ?_, hended,
    fun hdeep => hshallow _ hdeep, fun limit tag statement hdeep => hshallow _ hdeep limit tag rfl⟩
  intro nesting rounds hnesting hrounds
  exact carryOut_eq_of_isShallow (h := narrow) hnesting hrounds hshallow hended

/-- A function that calls itself and does nothing else, and a program that calls it. -/
def endlessCall : Graph where
  objects := #[.tuple [],
    .record ⟨[("name", .text "f"), ("args", .ref 0)]⟩,
    .record ⟨[("type", .text "FUNCTION_CALL"), ("value", .ref 1)]⟩, .tuple [.ref 2],
    .record ⟨[("params", .ref 0), ("body", .ref 3)]⟩,
    .record ⟨[("type", .text "FUNCTION"), ("value", .ref 4)]⟩]

/-- The endless call ends if there is a budget. -/
theorem endlessCall_ends :
    (endlessCall.validateProgram false 7 (.ref 3)).1 = .ok ()
      ∧ ∃ outcome : Outcome (List Int),
        (∀ nesting rounds,
          ((2 : Int).toNat + 1) * endlessCall.greatestHeight (.ref 3)
            { functions := ⟨[("f", .given (.ref 5))]⟩ } ≤ nesting → (2 : Int).toNat < rounds →
          ((⟨endlessCall, false, nesting, 9, rounds⟩ : Host).runProgram (.ref 3)).carryOut
            ⟨{ functions := ⟨[("f", .given (.ref 5))]⟩ }, some { budget := some 2 }, #[]⟩ = outcome)
        ∧ outcome.result ≠ .error .unfinished ∧ outcome.result ≠ .error .tooDeep
        ∧ ∀ limit tag statement,
          outcome.result ≠ .error (.failure ⟨.nestedTooDeep limit tag, statement⟩) :=
  ⟨by decide, runProgram_ends_within_budget ⟨endlessCall, false, 9, 9, 9⟩ (.ref 3)
    { functions := ⟨[("f", .given (.ref 5))]⟩ } #[] { budget := some 2 } 2 false 7 rfl (by decide)
    (Graph.AcceptsFunctions.singleton
      ⟨.ref 5, endlessCall, rfl, ⟨.ref 4, by decide⟩, 7, by decide⟩)⟩

end Host

end Treewalk
