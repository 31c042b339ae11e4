import Treewalk.Proofs.Congruence
import Treewalk.Proofs.Statements

/-!
## A run taken apart at its checkpoints

A run meets its context at checkpoints and when it prints, and printing looks at nothing but the
sink. So, whatever machine a run starts on, there is a list of what would be left if it were
ended at its first checkpoint, at its second one, and so on, and an end that it comes to if it
passes all of them; and none of this depends on the hook and the budget. This is the `Profile`
of the run, and `Profile.play` is the run in a given context.

The log of a run only grows, and a run that is not followed to its end has passed as many
checkpoints as a loop has rounds.

* `Host.eval_profiled`, `Host.runProgram_profiled`: the evaluation of a node and the run of a
  program have profiles.
* `Profile.playCuts`: a run whose context passes all checkpoints goes on to its end, and otherwise
  it is cut at the first checkpoint that the context does not pass.
-/

namespace Treewalk

open Eval

variable {D : Domain}

/-! ### Profiles -/

/-- What is left of a run that is ended at one of its checkpoints. -/
structure Cut (D : Domain := .integers) where
  env : Env D
  log : Log D
  /-- The kind of the node that passes the checkpoint. -/
  site : String
  /-- The statement of the program that is running, if there is one. -/
  statement : Option Nat
deriving Inhabited

/-- A run taken apart at its checkpoints. -/
structure Profile (α : Type) (D : Domain := .integers) where
  /-- What is left at each checkpoint, in their order. -/
  cuts : List (Cut D)
  /-- The result, or why there is none, if all checkpoints are passed. -/
  result : Except (Halt D) α
  env : Env D
  log : Log D

namespace Profile

variable {α β : Type}

/-- The run through the given checkpoints, which goes on as `next` says. -/
def playCuts (next : Context → EStateM.Result (Halt D) (Machine D) α) :
    List (Cut D) → Context → EStateM.Result (Halt D) (Machine D) α
  | [], c => next c
  | cut :: cuts, c =>
    match c.interruption? cut.site D with
    | some f => .error (.failure ⟨f, cut.statement⟩) ⟨cut.env, some c.advance, cut.log⟩
    | none => playCuts next cuts c.advance

/-- The end of the run, once all checkpoints are passed. -/
def finish (p : Profile α D) (c : Context) : EStateM.Result (Halt D) (Machine D) α :=
  match p.result with
  | .ok a => .ok a ⟨p.env, some c, p.log⟩
  | .error halt => .error halt ⟨p.env, some c, p.log⟩

/-- **The run in a given context.** -/
def play (p : Profile α D) (c : Context) : EStateM.Result (Halt D) (Machine D) α :=
  playCuts p.finish p.cuts c

/-- The logs of a run that starts with the given log go on from it, and the last goes on from
all of them. -/
def GrowsFrom (p : Profile α D) (log : Log D) : Prop :=
  (∃ rest, p.log = log ++ rest)
    ∧ ∀ cut ∈ p.cuts, (∃ rest, cut.log = log ++ rest) ∧ ∃ rest, p.log = cut.log ++ rest

theorem playCuts_append (next : Context → EStateM.Result (Halt D) (Machine D) α)
    (cuts cuts' : List (Cut D)) (c : Context) :
    playCuts next (cuts ++ cuts') c = playCuts (playCuts next cuts') cuts c := by
  induction cuts generalizing c with
  | nil => rfl
  | cons cut cuts ih =>
    rw [List.cons_append, playCuts, playCuts]
    cases c.interruption? cut.site D with
    | some f => rfl
    | none => exact ih c.advance

/-- What goes on after the checkpoints is reached in a context with the same sink. -/
theorem playCuts_congr {next next' : Context → EStateM.Result (Halt D) (Machine D) α}
    {cuts : List (Cut D)} {c : Context} (h : ∀ c', c'.sink = c.sink → next c' = next' c') :
    playCuts next cuts c = playCuts next' cuts c := by
  induction cuts generalizing c with
  | nil => exact h c rfl
  | cons cut cuts ih =>
    rw [playCuts, playCuts]
    cases c.interruption? cut.site D with
    | some f => rfl
    | none => exact ih h

/-- What is made of the end of a run can be made of it after the checkpoints, if it leaves the
interruptions there as they are, but for the statement that was running. -/
theorem comp_playCuts
    (k : EStateM.Result (Halt D) (Machine D) α → EStateM.Result (Halt D) (Machine D) β)
    (during : Option Nat → Option Nat)
    (hk : ∀ f statement m,
      k (.error (.failure ⟨f, statement⟩) m) = .error (.failure ⟨f, during statement⟩) m)
    (next : Context → EStateM.Result (Halt D) (Machine D) α) (cuts : List (Cut D)) (c : Context) :
    k (playCuts next cuts c)
      = playCuts (fun c' => k (next c'))
        (cuts.map fun cut => { cut with statement := during cut.statement }) c := by
  induction cuts generalizing c with
  | nil => rfl
  | cons cut cuts ih =>
    rw [List.map_cons, playCuts, playCuts]
    cases c.interruption? cut.site D with
    | some f => exact hk f cut.statement _
    | none => exact ih c.advance

end Profile

/-! ### Runs that have profiles -/

namespace Eval

variable {α β : Type} {x : Eval α D} {n n' : Nat}

/-- From any machine with a context the run has a profile, in which it is followed to its end or
through at least `n` checkpoints. -/
def Profiled (n : Nat) (x : Eval α D) : Prop :=
  ∀ env log sink, ∃ p : Profile α D,
    (∀ c : Context, c.sink = sink → x ⟨env, some c, log⟩ = p.play c)
      ∧ p.GrowsFrom log ∧ (p.result = .error .unfinished → n ≤ p.cuts.length)

theorem Profiled.mono (hx : Profiled n x) (hle : n' ≤ n) : Profiled n' x := by
  intro env log sink
  obtain ⟨p, hplay, hgrows, hcount⟩ := hx env log sink
  exact ⟨p, hplay, hgrows, fun hu => Nat.le_trans hle (hcount hu)⟩

theorem growsFrom_nil (log : Log D) (result : Except (Halt D) α) (env : Env D) :
    (⟨[], result, env, log⟩ : Profile α D).GrowsFrom log :=
  ⟨⟨#[], by simp⟩, by simp⟩

theorem profiled_pure (a : α) : Profiled n (pure a : Eval α D) :=
  fun env log _ => ⟨⟨[], .ok a, env, log⟩, fun _ _ => rfl, growsFrom_nil log _ env, nofun⟩

theorem profiled_throw {halt : Halt D} (h : halt = .unfinished → n = 0) :
    Profiled n (throw halt : Eval α D) := by
  intro env log sink
  refine ⟨⟨[], .error halt, env, log⟩, fun _ _ => rfl, growsFrom_nil log _ env, fun hu => ?_⟩
  rw [h (Except.error.inj hu)]
  exact Nat.zero_le _

/-- What becomes of the result of a first part: the second part starts from it, unless the first
has halted. -/
def resume (f : α → Eval β D) :
    EStateM.Result (Halt D) (Machine D) α → EStateM.Result (Halt D) (Machine D) β
  | .ok a m => f a m
  | .error halt m => .error halt m

/-- The profile of two parts is that of the first, and of the second where the first has ended. -/
theorem Profiled.bind {f : α → Eval β D} (hx : Profiled n x) (hf : ∀ a, Profiled n (f a)) :
    Profiled n (x >>= f) := by
  intro env log sink
  obtain ⟨p, hplay, hgrows, hcount⟩ := hx env log sink
  have hbind : ∀ c : Context, c.sink = sink → (x >>= f) ⟨env, some c, log⟩
      = Profile.playCuts (fun c' => resume f (p.finish c')) p.cuts c := by
    intro c hc
    have hcomp := Profile.comp_playCuts (resume f) id (fun _ _ _ => rfl) p.finish p.cuts c
    rw [show p.cuts.map (fun cut => { cut with statement := id cut.statement }) = p.cuts from
      List.map_id p.cuts] at hcomp
    rw [← hcomp, Steps.bind_apply, hplay c hc, Profile.play]
    cases Profile.playCuts p.finish p.cuts c <;> rfl
  cases hresult : p.result with
  | error halt =>
    -- the first part has not ended with a result, and the second is never met
    refine ⟨⟨p.cuts, .error halt, p.env, p.log⟩, fun c hc => ?_, hgrows, fun hu => ?_⟩
    · rw [hbind c hc]
      exact Profile.playCuts_congr fun c' _ => by simp only [Profile.finish, hresult, resume]
    · exact hcount (by rw [hresult, Except.error.inj hu])
  | ok a =>
    -- the second part starts from what the first has left, in a context with the same sink
    obtain ⟨q, hq, ⟨⟨rest, hrest⟩, hcuts⟩, hcount'⟩ := hf a p.env p.log sink
    refine ⟨⟨p.cuts ++ q.cuts, q.result, q.env, q.log⟩, fun c hc => ?_, ⟨?_, ?_⟩, fun hu => ?_⟩
    · rw [hbind c hc, Profile.play, Profile.playCuts_append]
      refine Profile.playCuts_congr fun c' hc' => ?_
      simp only [Profile.finish, hresult, resume]
      exact hq c' (hc'.trans hc)
    · obtain ⟨⟨rest', hrest'⟩, -⟩ := hgrows
      exact ⟨rest' ++ rest, by rw [hrest, hrest', Array.append_assoc]⟩
    · intro cut hcut
      rcases List.mem_append.mp hcut with hcut | hcut
      · obtain ⟨hbefore, rest', hrest'⟩ := hgrows.2 cut hcut
        exact ⟨hbefore, rest' ++ rest, by rw [hrest, hrest', Array.append_assoc]⟩
      · obtain ⟨⟨rest', hrest'⟩, hafter⟩ := hcuts cut hcut
        obtain ⟨⟨rest'', hrest''⟩, -⟩ := hgrows
        exact ⟨⟨rest'' ++ rest', by rw [hrest', hrest'', Array.append_assoc]⟩, hafter⟩
    · rw [List.length_append]
      exact Nat.le_trans (hcount' hu) (Nat.le_add_left _ _)

theorem profiled_env : Profiled n (env : Eval (Env D) D) :=
  fun env log _ => ⟨⟨[], .ok env, env, log⟩, fun _ _ => rfl, growsFrom_nil log _ env, nofun⟩

theorem profiled_changeEnv (change : Env D → Env D) : Profiled n (changeEnv change) :=
  fun env log _ =>
    ⟨⟨[], .ok (), change env, log⟩, fun _ _ => rfl, growsFrom_nil log _ _, nofun⟩

theorem profiled_emit (e : Event D) : Profiled n (emit e) :=
  fun env log _ => ⟨⟨[], .ok (), env, log.push e⟩, fun _ _ => rfl,
    ⟨⟨#[e], by simp⟩, by simp⟩, nofun⟩

theorem profiled_print (value : D.Val) : Profiled n (print value) := by
  intro env log sink
  refine ⟨⟨[], .ok (D.ofInt 0), env, log.push (.printed sink value)⟩, ?_,
    ⟨⟨#[_], by simp; rfl⟩, by simp⟩, nofun⟩
  rintro c rfl
  rfl

theorem Profiled.inContext (hx : Profiled n x) : Profiled n (inContext x) :=
  hx

/-- A checkpoint before a run is one more that the run has to pass. -/
theorem Profiled.checkpoint_bind {site : String} {f : Unit → Eval α D} (hf : Profiled n (f ())) :
    Profiled (n + 1) (checkpoint site >>= f) := by
  intro env log sink
  obtain ⟨p, hplay, ⟨⟨rest, hrest⟩, hcuts⟩, hcount⟩ := hf env log sink
  refine ⟨⟨⟨env, log, site, none⟩ :: p.cuts, p.result, p.env, p.log⟩, fun c hc => ?_,
    ⟨⟨rest, hrest⟩, ?_⟩, fun hu => Nat.succ_le_succ (hcount hu)⟩
  · rw [Steps.bind_apply, Profile.play, Profile.playCuts]
    cases hint : c.interruption? site D with
    | some f => rw [checkpoint_of_some rfl hint]
    | none =>
      rw [checkpoint_of_none rfl hint]
      exact hplay c.advance hc
  · intro cut hcut
    rcases List.mem_cons.mp hcut with rfl | hcut
    · exact ⟨⟨#[], by simp⟩, rest, hrest⟩
    · exact hcuts cut hcut

theorem profiled_checkpoint (site : String) : Profiled n (checkpoint site : Eval Unit D) := by
  intro env log sink
  refine ⟨⟨[⟨env, log, site, none⟩], .ok (), env, log⟩, fun c _ => ?_, ⟨⟨#[], by simp⟩, ?_⟩, nofun⟩
  · rw [Profile.play, Profile.playCuts]
    cases hint : c.interruption? site D with
    | some f => rw [checkpoint_of_some rfl hint]
    | none =>
      rw [checkpoint_of_none rfl hint]
      rfl
  · intro cut hcut
    rw [List.mem_singleton.mp hcut]
    exact ⟨⟨#[], by simp⟩, #[], by simp⟩

theorem profiled_steps (n : Nat) :
    StepCongruence fun {α : Type} (x y : Eval α D) => x = y ∧ Profiled n x where
  pure a := ⟨rfl, profiled_pure a⟩
  throw halt h := ⟨rfl, profiled_throw fun hu => absurd hu h⟩
  bind := by
    rintro α β x y f g ⟨rfl, hx⟩ hfg
    exact ⟨by rw [funext fun a => (hfg a).1], hx.bind fun a => (hfg a).2⟩
  env := ⟨rfl, profiled_env⟩
  changeEnv change := ⟨rfl, profiled_changeEnv change⟩
  emit e := ⟨rfl, profiled_emit e⟩
  inContext := by
    rintro α x y ⟨rfl, hx⟩
    exact ⟨rfl, hx.inContext⟩
  checkpoint site := ⟨rfl, profiled_checkpoint site⟩
  print value := ⟨rfl, profiled_print value⟩

theorem profiled_congruence (n : Nat) :
    Congruence fun {α : Type} (x y : Eval α D) => x = y ∧ Profiled n x :=
  (profiled_steps n).congruence

end Eval

/-! ### Nodes and programs -/

namespace Host

variable (h : Host D)

/-- The rounds of a loop that is given up have each passed a checkpoint. -/
theorem iterate_profiled {self : Value → Eval D.Val D} {rounds : Nat}
    (hself : ∀ v, Profiled rounds (self v)) (condition body : Value) {n : Nat}
    (hle : n ≤ rounds) : Profiled n (h.iterate self condition body n) := by
  induction n with
  | zero => exact profiled_throw fun _ => rfl
  | succ n ih =>
    have hcongr := profiled_congruence (D := D) n
    have hself' : ∀ v, self v = self v ∧ Profiled n (self v) :=
      fun v => ⟨rfl, (hself v).mono (by omega)⟩
    rw [iterate]
    -- the checkpoint of this round makes up for the round that is left less
    refine Profiled.checkpoint_bind ((hself' condition).2.bind fun test => ?_)
    split
    · refine (hcongr.read _).2.bind fun vs => ?_
      exact (hcongr.evalEach hself' vs).2.bind fun _ => ih (by omega)
    · exact profiled_pure (D.ofInt 0)

/-- **The evaluation of a node has a profile.** -/
theorem eval_profiled (depth : Nat) (v : Value) : Profiled h.rounds (h.eval depth v) := by
  induction depth generalizing v with
  | zero => exact profiled_throw (by simp)
  | succ depth ih =>
    exact (evalNode_congr (profiled_congruence h.rounds) h (fun v => ⟨rfl, ih v⟩) h.nesting
      h.rounds (fun condition body => ⟨rfl, h.iterate_profiled ih condition body (Nat.le_refl _)⟩)
      v).2

/-- What becomes of the result of statement `index`, which is `v`. -/
def settle (h : Host D) (index : Nat) (v : Value) :
    EStateM.Result (Halt D) (Machine D) D.Val → EStateM.Result (Halt D) (Machine D) D.Val
  | .ok x m => .ok x m
  | .error halt m => .error (h.blamed index v halt) m

theorem runStatement_eq_settle (index : Nat) (v : Value) (m : Machine D) :
    h.runStatement index v m = h.settle index v (h.eval h.nesting v m) := by
  rw [runStatement_apply]
  cases h.eval h.nesting v m <;> rfl

/-- The profile of a statement is that of its node, with the statement in the place of nothing. -/
theorem runStatement_profiled (index : Nat) (v : Value) :
    Profiled h.rounds (h.runStatement index v) := by
  intro env log sink
  obtain ⟨p, hplay, ⟨hgrows, hcuts⟩, hcount⟩ := h.eval_profiled h.nesting v env log sink
  refine ⟨⟨p.cuts.map fun cut => { cut with statement := some index },
    p.result.mapError (h.blamed index v), p.env, p.log⟩, fun c hc => ?_, ⟨hgrows, ?_⟩, fun hu => ?_⟩
  · rw [runStatement_eq_settle, hplay c hc]
    refine (Profile.comp_playCuts (h.settle index v) (fun _ => some index)
      (fun _ _ _ => rfl) p.finish p.cuts c).trans ?_
    refine Profile.playCuts_congr fun c' _ => ?_
    cases hresult : p.result <;> simp only [Profile.finish, hresult] <;> rfl
  · intro cut hcut
    obtain ⟨cut', hcut', rfl⟩ := List.mem_map.mp hcut
    exact hcuts cut' hcut'
  · rw [List.length_map]
    cases hresult : p.result with
    | ok x =>
      rw [hresult] at hu
      cases hu
    | error halt =>
      rw [hresult] at hu
      exact hcount (by rw [hresult, blamed_eq_unfinished_iff.mp (Except.error.inj hu)])

/-- **The run of a program has a profile.** -/
theorem runProgram_profiled (program : Value) : Profiled h.rounds (h.runProgram program) := by
  exact (runProgram_congr (profiled_congruence h.rounds) h h rfl
    (fun index v => ⟨rfl, h.runStatement_profiled index v⟩) program).2

end Host

end Treewalk
