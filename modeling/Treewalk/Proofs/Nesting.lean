import Treewalk.Proofs.Composition
import Treewalk.Proofs.Cutoff
import Treewalk.Proofs.Logs

/-!
## Deeper nesting

The limit on nested evaluations does nothing but cut runs short. A run that does not meet it is the
same run under any wider limit. A run that meets it has shown the beginning of what the run under a
wider limit shows: what a run has shown stays, and up to the evaluation that is one too many the two
runs are the same.

* `eval_outlasts`, `runProgram_outlasts`: a run under a wider limit goes on where the other one
  gives up.
* `runProgram_nesting`: the law for programs, whether they come to an end or not.
-/

namespace Treewalk

open Eval

variable {D : Domain}

/-! ### Runs that go on -/

namespace Eval

variable {α β : Type} {x y : Eval α D} {f g : α → Eval β D} {gaveUp : Halt D → Prop}

/-- The run `y` does what `x` does, unless `x` has given up; then it has shown at least what `x`
has shown. Neither looks at what has been shown before. -/
def Outlasts (gaveUp : Halt D → Prop) (x y : Eval α D) : Prop :=
  IgnoresLog y ∧ ∀ m, y.carryOut m = x.carryOut m
    ∨ ∃ halt, (x.carryOut m).result = .error halt ∧ gaveUp halt
      ∧ (y.carryOut m).machine.LogsAfter (x.carryOut m).machine.log

theorem IgnoresLog.outlasts (hx : IgnoresLog x) : Outlasts gaveUp x x :=
  ⟨hx, fun _ => .inl rfl⟩

theorem IgnoresLog.outlasts_throw {halt : Halt D} (hy : IgnoresLog y) (h : gaveUp halt) :
    Outlasts gaveUp (throw halt) y :=
  ⟨hy, fun m => .inr ⟨halt, rfl, h, hy.logsAfter m⟩⟩

theorem Outlasts.bind (hxy : Outlasts gaveUp x y) (hfg : ∀ a, Outlasts gaveUp (f a) (g a)) :
    Outlasts gaveUp (x >>= f) (y >>= g) := by
  refine ⟨hxy.1.bind fun a => (hfg a).1, fun m => ?_⟩
  rw [carryOut_bind, carryOut_bind]
  rcases hxy.2 m with heq | ⟨halt, hresult, hgave, hafter⟩
  · rw [heq]
    obtain ⟨_ | a, m'⟩ := x.carryOut m
    · exact .inl rfl
    · exact (hfg a).2 m'
  · generalize x.carryOut m = left at hresult hafter ⊢
    generalize y.carryOut m = right at hafter ⊢
    obtain ⟨result, m'⟩ := left
    obtain rfl : result = .error halt := hresult
    refine .inr ⟨halt, rfl, hgave, ?_⟩
    -- the second part of the run that goes on adds to what there is after its first part
    obtain ⟨_ | a, m₁⟩ := right
    · exact hafter
    · exact hafter.trans ((hfg a).1.logsAfter m₁)

theorem Outlasts.inContext (hxy : Outlasts gaveUp x y) :
    Outlasts gaveUp (inContext x) (inContext y) := by
  refine ⟨hxy.1.inContext, fun m => ?_⟩
  obtain ⟨env, context, log⟩ := m
  rw [carryOut_inContext, carryOut_inContext]
  rcases hxy.2 ⟨env, some (context.getD .default), log⟩ with heq | hgave
  · exact .inl (by rw [heq])
  · exact .inr hgave

theorem outlasts_steps (gaveUp : Halt D → Prop) : StepCongruence (Outlasts gaveUp) where
  pure a := (ignoresLog_steps.pure a).outlasts
  throw halt h := (ignoresLog_steps.throw halt h).outlasts
  bind := .bind
  env := ignoresLog_steps.env.outlasts
  changeEnv change := (ignoresLog_steps.changeEnv change).outlasts
  emit e := (ignoresLog_steps.emit e).outlasts
  inContext := .inContext
  checkpoint site := (ignoresLog_checkpoint site).outlasts
  print value := (ignoresLog_print value).outlasts

/-- A run that has not given up leaves what the run that outlasts it leaves. -/
theorem Outlasts.carryOut_eq (hxy : Outlasts gaveUp x y) {m : Machine D}
    (hkept : ∀ halt, (x.carryOut m).result = .error halt → ¬ gaveUp halt) :
    y.carryOut m = x.carryOut m :=
  (hxy.2 m).resolve_right fun ⟨halt, hresult, hgave, _⟩ => hkept halt hresult hgave

/-- **What a run shows is the beginning of what a run that outlasts it shows.** -/
theorem Outlasts.log_carryOut (hxy : Outlasts gaveUp x y) (m : Machine D) :
    (y.carryOut m).machine.LogsAfter (x.carryOut m).machine.log := by
  rcases hxy.2 m with heq | ⟨-, -, -, hafter⟩
  · rw [heq]
    exact Machine.logsAfter_self _
  · exact hafter

end Eval

namespace Host

variable {h : Host D} {nesting index start i : Nat} {v : Value} {vs : List Value}

/-! ### Nodes and programs -/

/-- **Evaluation with more room goes on** where evaluation with less gives up. -/
theorem eval_outlasts (h : Host D) (nesting : Nat) {depth depth' : Nat} (hdepth : depth ≤ depth')
    (v : Value) : Outlasts (· = .tooDeep) (h.eval depth v)
      (({ h with nesting := nesting } : Host D).eval depth' v) := by
  have hsteps : StepCongruence (Outlasts (D := D) (· = .tooDeep)) := outlasts_steps _
  refine eval_congr_of_le hsteps.congruence h nesting (Nat.le_refl h.rounds) (fun _ _ _ => ?_)
    hdepth (fun c => (ignoresLog_eval _ _ c).outlasts_throw rfl) v
  -- the rounds of loops are the same on both sides
  rw [Nat.sub_self]
  exact IgnoresLog.outlasts <| ignoresLog_of_step fun env context =>
    ⟨.error .unfinished, env, context, fun _ => rfl⟩

/-- The halt is the failure of a statement that nests too deep. -/
def NestsTooDeep (halt : Halt D) : Prop :=
  ∃ limit tag statement, halt = .failure ⟨.nestedTooDeep limit tag, statement⟩

/-- **A statement with more room goes on.** -/
theorem runStatement_outlasts (hle : h.nesting ≤ nesting) (index : Nat) (v : Value) :
    Outlasts NestsTooDeep (h.runStatement index v)
      (({ h with nesting := nesting } : Host D).runStatement index v) := by
  refine ⟨ignoresLog_runStatement _ index v, fun m => ?_⟩
  cases htag : h.graph.field v "type" with
  | error f =>
    -- a statement without a tag ends with the same fault, with or without room
    have hwide := runStatement_of_no_tag (h := { h with nesting := nesting }) htag index m
    have hnarrow := runStatement_of_no_tag htag index m
    exact .inl ((carryOut_eq_error_iff.mpr hwide).trans (carryOut_eq_error_iff.mpr hnarrow).symm)
  | ok tag =>
    rw [carryOut_runStatement, carryOut_runStatement]
    have hblamed : NestsTooDeep (h.blamed index v .tooDeep) :=
      ⟨h.nesting, tag, some index, by rw [blamed, htag]⟩
    rcases (h.eval_outlasts nesting hle v).2 m with heq | ⟨_, hresult, rfl, hafter⟩
    · rw [heq]
      obtain ⟨halt | x, m'⟩ := (h.eval h.nesting v).carryOut m
      · cases halt with
        | tooDeep => exact .inr ⟨_, rfl, hblamed, m'.logsAfter_self⟩
        | _ => exact .inl rfl
      · exact .inl rfl
    · refine .inr ⟨_, ?_, hblamed, hafter⟩
      show Except.mapError _ _ = _
      rw [hresult]
      rfl

/-- **A program with more room goes on.** -/
theorem runProgram_outlasts (hle : h.nesting ≤ nesting) (program : Value) :
    Outlasts NestsTooDeep (h.runProgram program)
      (({ h with nesting := nesting } : Host D).runProgram program) :=
  runProgram_congr (outlasts_steps NestsTooDeep).congruence h { h with nesting := nesting } rfl
    (runStatement_outlasts hle) program

/-! ### The statements before the one that nests too deep -/

/-- What the statements of a program have given under limits they give under wider ones. -/
theorem inContext_runStatements_of_le {rounds : Nat} {xs : List D.Val} {m m' : Machine D}
    (hrounds : h.rounds ≤ rounds) (hle : h.nesting ≤ nesting)
    (hrun : inContext (h.runStatements start vs) m = .ok xs m') :
    inContext (({ h with nesting := nesting, rounds := rounds } : Host D).runStatements start vs) m
      = .ok xs m' := by
  have hstatement : ∀ index v, Continues (fun _ => True) (h.runStatement index v)
      (({ h with nesting := nesting, rounds := rounds } : Host D).runStatement index v) :=
    fun index v => h.runStatement_continues (fun _ => True) (fun _ => True) hrounds
      (fun _ => trivial) hle (fun _ => trivial) index v fun _ _ => trivial
  have hcontinues := Continues.inContext <|
    runStatements_congr (continues_congruence fun _ => True).toPlainCongruence h
      { h with nesting := nesting, rounds := rounds } hstatement start vs
  rcases hcontinues m with heq | ⟨halt, m', hhalt, -⟩
  · rw [heq, hrun]
  · rw [hhalt] at hrun
    cases hrun

/-- **A program that ends with an error has a statement that halts**, and those before it give
results. -/
theorem exists_statement_of_runProgram_error {program : Value} {statements : List Value}
    {m m' : Machine D} {halt : Halt D} (hitems : h.graph.items program = .ok statements)
    (hrun : h.runProgram program m = .error halt m') :
    ∃ i v xs mᵢ cause, i < statements.length ∧ xs.length = i
      ∧ inContext (h.runStatements 0 (statements.take i)) m = .ok xs mᵢ
      ∧ halt = h.blamed i v cause := by
  rw [runProgram_eq hitems] at hrun
  obtain ⟨m₁, herror, -⟩ := inContext_eq_error_iff.mp hrun
  obtain ⟨i, v, xs, m₂, cause, hv, hbefore, -, rfl⟩ := runStatements_eq_error_iff.mp herror
  obtain ⟨hi, -⟩ := List.getElem?_eq_some_iff.mp hv
  have hlength := length_of_runStatements hbefore
  rw [List.length_take_of_le (Nat.le_of_lt hi)] at hlength
  exact ⟨i, v, xs, _, cause, hi, hlength, inContext_eq_ok_iff.mpr ⟨m₂, hbefore, rfl⟩,
    by rw [Nat.zero_add]⟩

/-- A statement that nests too deep is the one that the failure tells. -/
theorem eq_some_of_blamed {cause : Halt D} {f : Failure D} {statement : Option Nat}
    (hblamed : h.blamed i v cause = .failure ⟨f, statement⟩) : statement = some i := by
  cases cause with
  | failure e =>
    cases hblamed
    rfl
  | tooDeep =>
    rw [blamed] at hblamed
    cases htag : h.graph.field v "type" <;> rw [htag] at hblamed <;> cases hblamed
    rfl
  | _ => simp [blamed] at hblamed

/-! ### The law -/

variable {program : Value} {m : Machine D} {outcome outcome' : Outcome (List D.Val) D}
  {rounds : Nat}

/-- A run that does not nest too deep leaves the same under every wider limit. -/
theorem outcomeWithin_of_nesting_le (hle : h.nesting ≤ nesting)
    (hkept : ∀ halt, (h.outcomeWithin rounds program m).result = .error halt →
      ¬ NestsTooDeep halt) :
    ({ h with nesting := nesting } : Host D).outcomeWithin rounds program m
      = h.outcomeWithin rounds program m :=
  (runProgram_outlasts (h := { h with rounds := rounds }) hle program).carryOut_eq hkept

theorem Diverges.of_nesting_le (hle : h.nesting ≤ nesting) (hdiverges : h.Diverges program m) :
    ({ h with nesting := nesting } : Host D).Diverges program m := by
  intro rounds
  rw [outcomeWithin_of_nesting_le hle fun halt hhalt => ?_]
  · exact hdiverges rounds
  · rw [hdiverges rounds] at hhalt
    rintro ⟨limit, tag, statement, rfl⟩
    cases hhalt

theorem Yields.of_nesting_le (hle : h.nesting ≤ nesting) (hyields : h.Yields program m outcome)
    (hkept : ∀ halt, outcome.result = .error halt → ¬ NestsTooDeep halt) :
    ({ h with nesting := nesting } : Host D).Yields program m outcome := by
  obtain ⟨hended, enough, henough⟩ := hyields
  refine ⟨hended, enough, fun rounds hrounds => ?_⟩
  have hrun := henough rounds hrounds
  rw [outcomeWithin_of_nesting_le hle (by rwa [hrun]), hrun]

/-- **What a run has shown is the beginning of what it shows under a wider limit.** -/
theorem Yields.log_of_nesting_le (hle : h.nesting ≤ nesting) (hyields : h.Yields program m outcome)
    (hyields' : ({ h with nesting := nesting } : Host D).Yields program m outcome') :
    ∃ rest, outcome'.machine.log = outcome.machine.log ++ rest := by
  obtain ⟨-, enough, henough⟩ := hyields
  obtain ⟨-, enough', henough'⟩ := hyields'
  have hlog := (runProgram_outlasts (h := { h with rounds := max enough enough' }) hle
    program).log_carryOut m
  rwa [show Eval.carryOut _ m = outcome from henough _ (Nat.le_max_left ..),
    show Eval.carryOut _ m = outcome' from henough' _ (Nat.le_max_right ..)] at hlog

/-- **The limit on nested evaluations only cuts runs short.** Take any values as the statements of a
program, which need not be nodes and may be cyclic, over any domain of values, any environment, and
any context or none. A run that does not come to its end does not do so under any wider limit
either. A run that ends without nesting too deep leaves exactly the same under every wider limit:
result, environment, context with what is counted in it, and log. If a run ends since statement `i`
nests too deep, then its log is the beginning of what the run leaves under any wider limit under
which it ends, and under both limits the statements before statement `i` give the same results and
leave the same machine. -/
theorem runProgram_nesting (h : Host D) (program : Value) (statements : List Value) (m : Machine D)
    (nesting : Nat) (hitems : h.graph.items program = .ok statements) (hle : h.nesting ≤ nesting) :
    (h.Diverges program m → ({ h with nesting := nesting } : Host D).Diverges program m)
    ∧ ∀ outcome, h.Yields program m outcome →
      ((∀ limit tag statement,
          outcome.result ≠ .error (.failure ⟨.nestedTooDeep limit tag, statement⟩)) →
        ({ h with nesting := nesting } : Host D).Yields program m outcome)
      ∧ ∀ limit tag statement,
        outcome.result = .error (.failure ⟨.nestedTooDeep limit tag, statement⟩) →
        (∀ outcome', ({ h with nesting := nesting } : Host D).Yields program m outcome' →
          ∃ rest, outcome'.machine.log = outcome.machine.log ++ rest)
        ∧ ∃ i xs mᵢ enough, statement = some i ∧ i < statements.length ∧ xs.length = i
          ∧ ∀ rounds ≥ enough,
            inContext (({ h with rounds := rounds } : Host D).runStatements 0 (statements.take i)) m
              = .ok xs mᵢ
            ∧ inContext (({ h with nesting := nesting, rounds := rounds } : Host D).runStatements 0
              (statements.take i)) m = .ok xs mᵢ := by
  refine ⟨.of_nesting_le hle, fun outcome hyields => ⟨fun hkept => ?_, ?_⟩⟩
  · refine hyields.of_nesting_le hle fun halt hhalt => ?_
    rintro ⟨limit, tag, statement, rfl⟩
    exact hkept limit tag statement hhalt
  · intro limit tag statement hresult
    refine ⟨fun outcome' => hyields.log_of_nesting_le hle, ?_⟩
    obtain ⟨-, enough, henough⟩ := hyields
    have hrun := henough enough (Nat.le_refl _)
    -- the run has ended with an error, so one of its statements has
    obtain ⟨result, m'⟩ := outcome
    obtain rfl : result = _ := hresult
    have herror := carryOut_eq_error_iff.mp hrun
    obtain ⟨i, v, xs, mᵢ, cause, hi, hlength, hbefore, hblamed⟩ :=
      exists_statement_of_runProgram_error (h := { h with rounds := enough }) hitems herror
    refine ⟨i, xs, mᵢ, enough, eq_some_of_blamed hblamed.symm, hi, hlength,
      fun rounds hrounds => ⟨?_, ?_⟩⟩
    · exact inContext_runStatements_of_le (h := { h with rounds := enough }) hrounds
        (Nat.le_refl _) hbefore
    · exact inContext_runStatements_of_le (h := { h with rounds := enough }) hrounds hle hbefore

/-- A program that prints a text, and then prints what printing it once more has given. -/
def nestedPrints : Graph where
  objects := #[
    .record ⟨[("type", .text "NUMBER"), ("value", .text "abc")]⟩,
    .record ⟨[("type", .text "PRINT"), ("value", .ref 0)]⟩,
    .record ⟨[("type", .text "PRINT"), ("value", .ref 1)]⟩,
    .list [.ref 1, .ref 2]]

/-- Two evaluations inside each other are enough for the first statement and too few for the
second, and three are enough for both. -/
theorem nestedPrints_nesting :
    (nestedPrints.items (.ref 3) = .ok [.ref 1, .ref 2] ∧ 2 ≤ 3)
    ∧ ∃ o o', (⟨nestedPrints, false, 2, 9, 9⟩ :
        Host (.dynamic nestedPrints .refusing)).Yields (.ref 3) {} o
      ∧ (⟨nestedPrints, false, 3, 9, 9⟩ :
        Host (.dynamic nestedPrints .refusing)).Yields (.ref 3) {} o'
      ∧ o.result = .error (.failure ⟨.nestedTooDeep 2 (.text "PRINT"), some 1⟩)
      ∧ o'.result = .ok [.int 0, .int 0]
      ∧ ∃ rest, o'.machine.log = o.machine.log ++ rest := by
  have hyields : (⟨nestedPrints, false, 2, 9, 9⟩ :
      Host (.dynamic nestedPrints .refusing)).Yields (.ref 3) {}
      ⟨.error (.failure ⟨.nestedTooDeep 2 (.text "PRINT"), some 1⟩),
        { log := #[.printed .standard (.text "abc")] }⟩ :=
    yields_of_outcomeWithin (rfl : Host.outcomeWithin _ 9 _ _ = _) nofun
  have hyields' : (⟨nestedPrints, false, 3, 9, 9⟩ :
      Host (.dynamic nestedPrints .refusing)).Yields (.ref 3) {}
      ⟨.ok [.int 0, .int 0], { log := #[.printed .standard (.text "abc"),
        .printed .standard (.text "abc"), .printed .standard (.int 0)] }⟩ :=
    yields_of_outcomeWithin (rfl : Host.outcomeWithin _ 9 _ _ = _) nofun
  refine ⟨⟨rfl, by decide⟩, _, _, hyields, hyields', rfl, rfl, ?_⟩
  obtain ⟨hbeginning, -⟩ := ((runProgram_nesting (D := .dynamic nestedPrints .refusing)
    ⟨nestedPrints, false, 2, 9, 9⟩ (.ref 3) [.ref 1, .ref 2] {} 3 rfl (by decide)).2 _
    hyields).2 _ _ _ rfl
  exact hbeginning _ hyields'

end Host

end Treewalk
