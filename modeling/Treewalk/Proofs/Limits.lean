import Treewalk.Proofs.Congruence
import Treewalk.Proofs.Statements

/-!
## Wider limits

A run meets two limits: how deep evaluations may nest, and how many rounds a loop is followed
for. Where a limit is met the run gives up. `Eval.Continues` says that one run does what another
does unless the other gives up, and runs under wider limits continue runs under narrower ones.

* `eval_continues`, `runProgram_continues`: so it is for a node and for a program.
-/

namespace Treewalk

variable {D : Domain}

namespace Eval

/-- The run `y` does what `x` does, unless `x` has given up. -/
def Continues (gaveUp : Halt D → Prop) {α : Type} (x y : Eval α D) : Prop :=
  ∀ m, y m = x m ∨ ∃ halt m', x m = .error halt m' ∧ gaveUp halt

variable {gaveUp : Halt D → Prop} {α β : Type}

theorem Continues.refl (x : Eval α D) : Continues gaveUp x x :=
  fun _ => .inl rfl

theorem Continues.throw {halt : Halt D} (h : gaveUp halt) (y : Eval α D) :
    Continues gaveUp (throw halt) y :=
  fun m => .inr ⟨halt, m, rfl, h⟩

theorem Continues.bind {x y : Eval α D} {f g : α → Eval β D} (hxy : Continues gaveUp x y)
    (hfg : ∀ a, Continues gaveUp (f a) (g a)) : Continues gaveUp (x >>= f) (y >>= g) := by
  intro m
  rcases hxy m with heq | ⟨halt, m', hx, hgave⟩
  · rw [Steps.bind_apply, Steps.bind_apply, heq]
    cases x m with
    | ok a m' => exact hfg a m'
    | error halt m' => exact .inl rfl
  · exact .inr ⟨halt, m', Steps.bind_of_error hx, hgave⟩

theorem Continues.inContext {x y : Eval α D} (hxy : Continues gaveUp x y) :
    Continues gaveUp (inContext x) (inContext y) := by
  intro m
  cases hc : m.context with
  | some c =>
    rw [inContext_of_some x hc, inContext_of_some y hc]
    exact hxy m
  | none =>
    rw [Eval.inContext, Eval.inContext, hc]
    rcases hxy { m with context := some .default } with heq | ⟨halt, m', hx, hgave⟩
    · exact .inl (by simp only [heq])
    · exact .inr ⟨halt, { m' with context := none }, by simp only [hx], hgave⟩

/-- A run that has not given up leaves what the run that continues it leaves. -/
theorem Continues.carryOut_eq {x y : Eval α D} (hxy : Continues gaveUp x y) {m : Machine D}
    (hkept : ∀ halt, (x.carryOut m).result = .error halt → ¬ gaveUp halt) :
    y.carryOut m = x.carryOut m := by
  unfold carryOut at hkept ⊢
  rcases hxy m with heq | ⟨halt, m', hx, hgave⟩
  · rw [heq]
  · rw [hx] at hkept
    exact absurd hgave (hkept halt rfl)

theorem continues_congruence (gaveUp : Halt D → Prop) : Congruence (Continues gaveUp) where
  pure _ := .refl _
  throw _ _ _ := .refl _
  bind := .bind
  valueOf _ _ := .refl _
  functionOf _ _ := .refl _
  setVariable _ _ := .refl _
  define _ _ := .refl _
  emit _ := .refl _
  inContext := .inContext
  checkpoint _ := .refl _
  print _ := .refl _

end Eval

namespace Host

open Eval

variable {gaveUp : Halt D → Prop} (h : Host D) (nesting : Nat) {rounds : Nat}

/-- **Wider limits continue the evaluation of a node.** -/
theorem eval_continues (hrounds : h.rounds ≤ rounds)
    (hunfinished : h.rounds < rounds → gaveUp .unfinished) {depth depth' : Nat}
    (hdepth : depth ≤ depth') (hdeep : depth < depth' → gaveUp .tooDeep) (v : Value) :
    Continues gaveUp (h.eval depth v)
      (({ h with nesting := nesting, rounds := rounds } : Host D).eval depth' v) := by
  refine eval_congr_of_le (continues_congruence gaveUp) h nesting hrounds (fun _ _ _ => ?_)
    hdepth (fun _ => ?_) v
  · rcases Nat.eq_or_lt_of_le hrounds with heq | hlt
    · rw [heq, Nat.sub_self]
      exact .refl _
    · exact .throw (hunfinished hlt) _
  · rcases Nat.eq_or_lt_of_le hdepth with heq | hlt
    · rw [heq, Nat.sub_self]
      exact .refl _
    · exact .throw (hdeep hlt) _

/-- The limits of the host show in the blame for nesting too deep and nowhere else. -/
theorem blamed_limits (index : Nat) (v : Value) {halt : Halt D}
    (h' : halt = .tooDeep → h.nesting = nesting) :
    ({ h with nesting := nesting, rounds := rounds } : Host D).blamed index v halt
      = h.blamed index v halt := by
  cases halt with
  | tooDeep => rw [blamed, blamed, h' rfl]
  | _ => rfl

variable {nesting}

theorem runStatement_continues (gaveUp gaveUp' : Halt D → Prop) (hrounds : h.rounds ≤ rounds)
    (hunfinished : h.rounds < rounds → gaveUp .unfinished) (hnesting : h.nesting ≤ nesting)
    (hdeep : h.nesting < nesting → gaveUp .tooDeep) (index : Nat) (v : Value)
    (hblamed : ∀ halt, gaveUp halt → gaveUp' (h.blamed index v halt)) :
    Continues gaveUp' (h.runStatement index v)
      (({ h with nesting := nesting, rounds := rounds } : Host D).runStatement index v) := by
  intro m
  rw [runStatement_apply, runStatement_apply]
  rcases h.eval_continues nesting hrounds hunfinished hnesting hdeep v m with
    heq | ⟨halt, m', hx, hgave⟩
  · rw [heq]
    cases hx : h.eval h.nesting v m with
    | ok x m' => exact .inl rfl
    | error halt m' =>
      by_cases hgave : gaveUp halt
      · exact .inr ⟨_, m', rfl, hblamed halt hgave⟩
      · -- only nesting too deep is blamed on a limit, and then the limits are the same
        refine .inl (congrArg (EStateM.Result.error · m') (h.blamed_limits nesting index v ?_))
        rintro rfl
        exact (Nat.eq_or_lt_of_le hnesting).resolve_right fun hlt => hgave (hdeep hlt)
  · exact .inr ⟨_, m', by rw [hx], hblamed halt hgave⟩

/-- **Wider limits continue the run of a program.** -/
theorem runProgram_continues (gaveUp gaveUp' : Halt D → Prop) (hrounds : h.rounds ≤ rounds)
    (hunfinished : h.rounds < rounds → gaveUp .unfinished) (hnesting : h.nesting ≤ nesting)
    (hdeep : h.nesting < nesting → gaveUp .tooDeep) (program : Value)
    (hblamed : ∀ index v halt, gaveUp halt → gaveUp' (h.blamed index v halt)) :
    Continues gaveUp' (h.runProgram program)
      (({ h with nesting := nesting, rounds := rounds } : Host D).runProgram program) := by
  refine runProgram_congr (continues_congruence gaveUp') h
    { h with nesting := nesting, rounds := rounds } rfl (fun index v => ?_) program
  exact h.runStatement_continues gaveUp gaveUp' hrounds hunfinished hnesting hdeep index v
    (hblamed index v)

end Host

end Treewalk
