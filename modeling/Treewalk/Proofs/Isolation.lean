import Mathlib.Data.List.Induction
import Treewalk.Proofs.Composition
import Treewalk.Session

/-!
## Isolation of interpreters

Interpreters have nothing in common but the environment that some of them share. Whatever calls
are made and in whatever order, what the calls on one environment do can be told from these calls
alone: calls on other environments can be dropped. Nothing else is handed on from call to call
but the position of each hook, so that every call counts its checkpoints from zero, and a reset
leaves nothing of what was done before it.

* `call_eq_some_iff`: what one call is.
* `AgreeAt.transcript_eq`: two sessions that agree at an environment go on alike there, whatever
  the first of them does elsewhere.
* `getElem?_after`: what calls do to an interpreter.
* `opened_isolation`: the law for sessions in which some interpreters share an environment.
-/

namespace Treewalk

open Eval

variable {D : Domain}

/-- How many checkpoints a run has met that started in a fresh context. -/
def Outcome.steps {α : Type} (o : Outcome α D) : Nat :=
  match o.machine.context with
  | some c => c.steps
  | none => 0

/-- The interpreter after `n` more checkpoints: its hook, if it has one, has been asked at each. -/
def Interpreter.asked (i : Interpreter) (n : Nat) : Interpreter :=
  { i with polls := if i.hook.isSome then i.polls + n else i.polls }

theorem Interpreter.asked_zero (i : Interpreter) : i.asked 0 = i := by
  simp [asked]

theorem Interpreter.asked_asked (i : Interpreter) (n k : Nat) :
    (i.asked n).asked k = i.asked (n + k) := by
  unfold asked
  split <;> simp_all [Nat.add_assoc]

theorem Outcome.steps_eq {α : Type} {o : Outcome α D} {i : Interpreter} {n : Nat}
    (hn : o.machine.context = some (i.context.advanced n)) : o.steps = n := by
  rw [steps, hn]
  exact Nat.zero_add n

/-- The context of a call of an interpreter whose hook has been asked at `n` checkpoints. -/
theorem Settings.context_asked (a : Settings) (store n : Nat) :
    ((a.interpreter store).asked n).context
      = { sink := a.sink, hook := a.hook, budget := a.budget, steps := 0,
          polls := if a.hook.isSome then n else 0 } := by
  simp [Interpreter.context, Interpreter.asked, interpreter]

/-- A call counts in its context, and changes nothing else in it. -/
theorem Call.keepsContext_run (h : Host D) (c : Context) (call : Call) :
    KeepsContext c (call.run h) := by
  have hprogram := h.keepsContext_runProgram c
  cases call with
  | interpret program =>
    rw [run, map_eq_pure_bind]
    exact Triple.bind (hprogram program) fun xs => Triple.pure _
  | interpretProgram program =>
    exact Triple.bind (hprogram program) fun _ =>
      Triple.bind (Host.keepsContext_steps c).env fun env => Triple.pure _
  | evaluate node =>
    rw [run, map_eq_pure_bind]
    exact Triple.bind (h.keepsContext_eval c h.nesting node) fun x => Triple.pure _
  | reset => exact Triple.bind ((Host.keepsContext_steps c).changeEnv _) fun _ => Triple.pure _

namespace Session

variable {h : Host D} {s s' t : Session D} {i : Interpreter} {index k store n : Nat} {c : Call}
  {calls : List (Nat × Call)} {outcome : Outcome (Answer D) D} {m : Machine D}

/-! ### Calls one after the other -/

/-- The session after calls that are made one after the other. -/
def after (h : Host D) : Session D → List (Nat × Call) → Session D
  | s, [] => s
  | s, (index, c) :: calls =>
    match s.call h index c with
    | some (_, s') => s'.after h calls
    | none => s.after h calls

/-- The calls that are made one after the other, each by the interpreter that it is a call of and
its outcome. A call for which there is no interpreter has none. -/
def transcript (h : Host D) : Session D → List (Nat × Call) → List (Nat × Outcome (Answer D) D)
  | _, [] => []
  | s, (index, c) :: calls =>
    match s.call h index c with
    | some (outcome, s') => (index, outcome) :: s'.transcript h calls
    | none => s.transcript h calls

/-- How many checkpoints the calls of one interpreter have met in a transcript. -/
def stepsOf (index : Nat) : List (Nat × Outcome (Answer D) D) → Nat
  | [] => 0
  | (k, outcome) :: entries => (if k = index then outcome.steps else 0) + stepsOf index entries

/-- Does the interpreter at place `index` work on the environment at place `store`? -/
def worksOn (s : Session D) (store index : Nat) : Bool :=
  (s.interpreters[index]?.map (·.store)) == some store

theorem worksOn_iff :
    s.worksOn store index = true ↔ ∃ i, s.interpreters[index]? = some i ∧ i.store = store := by
  simp [worksOn]

theorem stepsOf_nil (index : Nat) : stepsOf (D := D) index [] = 0 := rfl

theorem stepsOf_cons_self (index : Nat) (outcome : Outcome (Answer D) D)
    (entries : List (Nat × Outcome (Answer D) D)) :
    stepsOf index ((index, outcome) :: entries) = outcome.steps + stepsOf index entries := by
  simp [stepsOf]

theorem stepsOf_cons_of_ne (hk : k ≠ index) (outcome : Outcome (Answer D) D)
    (entries : List (Nat × Outcome (Answer D) D)) :
    stepsOf index ((k, outcome) :: entries) = stepsOf index entries := by
  simp [stepsOf, hk]

theorem after_cons_of_some (hcall : s.call h index c = some (outcome, s')) :
    s.after h ((index, c) :: calls) = s'.after h calls := by
  rw [after, hcall]

theorem after_cons_of_none (hcall : s.call h index c = none) :
    s.after h ((index, c) :: calls) = s.after h calls := by
  rw [after, hcall]

theorem transcript_cons_of_some (hcall : s.call h index c = some (outcome, s')) :
    s.transcript h ((index, c) :: calls) = (index, outcome) :: s'.transcript h calls := by
  rw [transcript, hcall]

theorem transcript_cons_of_none (hcall : s.call h index c = none) :
    s.transcript h ((index, c) :: calls) = s.transcript h calls := by
  rw [transcript, hcall]

theorem after_append (s : Session D) (calls later : List (Nat × Call)) :
    s.after h (calls ++ later) = (s.after h calls).after h later := by
  induction calls generalizing s with
  | nil => rfl
  | cons call calls ih =>
    simp only [List.cons_append, after]
    cases s.call h call.1 call.2 <;> exact ih _

/-! ### One call -/

/-- **What a call is**: a run on the environment of the interpreter in a fresh context, after
which the session keeps the environment and the position of the hook. -/
theorem call_eq_some_iff :
    s.call h index c = some (outcome, s') ↔ ∃ i, s.interpreters[index]? = some i
      ∧ outcome = (c.run { h with tracing := i.tracing }).carryOut (s.machine i)
      ∧ s' = s.absorb index i outcome.machine := by
  unfold call
  cases s.interpreters[index]? with
  | none => simp
  | some i =>
    dsimp only
    constructor
    · intro hcall
      cases hcall
      exact ⟨i, rfl, rfl, rfl⟩
    · rintro ⟨j, hj, rfl, rfl⟩
      cases hj
      rfl

theorem call_of_getElem? (h : Host D) (c : Call) (hi : s.interpreters[index]? = some i) :
    s.call h index c = some ((c.run { h with tracing := i.tracing }).carryOut (s.machine i),
      s.absorb index i ((c.run { h with tracing := i.tracing }).carryOut (s.machine i)).machine) :=
  call_eq_some_iff.mpr ⟨i, hi, rfl, rfl⟩

theorem call_eq_none_iff : s.call h index c = none ↔ s.interpreters[index]? = none := by
  unfold call
  cases s.interpreters[index]? <;> simp

/-- A call counts its checkpoints from zero. -/
theorem exists_context_eq (h : Host D) (s : Session D) (i : Interpreter) (c : Call) :
    ∃ n, ((c.run h).carryOut (s.machine i)).machine.context = some (i.context.advanced n) := by
  have hkept := c.keepsContext_run h i.context (s.machine i)
    ⟨0, by rw [Context.advanced_zero]; rfl⟩
  unfold carryOut
  cases hrun : c.run h (s.machine i) with
  | ok a m => rwa [hrun] at hkept
  | error halt m => rwa [hrun] at hkept

/-- The hook has been asked at each checkpoint of a call. -/
theorem getElem?_absorb (hi : s.interpreters[index]? = some i)
    (hm : m.context = some (i.context.advanced n)) :
    (s.absorb index i m).interpreters[index]? = some (i.asked n) := by
  obtain ⟨hlt, -⟩ := Array.getElem?_eq_some_iff.mp hi
  unfold absorb
  rw [hm]
  exact Array.getElem?_setIfInBounds_self_of_lt hlt

theorem getElem?_absorb_of_ne (hk : k ≠ index) :
    (s.absorb index i m).interpreters[k]? = s.interpreters[k]? := by
  simp [absorb, hk.symm]

theorem size_absorb : (s.absorb index i m).environments.size = s.environments.size := by
  simp [absorb]

theorem envAt_absorb (hlt : i.store < s.environments.size) :
    (s.absorb index i m).envAt i.store = m.env := by
  simp [absorb, envAt, hlt]

theorem envAt_absorb_of_ne (hne : store ≠ i.store) :
    (s.absorb index i m).envAt store = s.envAt store := by
  simp [absorb, envAt, hne.symm]

theorem envAt_of_le (hle : s.environments.size ≤ store) : s.envAt store = .empty := by
  simp [envAt, hle]

/-- An interpreter stays on its environment. -/
theorem worksOn_absorb (hi : s.interpreters[index]? = some i) :
    (s.absorb index i m).worksOn = s.worksOn := by
  funext store k
  by_cases hk : k = index
  · subst hk
    obtain ⟨hlt, -⟩ := Array.getElem?_eq_some_iff.mp hi
    simp only [worksOn, absorb, hi, Array.getElem?_setIfInBounds_self_of_lt hlt, Option.map_some]
  · rw [worksOn, getElem?_absorb_of_ne hk, worksOn]

theorem worksOn_call (hcall : s.call h index c = some (outcome, s')) :
    s'.worksOn = s.worksOn := by
  obtain ⟨i, hi, rfl, rfl⟩ := call_eq_some_iff.mp hcall
  exact worksOn_absorb hi

/-- A reset leaves an environment that binds nothing. -/
theorem envAt_reset (hi : s.interpreters[index]? = some i)
    (hlt : i.store < s.environments.size) :
    (s.after h [(index, .reset)]).envAt i.store = .empty := by
  rw [after_cons_of_some (call_of_getElem? h .reset hi), after, envAt_absorb hlt]
  rfl

/-- **What a call does.** It runs in a fresh context, counts there, and leaves its environment. -/
theorem exists_call (h : Host D) (c : Call) (hi : s.interpreters[index]? = some i)
    (hlt : i.store < s.environments.size) :
    ∃ outcome s' n, s.call h index c = some (outcome, s')
      ∧ outcome = (c.run { h with tracing := i.tracing }).carryOut
          { env := s.envAt i.store, context := some i.context, log := #[] }
      ∧ outcome.machine.context = some (i.context.advanced n)
      ∧ s'.envAt i.store = outcome.machine.env := by
  obtain ⟨n, hn⟩ := exists_context_eq { h with tracing := i.tracing } s i c
  exact ⟨_, _, n, call_of_getElem? h c hi, rfl, hn, envAt_absorb hlt⟩

/-! ### Agreement at an environment -/

/-- Two sessions **agree at an environment**: neither has it or both do, it binds the same in
both, and the same interpreters work on it, with their hooks at the same positions. -/
structure AgreeAt (store : Nat) (s t : Session D) : Prop where
  present : store < s.environments.size ↔ store < t.environments.size
  env : s.envAt store = t.envAt store
  interpreters : ∀ (index : Nat) (i : Interpreter), i.store = store →
    (s.interpreters[index]? = some i ↔ t.interpreters[index]? = some i)

theorem AgreeAt.refl (store : Nat) (s : Session D) : AgreeAt store s s :=
  ⟨Iff.rfl, rfl, fun _ _ _ => Iff.rfl⟩

/-- **A call on another environment goes unnoticed.** -/
theorem AgreeAt.of_other_call (hagree : AgreeAt store s t)
    (hcall : s.call h index c = some (outcome, s')) (hother : s.worksOn store index = false) :
    AgreeAt store s' t := by
  obtain ⟨i, hi, rfl, rfl⟩ := call_eq_some_iff.mp hcall
  have hne : i.store ≠ store := fun hstore => by
    rw [worksOn_iff.mpr ⟨i, hi, hstore⟩] at hother
    cases hother
  refine ⟨?_, (envAt_absorb_of_ne hne.symm).trans hagree.env, fun k j hj => ?_⟩
  · rw [size_absorb]
    exact hagree.present
  by_cases hk : k = index
  · -- neither session has an interpreter on the environment at this place
    subst hk
    obtain ⟨n, hn⟩ := exists_context_eq { h with tracing := i.tracing } s i c
    rw [getElem?_absorb hi hn, ← hagree.interpreters k j hj, hi]
    constructor
    · rintro ⟨⟩
      exact absurd hj hne
    · rintro ⟨⟩
      exact absurd hj hne
  · rw [getElem?_absorb_of_ne hk]
    exact hagree.interpreters k j hj

/-- **A call on the environment has the same outcome in both sessions.** -/
theorem AgreeAt.exists_call (hagree : AgreeAt store s t)
    (hcall : s.call h index c = some (outcome, s')) (hon : s.worksOn store index = true) :
    ∃ t', t.call h index c = some (outcome, t') ∧ AgreeAt store s' t' := by
  obtain ⟨i, hi, rfl, rfl⟩ := call_eq_some_iff.mp hcall
  obtain ⟨j, hj, hstore⟩ := worksOn_iff.mp hon
  obtain rfl : j = i := Option.some.inj (hj.symm.trans hi)
  have hti := (hagree.interpreters index j hstore).mp hi
  have hmachine : s.machine j = t.machine j := by rw [machine, machine, hstore, hagree.env]
  rw [hmachine]
  refine ⟨_, call_of_getElem? h c hti, ?_, ?_, fun k i' hi' => ?_⟩
  · rw [size_absorb, size_absorb]
    exact hagree.present
  · by_cases hlt : store < s.environments.size
    · subst hstore
      rw [envAt_absorb hlt, envAt_absorb (hagree.present.mp hlt)]
    · have hlt' := mt hagree.present.mpr hlt
      rw [envAt_of_le (by rw [size_absorb]; omega), envAt_of_le (by rw [size_absorb]; omega)]
  · by_cases hk : k = index
    · subst hk
      obtain ⟨n, hn⟩ := exists_context_eq { h with tracing := j.tracing } t j c
      rw [getElem?_absorb hi hn, getElem?_absorb hti hn]
    · rw [getElem?_absorb_of_ne hk, getElem?_absorb_of_ne hk]
      exact hagree.interpreters k i' hi'

/-- **Calls on other environments can be dropped.** -/
theorem AgreeAt.transcript_eq (hagree : AgreeAt store s t) (calls : List (Nat × Call)) :
    (s.transcript h calls).filter (fun entry => s.worksOn store entry.1)
      = t.transcript h (calls.filter fun call => s.worksOn store call.1)
    ∧ AgreeAt store (s.after h calls)
      (t.after h (calls.filter fun call => s.worksOn store call.1)) := by
  induction calls generalizing s t with
  | nil => exact ⟨rfl, hagree⟩
  | cons call calls ih =>
    obtain ⟨index, c⟩ := call
    cases hcall : s.call h index c with
    | none =>
      have hoff : s.worksOn store index = false := by
        rw [worksOn, call_eq_none_iff.mp hcall]
        rfl
      rw [transcript_cons_of_none hcall, after_cons_of_none hcall]
      simp only [List.filter_cons, hoff, Bool.false_eq_true, ↓reduceIte]
      exact ih hagree
    | some result =>
      obtain ⟨outcome, s'⟩ := result
      rw [transcript_cons_of_some hcall, after_cons_of_some hcall, ← worksOn_call hcall]
      cases hon : s'.worksOn store index with
      | true =>
        obtain ⟨t', htcall, hagree'⟩ := hagree.exists_call hcall (worksOn_call hcall ▸ hon)
        simp only [List.filter_cons, hon, ↓reduceIte, transcript_cons_of_some htcall,
          after_cons_of_some htcall]
        exact ⟨congrArg _ (ih hagree').1, (ih hagree').2⟩
      | false =>
        simp only [List.filter_cons, hon, Bool.false_eq_true, ↓reduceIte]
        exact ih (hagree.of_other_call hcall (worksOn_call hcall ▸ hon))

/-! ### What calls hand on -/

/-- The session whose hooks have been asked some more times, each as often as its interpreter has
met checkpoints. -/
def asked (s : Session D) (steps : Nat → Nat) : Session D :=
  { s with interpreters := s.interpreters.mapIdx fun k i => i.asked (steps k) }

theorem size_after (s : Session D) (calls : List (Nat × Call)) :
    (s.after h calls).environments.size = s.environments.size := by
  induction calls generalizing s with
  | nil => rfl
  | cons call calls ih =>
    obtain ⟨index, c⟩ := call
    cases hcall : s.call h index c with
    | none => rw [after_cons_of_none hcall, ih]
    | some result =>
      obtain ⟨i, -, -, hs'⟩ := call_eq_some_iff.mp hcall
      rw [after_cons_of_some hcall, ih, hs', size_absorb]

theorem worksOn_after (s : Session D) (calls : List (Nat × Call)) :
    (s.after h calls).worksOn = s.worksOn := by
  induction calls generalizing s with
  | nil => rfl
  | cons call calls ih =>
    obtain ⟨index, c⟩ := call
    cases hcall : s.call h index c with
    | none => rw [after_cons_of_none hcall, ih]
    | some result => rw [after_cons_of_some hcall, ih, worksOn_call hcall]

/-- **Calls leave the interpreters as they are**, but for the positions of the hooks: each hook has
been asked at all the checkpoints of the calls of its interpreter. -/
theorem getElem?_after (s : Session D) (calls : List (Nat × Call)) (index : Nat) :
    (s.after h calls).interpreters[index]?
      = s.interpreters[index]?.map (·.asked (stepsOf index (s.transcript h calls))) := by
  induction calls generalizing s with
  | nil =>
    rw [after, transcript, stepsOf_nil]
    cases s.interpreters[index]? with
    | none => rfl
    | some i => rw [Option.map_some, i.asked_zero]
  | cons call calls ih =>
    obtain ⟨k, c⟩ := call
    cases hcall : s.call h k c with
    | none => rw [after_cons_of_none hcall, transcript_cons_of_none hcall, ih]
    | some result =>
      obtain ⟨outcome, s'⟩ := result
      rw [after_cons_of_some hcall, transcript_cons_of_some hcall, ih]
      obtain ⟨i, hi, rfl, rfl⟩ := call_eq_some_iff.mp hcall
      by_cases hk : k = index
      · subst hk
        obtain ⟨n, hn⟩ := exists_context_eq { h with tracing := i.tracing } s i c
        rw [getElem?_absorb hi hn, hi, stepsOf_cons_self, Outcome.steps_eq hn, Option.map_some,
          Option.map_some, Interpreter.asked_asked]
      · rw [getElem?_absorb_of_ne (Ne.symm hk), stepsOf_cons_of_ne hk]

theorem interpreters_after (s : Session D) (calls : List (Nat × Call)) :
    (s.after h calls).interpreters
      = (s.asked fun k => stepsOf k (s.transcript h calls)).interpreters := by
  refine Array.ext_getElem? fun k => ?_
  rw [getElem?_after, asked, Array.getElem?_mapIdx]

/-! ### Interpreters with a common environment -/

/-- A session with one environment, in which interpreters are made one after the other; the flag
says whether an interpreter is given that environment or gets its own. -/
def opened (common : Env D) (made : List (Settings × Bool)) : Session D :=
  made.foldl (fun s entry => s.create entry.1 (if entry.2 then some 0 else none))
    { environments := #[common] }

/-- The place of the environment of the interpreter at place `k`. -/
def placeOf (made : List (Settings × Bool)) (k : Nat) (shared : Bool) : Nat :=
  if shared then 0 else (made.take k).countP (fun entry => !entry.2) + 1

theorem opened_concat (common : Env D) (made : List (Settings × Bool)) (entry : Settings × Bool) :
    opened common (made ++ [entry])
      = (opened common made).create entry.1 (if entry.2 then some 0 else none) := by
  rw [opened, List.foldl_append]
  rfl

theorem environments_opened (common : Env D) (made : List (Settings × Bool)) :
    (opened common made).environments
      = #[common] ++ Array.replicate (made.countP fun entry => !entry.2) .empty := by
  induction made using List.reverseRecOn with
  | nil => rfl
  | append_singleton made entry ih =>
    obtain ⟨a, shared⟩ := entry
    rw [opened_concat]
    cases shared with
    | true => simpa [create] using ih
    | false => simp [create, ih, Array.replicate_succ, ← Array.push_append]

theorem size_opened (common : Env D) (made : List (Settings × Bool)) :
    (opened common made).interpreters.size = made.length := by
  induction made using List.reverseRecOn with
  | nil => rfl
  | append_singleton made entry ih =>
    obtain ⟨a, shared⟩ := entry
    rw [opened_concat]
    cases shared <;> simp [create, ih]

theorem getElem?_opened (common : Env D) (made : List (Settings × Bool)) (k : Nat) :
    (opened common made).interpreters[k]?
      = made[k]?.map fun entry => entry.1.interpreter (placeOf made k entry.2) := by
  induction made using List.reverseRecOn with
  | nil => rfl
  | append_singleton made entry ih =>
    obtain ⟨a, shared⟩ := entry
    have hcreate : (opened common (made ++ [(a, shared)])).interpreters
        = (opened common made).interpreters.push
          (a.interpreter (placeOf made made.length shared)) := by
      rw [opened_concat]
      cases shared <;> simp [create, placeOf, environments_opened, Nat.add_comm]
    have hplace : ∀ l ≤ made.length, placeOf (made ++ [(a, shared)]) l = placeOf made l :=
      fun l hl => by
        funext given
        rw [placeOf, placeOf, List.take_append_of_le_length hl]
    rw [hcreate, Array.getElem?_push, size_opened]
    rcases Nat.lt_trichotomy k made.length with hlt | rfl | hlt
    · rw [if_neg (by omega), ih, List.getElem?_append_left hlt, hplace k (by omega)]
    · simp [hplace]
    · rw [if_neg (by omega), ih, List.getElem?_eq_none (by omega),
        List.getElem?_eq_none (by rw [List.length_append, List.length_singleton]; omega)]
      rfl

/-- An environment that is not shared is a new one, and so the places of two are not the same. -/
theorem placeOf_lt {made : List (Settings × Bool)} {l : Nat} {a : Settings}
    (hk : made[k]? = some (a, false)) (hlt : k < l) :
    placeOf made k false < placeOf made l false := by
  have hprefix : made.take (k + 1) <+: made.take l := List.take_prefix_take_left hlt
  have hcount := hprefix.sublist.countP_le (p := fun entry => !entry.2)
  rw [List.take_add_one, hk, List.countP_append] at hcount
  simp only [Option.toList_some, List.countP_singleton, Bool.not_false, ↓reduceIte] at hcount
  simp only [placeOf, Bool.false_eq_true, ↓reduceIte]
  omega

theorem placeOf_eq_iff {made : List (Settings × Bool)} {l : Nat} {a b : Settings × Bool}
    (hk : made[k]? = some a) (hl : made[l]? = some b) :
    placeOf made k a.2 = placeOf made l b.2 ↔ k = l ∨ a.2 = true ∧ b.2 = true := by
  obtain ⟨a, givenA⟩ := a
  obtain ⟨b, givenB⟩ := b
  by_cases hflags : givenA = givenB
  · subst hflags
    cases givenA with
    | true => simp [placeOf]
    | false =>
      simp only [Bool.false_eq_true, and_false, or_false]
      refine ⟨fun hplace => ?_, fun hkl => by rw [hkl]⟩
      rcases Nat.lt_trichotomy k l with hlt | hkl | hlt
      · have := placeOf_lt hk hlt
        omega
      · exact hkl
      · have := placeOf_lt hl hlt
        omega
  · -- only one of them was given the environment, so they are not the same interpreter either
    have hkl : k ≠ l := by
      rintro rfl
      rw [hk] at hl
      cases hl
      exact hflags rfl
    cases givenA <;> cases givenB <;> simp_all [placeOf]

theorem worksOn_opened_iff {common : Env D} {made : List (Settings × Bool)} {a : Settings × Bool}
    (hk : made[k]? = some a) :
    (opened common made).worksOn store k = true ↔ store = placeOf made k a.2 := by
  rw [worksOn_iff, getElem?_opened, hk]
  constructor
  · rintro ⟨i, hi, rfl⟩
    cases hi
    rfl
  · rintro rfl
    exact ⟨_, rfl, rfl⟩

theorem size_environments_opened (common : Env D) (made : List (Settings × Bool)) :
    (opened common made).environments.size = placeOf made made.length false := by
  simp [environments_opened, placeOf, Nat.add_comm]

theorem placeOf_lt_size (common : Env D) {made : List (Settings × Bool)} {a : Settings × Bool}
    (hk : made[k]? = some a) : placeOf made k a.2 < (opened common made).environments.size := by
  obtain ⟨a, shared⟩ := a
  rw [size_environments_opened]
  cases shared with
  | true => exact Nat.succ_pos _
  | false =>
    obtain ⟨hlt, -⟩ := List.getElem?_eq_some_iff.mp hk
    exact placeOf_lt hk hlt

theorem envAt_opened_empty (made : List (Settings × Bool)) (store : Nat) :
    (opened (.empty : Env D) made).envAt store = .empty := by
  rw [envAt, environments_opened, ← Array.replicate_one, Array.replicate_append_replicate,
    Array.getElem?_replicate]
  split <;> rfl

theorem interpreters_opened_eq (common other : Env D) (made : List (Settings × Bool)) :
    (opened common made).interpreters = (opened other made).interpreters := by
  refine Array.ext_getElem? fun k => ?_
  rw [getElem?_opened, getElem?_opened]

/-! ### Isolation -/

/-- **After a reset** an environment is as in a session that has just been opened with empty
environments, except that the hooks stay at their positions. -/
theorem agreeAt_of_reset {common : Env D} {made : List (Settings × Bool)}
    (before : List (Nat × Call)) (hon : (opened common made).worksOn store index = true) :
    AgreeAt store ((opened common made).after h (before ++ [(index, .reset)]))
      ((opened .empty made).asked fun k =>
        stepsOf k ((opened common made).transcript h (before ++ [(index, .reset)]))) := by
  obtain ⟨i, hi, rfl⟩ := worksOn_iff.mp hon
  have hlt : i.store < (opened common made).environments.size := by
    rw [getElem?_opened] at hi
    obtain ⟨a, ha, rfl⟩ := Option.map_eq_some_iff.mp hi
    exact placeOf_lt_size common ha
  have hbefore := getElem?_after (h := h) (opened common made) before index
  rw [hi] at hbefore
  refine ⟨?_, ?_, fun k j _ => ?_⟩
  · rw [size_after, asked, size_environments_opened, size_environments_opened]
  · refine Eq.trans ?_ (envAt_opened_empty made i.store).symm
    have hsize : i.store < ((opened common made).after h before).environments.size := by
      rw [size_after]
      exact hlt
    rw [after_append]
    exact envAt_reset (i := i.asked _) hbefore hsize
  · rw [interpreters_after, asked, asked, interpreters_opened_eq common .empty]

/-- **Interpreters interfere only through a shared environment.** Take any number of interpreters,
each with its own settings, and some of them with one common environment, and any calls on them,
over any domain of values.

* Two interpreters work on the same environment exactly if both were given the common one.
* The calls on one environment have the outcomes, and leave the environment, that they have and
  leave if no other calls are made.
* A call starts in a context with the whole budget and no steps, and with its hook asked once for
  each checkpoint of the earlier calls of the same interpreter, whatever has become of them. The
  hook is then asked at each of the `n` checkpoints of the call, which may also fail.
* After a reset the calls on the environment have the outcomes that they have if the interpreters
  have just been made and all environments are empty, with the hooks at their positions. -/
theorem opened_isolation (h : Host D) (common : Env D) (made : List (Settings × Bool)) :
    let s := opened common made
    (∀ k l a b, made[k]? = some a → made[l]? = some b →
      ((∃ store, s.worksOn store k ∧ s.worksOn store l) ↔ k = l ∨ a.2 = true ∧ b.2 = true))
    ∧ (∀ store calls,
      (s.transcript h calls).filter (fun entry => s.worksOn store entry.1)
          = s.transcript h (calls.filter fun call => s.worksOn store call.1)
        ∧ (s.after h calls).envAt store
          = (s.after h (calls.filter fun call => s.worksOn store call.1)).envAt store)
    ∧ (∀ before index a shared c, made[index]? = some (a, shared) →
      ∃ store fresh outcome s' n, s.worksOn store index
        ∧ fresh = { sink := a.sink, hook := a.hook, budget := a.budget, steps := 0,
                    polls := if a.hook.isSome then stepsOf index (s.transcript h before) else 0 }
        ∧ (s.after h before).call h index c = some (outcome, s')
        ∧ outcome = (c.run { h with tracing := a.tracing }).carryOut
            { env := (s.after h before).envAt store, context := some fresh, log := #[] }
        ∧ outcome.machine.context = some { fresh with
            steps := n, polls := if a.hook.isSome then fresh.polls + n else 0 }
        ∧ s'.envAt store = outcome.machine.env)
    ∧ ∀ before index store later, s.worksOn store index →
      let t := s.after h (before ++ [(index, .reset)])
      let fresh := (opened (.empty : Env D) made).asked fun k =>
        stepsOf k (s.transcript h (before ++ [(index, .reset)]))
      (t.transcript h later).filter (fun entry => s.worksOn store entry.1)
          = fresh.transcript h (later.filter fun call => s.worksOn store call.1)
        ∧ (t.after h later).envAt store
          = (fresh.after h (later.filter fun call => s.worksOn store call.1)).envAt store := by
  intro s
  refine ⟨fun k l a b hk hl => ?_, fun store calls => ?_, fun before index a shared c ha => ?_,
    fun before index store later hon => ?_⟩
  · constructor
    · rintro ⟨store, honK, honL⟩
      rw [worksOn_opened_iff hk] at honK
      rw [worksOn_opened_iff hl] at honL
      exact (placeOf_eq_iff hk hl).mp (honK.symm.trans honL)
    · intro hshared
      exact ⟨placeOf made k a.2, (worksOn_opened_iff hk).mpr rfl,
        (worksOn_opened_iff hl).mpr ((placeOf_eq_iff hk hl).mpr hshared)⟩
  · have hagree := (AgreeAt.refl store s).transcript_eq (h := h) calls
    exact ⟨hagree.1, hagree.2.env⟩
  · have hi : (s.after h before).interpreters[index]? = some ((a.interpreter
        (placeOf made index shared)).asked (stepsOf index (s.transcript h before))) := by
      rw [getElem?_after, getElem?_opened, ha]
      rfl
    have hlt : placeOf made index shared < (s.after h before).environments.size := by
      rw [size_after]
      exact placeOf_lt_size common ha
    obtain ⟨outcome, s', n, hcall, hrun, hn, henv⟩ := exists_call h c hi hlt
    refine ⟨_, _, outcome, s', n, (worksOn_opened_iff ha).mpr rfl, a.context_asked _ _, hcall, hrun,
      ?_, henv⟩
    rw [hn, a.context_asked]
    cases hhook : a.hook <;> simp [Context.advanced]
  · have hlater := (agreeAt_of_reset (h := h) before hon).transcript_eq (h := h) later
    rw [worksOn_after] at hlater
    exact ⟨hlater.1, hlater.2.env⟩

/-- An assignment of four to a variable, and the variable. -/
def setAndRead : Graph where
  objects := #[
    .record ⟨[("type", .text "NUMBER"), ("value", .int 4)]⟩,
    .record ⟨[("name", .text "x"), ("expr", .ref 0)]⟩,
    .record ⟨[("type", .text "ASSIGNMENT"), ("value", .ref 1)]⟩,
    .record ⟨[("type", .text "VARIABLE"), ("value", .text "x")]⟩]

/-- Three interpreters, of which the first and the last share an environment. -/
def threeInterpreters : List (Settings × Bool) :=
  [({}, true), ({ budget := some 0 }, false), ({ tracing := true }, true)]

/-- The last interpreter reads what the first one has set, whatever the other one does. -/
theorem setAndRead_isolation :
    let s := opened (.empty : Env) threeInterpreters
    ((s.transcript ⟨setAndRead, false, 9, 9, 9⟩ [(0, .evaluate (.ref 2)), (1, .reset),
        (1, .evaluate (.ref 3)), (2, .evaluate (.ref 3))]).filter
          fun entry => s.worksOn 0 entry.1).map (fun entry => (entry.1, entry.2.result))
      = [(0, .ok (.value 4)), (2, .ok (.value 4))] := by
  intro s
  have hisolated :=
    opened_isolation (D := .integers) ⟨setAndRead, false, 9, 9, 9⟩ .empty threeInterpreters
  rw [(hisolated.2.1 0 _).1]
  rfl

end Session

end Treewalk
