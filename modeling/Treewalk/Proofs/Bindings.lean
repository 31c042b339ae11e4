import Treewalk.Dynamic
import Treewalk.Proofs.Congruence
import Treewalk.Proofs.Triple

/-!
## Bindings that stay

A run binds names and never takes a binding back. So a name that is missed at the end was unbound
all along, and since nothing happens to the environment after a failure, the failure of a name
shows the environment as the run leaves it. Nothing is asked of the nodes, which may be malformed
wherever they are, nor of the values that literals stand for: what nodes do is put together from a
few steps (`Congruence`), and each of these keeps the bindings.

* `Env.Keeps`: one environment binds whatever another one does.
* `Failure.IsTrueOf`: what the failure of a name says of an environment.
* `keepsBindings_congruence`: the steps of a node.
* `runProgram_keeps_bindings`: the law for programs.
-/

namespace Treewalk

open Eval

variable {D : Domain}

/-! ### Environments and failures -/

/-- Whatever the first environment binds, the second one binds too. -/
structure Env.Keeps (first env : Env D) : Prop where
  hasVariable (name : D.Key) : first.hasVariable name = true → env.hasVariable name = true
  hasFunction (name : D.Key) : first.hasFunction name = true → env.hasFunction name = true

namespace Env.Keeps

variable {first env : Env D}

theorem refl (first : Env D) : first.Keeps first :=
  ⟨fun _ => id, fun _ => id⟩

theorem setVariable (h : first.Keeps env) (name : D.Key) (x : D.Val) :
    first.Keeps (env.setVariable name x) where
  hasVariable other hother := by
    have hbefore : env.values.contains other = true := h.hasVariable other hother
    show (env.values.insert name x).contains other = true
    rw [Table.contains_insert, hbefore, Bool.or_true]
  hasFunction := h.hasFunction

theorem define (h : first.Keeps env) (name : D.Key) (f : Callable) :
    first.Keeps (env.define name f) where
  hasVariable := h.hasVariable
  hasFunction other hother := by
    have hbefore : env.functions.contains other = true := h.hasFunction other hother
    show (env.functions.insert name f).contains other = true
    rw [Table.contains_insert, hbefore, Bool.or_true]

/-- What is unbound now has never been bound. -/
theorem hasVariable_eq_false (h : first.Keeps env) {name : D.Key}
    (hname : env.hasVariable name = false) : first.hasVariable name = false := by
  cases hfirst : first.hasVariable name with
  | false => rfl
  | true => exact absurd (h.hasVariable name hfirst) (by simp [hname])

theorem hasFunction_eq_false (h : first.Keeps env) {name : D.Key}
    (hname : env.hasFunction name = false) : first.hasFunction name = false := by
  cases hfirst : first.hasFunction name with
  | false => rfl
  | true => exact absurd (h.hasFunction name hfirst) (by simp [hname])

end Env.Keeps

/-- The failure of a name shows the environment, where nothing is bound under the name. Other
failures say nothing of it. -/
def Failure.IsTrueOf (env : Env D) : Failure D → Prop
  | .undefinedVariable name shown =>
    shown = env ∧ ∀ key, D.key? name = some key → env.hasVariable key = false
  | .undefinedFunction name shown =>
    shown = env ∧ ∀ key, D.key? name = some key → env.hasFunction key = false
  | _ => True

theorem Failure.isTrueOf_of_env? {f : Failure D} (h : f.env? = none) (env : Env D) :
    f.IsTrueOf env := by
  cases f with
  | undefinedVariable name shown | undefinedFunction name shown => cases h
  | _ => trivial

/-- If the halt is a failure, then one that is true of the environment. -/
def Halt.IsTrueOf (env : Env D) (halt : Halt D) : Prop :=
  ∀ e, halt = .failure e → e.failure.IsTrueOf env

theorem Halt.isTrueOf_of_env? {halt : Halt D} (h : halt.env? = none) (env : Env D) :
    halt.IsTrueOf env := by
  rintro e rfl
  exact Failure.isTrueOf_of_env? h env

/-- The run unbinds nothing that `first` binds, and a failure is true of the environment that is
left. -/
def Eval.KeepsBindings {α : Type} (first : Env D) (x : Eval α D) : Prop :=
  Triple (first.Keeps ·.env) x (first.Keeps ·.env)
    fun halt m => first.Keeps m.env ∧ halt.IsTrueOf m.env

namespace Host

variable {first : Env D} {α : Type}

/-! ### Steps -/

theorem keepsBindings_throw {halt : Halt D} (h : halt.env? = none) :
    KeepsBindings first (throw halt : Eval α D) :=
  Triple.throw fun m hm => ⟨hm, Halt.isTrueOf_of_env? h m.env⟩

theorem keepsBindings_changeEnv {change : Env D → Env D}
    (h : ∀ env, first.Keeps env → first.Keeps (change env)) :
    KeepsBindings first (changeEnv change) :=
  fun m hm => h m.env hm

/-- **A name is looked up.** What is missed serves as no key that `find` knows, and the failure has
to be true of the environment then. -/
theorem lands_lookUp (h : Host D) (name : Value) {find : D.Key → Option α} {f : Failure D}
    {m : Machine D} {found : Option α → Eval α D} (hsome : ∀ a, found (some a) = pure a)
    (hnone : found none = h.failNaming name f) (hm : first.Keeps m.env)
    (hf : (∀ key, D.key? name = some key → find key = none) → f.IsTrueOf m.env) :
    Lands (first.Keeps ·.env) (fun halt m => first.Keeps m.env ∧ halt.IsTrueOf m.env)
      ((h.lookUp find name >>= found) m) := by
  rw [lookUp]
  cases hlookUp : h.graph.lookUpBy D.key? find name with
  | error fault => exact ⟨hm, Halt.isTrueOf_of_env? rfl m.env⟩
  | ok result =>
    rw [read_ok, pure_bind]
    cases result with
    | some a =>
      rw [hsome]
      exact hm
    | none =>
      have hmissed := Graph.eq_none_of_lookUpBy_eq_none hlookUp
      rw [hnone, failNaming]
      split
      · refine ⟨hm, ?_⟩
        rintro e ⟨rfl⟩
        exact hf hmissed
      · exact ⟨hm, Halt.isTrueOf_of_env? rfl m.env⟩

theorem keepsBindings_valueOf (h : Host D) (name : Value) :
    KeepsBindings first (h.valueOf name) := by
  intro m hm
  rw [valueOf, Steps.bind_of_ok (show env m = .ok m.env m from rfl)]
  refine lands_lookUp h name (fun _ => rfl) rfl hm fun hmissed => ⟨rfl, fun key hkey => ?_⟩
  exact Option.isSome_eq_false_iff.mpr (Option.isNone_iff_eq_none.mpr (hmissed key hkey))

theorem keepsBindings_functionOf (h : Host D) (name : Value) :
    KeepsBindings first (h.functionOf name) := by
  intro m hm
  rw [functionOf, Steps.bind_of_ok (show env m = .ok m.env m from rfl)]
  refine lands_lookUp h name (fun _ => rfl) rfl hm fun hmissed => ⟨rfl, fun key hkey => ?_⟩
  exact Option.isSome_eq_false_iff.mpr (Option.isNone_iff_eq_none.mpr (hmissed key hkey))

theorem keepsBindings_inContext {x : Eval α D} (hx : KeepsBindings first x) :
    KeepsBindings first (inContext x) :=
  fun _ hm => Lands.inContext (fun _ _ => id) (fun _ _ _ => id) (hx _ hm)

/-- Whether a checkpoint is passed or not, it leaves the bindings alone. -/
theorem keepsBindings_checkpoint (site : String) :
    KeepsBindings first (checkpoint site : Eval Unit D) := by
  intro m hm
  cases hc : m.context with
  | none =>
    rw [checkpoint, hc]
    exact ⟨hm, Halt.isTrueOf_of_env? rfl m.env⟩
  | some c =>
    cases hint : c.interruption? site D with
    | none =>
      rw [checkpoint_of_none hc hint]
      exact hm
    | some f =>
      -- what ends a run at a checkpoint is about no name
      have henv : (Halt.failure ⟨f, none⟩).env? = none :=
        Failure.env?_eq_none_of_identifier? (Context.identifier?_of_interruption? hint)
      rw [checkpoint_of_some hc hint]
      exact ⟨hm, Halt.isTrueOf_of_env? henv m.env⟩

theorem keepsBindings_print (value : D.Val) : KeepsBindings first (print value) := by
  intro m hm
  rw [print]
  cases m.context with
  | none => exact ⟨hm, Halt.isTrueOf_of_env? rfl m.env⟩
  | some c => exact hm

/-- **The steps of a node keep all bindings**, and what they miss is unbound. -/
theorem keepsBindings_congruence (first : Env D) :
    Congruence fun {α : Type} (x _ : Eval α D) => KeepsBindings first x where
  pure a := Triple.pure a
  throw _ _ henv := keepsBindings_throw henv
  bind hx hf := Triple.bind hx hf
  valueOf := keepsBindings_valueOf
  functionOf := keepsBindings_functionOf
  setVariable name x := keepsBindings_changeEnv fun _ henv => henv.setVariable name x
  define name f := keepsBindings_changeEnv fun _ henv => henv.define name f
  emit _ := fun _ hm => hm
  inContext hx := keepsBindings_inContext hx
  checkpoint := keepsBindings_checkpoint
  print := keepsBindings_print

/-! ### Programs -/

/-- Blame says nothing new of the environment. -/
theorem isTrueOf_blamed (h : Host D) (index : Nat) (v : Value) {halt : Halt D} {env : Env D}
    (htrue : halt.IsTrueOf env) : (h.blamed index v halt).IsTrueOf env := by
  cases halt with
  | failure e =>
    rintro _ ⟨rfl⟩
    exact htrue e rfl
  | tooDeep =>
    refine Halt.isTrueOf_of_env? ?_ env
    unfold blamed
    cases h.graph.field v "type" <;> rfl
  | _ => exact Halt.isTrueOf_of_env? rfl env

theorem keepsBindings_runProgram (h : Host D) (program : Value) (first : Env D) :
    KeepsBindings first (h.runProgram program) := by
  have hcongr := keepsBindings_congruence first
  have hstatement : ∀ index v, KeepsBindings first (h.runStatement index v) := by
    intro index v
    have heval : KeepsBindings first (h.eval h.nesting v) :=
      eval_congr hcongr h (keepsBindings_throw rfl) h.nesting v
    exact triple_runStatement (fun _ _ hhalt => ⟨hhalt.1, h.isTrueOf_blamed index v hhalt.2⟩) heval
  refine keepsBindings_inContext (Triple.bind (hcongr.read _) fun vs => ?_)
  exact triple_runStatements (fun index v _ => hstatement index v) 0

/-- **No binding is lost, and the failure of a name tells the truth.** Whatever the program is,
whatever domain its values are in, and however its run ends, each variable and each function that
was bound at the start is bound at the end. If the run ends with the failure of a variable, then the
failure shows the environment that the run leaves, and nothing is bound under the name of the
variable, neither there nor at the start; the same holds for functions. -/
theorem runProgram_keeps_bindings (h : Host D) (program : Value) (m : Machine D)
    {o : Outcome (List D.Val) D} (hrun : (h.runProgram program).carryOut m = o) :
    (∀ x, m.env.hasVariable x = true → o.machine.env.hasVariable x = true)
    ∧ (∀ f, m.env.hasFunction f = true → o.machine.env.hasFunction f = true)
    ∧ (∀ name shown statement,
      o.result = .error (.failure ⟨.undefinedVariable name shown, statement⟩) →
      shown = o.machine.env ∧ ∀ x, D.key? name = some x →
        m.env.hasVariable x = false ∧ o.machine.env.hasVariable x = false)
    ∧ ∀ name shown statement,
      o.result = .error (.failure ⟨.undefinedFunction name shown, statement⟩) →
      shown = o.machine.env ∧ ∀ f, D.key? name = some f →
        m.env.hasFunction f = false ∧ o.machine.env.hasFunction f = false := by
  have hkeeps := h.keepsBindings_runProgram program m.env m (.refl m.env)
  subst hrun
  unfold carryOut
  cases hrun : h.runProgram program m with
  | ok xs m' =>
    rw [hrun] at hkeeps
    exact ⟨hkeeps.hasVariable, hkeeps.hasFunction, nofun, nofun⟩
  | error halt m' =>
    rw [hrun] at hkeeps
    obtain ⟨hkept, htrue⟩ := hkeeps
    refine ⟨hkept.hasVariable, hkept.hasFunction, ?_, ?_⟩
    · rintro name shown statement ⟨rfl⟩
      obtain ⟨hshown, hunbound⟩ := htrue _ rfl
      exact ⟨hshown, fun x hx => ⟨hkept.hasVariable_eq_false (hunbound x hx), hunbound x hx⟩⟩
    · rintro name shown statement ⟨rfl⟩
      obtain ⟨hshown, hunbound⟩ := htrue _ rfl
      exact ⟨hshown, fun f hf => ⟨hkept.hasFunction_eq_false (hunbound f hf), hunbound f hf⟩⟩

/-- A program that gives `x` a text for its value, and then reads `y`. -/
def textThenMissing : Graph where
  objects := #[
    .record ⟨[("type", .text "NUMBER"), ("value", .text "abc")]⟩,
    .record ⟨[("name", .text "x"), ("expr", .ref 0)]⟩,
    .record ⟨[("type", .text "ASSIGNMENT"), ("value", .ref 1)]⟩,
    .record ⟨[("type", .text "VARIABLE"), ("value", .text "y")]⟩,
    .list [.ref 2, .ref 3]]

/-- The text is kept, though no validation would let it pass for a literal, and the failure shows
it, next to what was bound under a number before. -/
theorem textThenMissing_keeps_bindings :
    ((⟨textThenMissing, false, 9, 9, 9⟩ : Host (.dynamic textThenMissing .refusing)).runProgram
        (.ref 4)).carryOut { env := { values := ⟨[([.int 7], .flag true)]⟩ } }
      = ⟨.error (.failure ⟨.undefinedVariable (.text "y")
          { values := ⟨[([.int 7], .flag true), ([.text "x"], .text "abc")]⟩ }, some 1⟩),
        { env := { values := ⟨[([.int 7], .flag true), ([.text "x"], .text "abc")]⟩ } }⟩
    ∧ ({ values := ⟨[([.int 7], .flag true)]⟩ } :
        Env (.dynamic textThenMissing .refusing)).hasVariable [.text "y"] = false
    ∧ ({ values := ⟨[([.int 7], .flag true), ([.text "x"], .text "abc")]⟩ } :
        Env (.dynamic textThenMissing .refusing)).hasVariable [.text "y"] = false := by
  have hrun : ((⟨textThenMissing, false, 9, 9, 9⟩ :
        Host (.dynamic textThenMissing .refusing)).runProgram (.ref 4)).carryOut
          { env := { values := ⟨[([.int 7], .flag true)]⟩ } }
      = ⟨.error (.failure ⟨.undefinedVariable (.text "y")
          { values := ⟨[([.int 7], .flag true), ([.text "x"], .text "abc")]⟩ }, some 1⟩),
        { env := { values := ⟨[([.int 7], .flag true), ([.text "x"], .text "abc")]⟩ } }⟩ := rfl
  have hmissed := (runProgram_keeps_bindings _ (.ref 4) _ hrun).2.2.1 (.text "y") _ _ rfl
  exact ⟨hrun, hmissed.2 [.text "y"] rfl⟩

end Host

end Treewalk
