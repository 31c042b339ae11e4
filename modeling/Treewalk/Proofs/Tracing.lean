import Treewalk.Proofs.Endings
import Treewalk.Proofs.Safety
import Treewalk.Proofs.Simulation

/-!
## A traced run is the same run

A trace shows the nodes that are evaluated, the assignments, the definitions and the calls, between
the lines that the run prints. What it shows is put together after the environment has been
changed, from names that could be unfit for being shown. In an accepted program no name is, so a
run does with a trace what it does without one.

* `tracing_simulation`: the simulation of a run by one that differs in its tracing mode.
* `runProgram_tracing`: the law for programs, whether they come to an end or not.
-/

namespace Treewalk

open Eval
open List (Forall₂)

/-! ### What a trace leaves alone -/

namespace Relations

variable {R : Relations} {e e' : Event} {f f' : Failure} {halt halt' : Halt}

/-- A line of a trace is no line that the run prints. -/
theorem EventLike.printedLine?_eq_none (he : R.EventLike e e') :
    e.printedLine? = none ∧ e'.printedLine? = none := by
  cases he <;> exact ⟨rfl, rfl⟩

/-- If names and environments are alike only when they are the same, then so are failures. -/
theorem FailureLike.eq (hf : R.FailureLike f f') (hread : ∀ x x', R.read x x' → x = x')
    (hcall : ∀ x x', R.call x x' → x = x') (henv : ∀ env env', R.env env env' → env = env') :
    f = f' := by
  cases hf with
  | undefinedVariable hx henv' => rw [hread _ _ hx, henv _ _ henv']
  | undefinedFunction hx henv' => rw [hcall _ _ hx, henv _ _ henv']
  | arityMismatch hx _ _ => rw [hcall _ _ hx]
  | same _ => rfl

theorem HaltLike.eq (hhalt : R.HaltLike halt halt') (hread : ∀ x x', R.read x x' → x = x')
    (hcall : ∀ x x', R.call x x' → x = x') (henv : ∀ env env', R.env env env' → env = env') :
    halt = halt' := by
  cases hhalt with
  | failure hf statement => rw [hf.eq hread hcall henv]
  | _ => rfl

end Relations

namespace Log

/-- An event that prints nothing does not change what has been printed, shown or not. -/
theorem printed_ite_push {e : Event} (he : e.printedLine? = none) (shown : Bool) (log : Log) :
    Log.printed (if shown then log.push e else log) = Log.printed log := by
  cases shown with
  | false => rfl
  | true => simp [Log.printed, he]

/-- What one more event prints is added to what has been printed. -/
theorem printed_push_congr {log log' : Log} (h : Log.printed log = Log.printed log') (e : Event) :
    Log.printed (log.push e) = Log.printed (log'.push e) := by
  rw [Array.push_eq_append, Array.push_eq_append, Log.printed_append, Log.printed_append, h]

end Log

/-- The relations between a run and one in another tracing mode: all is the same but for the lines
of the traces. -/
def tracingRelations (g : Graph) : Relations where
  node v v' := v = v' ∧ g.WellFormed v
  function f f' := f = f' ∧ g.AcceptsFunction f
  read := Eq
  write := Eq
  call := Eq
  define := Eq
  env env env' := env = env' ∧ g.AcceptsFunctions env
  log log log' := Log.printed log = Log.printed log'

namespace Host

/-- **One run simulates the other.** -/
theorem tracing_simulation (h : Host) (tracing tracing' : Bool) :
    Simulation (tracingRelations h.graph) { h with tracing := tracing }
      { h with tracing := tracing' } where
  form := by
    rintro v _ ⟨rfl, hv⟩
    obtain ⟨form, hform⟩ := hv.hasForm
    have hchild : ∀ c ∈ form.children, h.graph.WellFormed c :=
      fun c hc => hv.of_isChild ((Graph.isChild_iff hform).mpr hc)
    refine ⟨form, form, hform, hform, Relations.formLike_refl (fun c hc => ⟨rfl, hchild c hc⟩)
      (fun _ _ => rfl) (fun _ => rfl) (fun _ => rfl) (fun _ => rfl) ?_⟩
    -- what a well-formed definition defines passes validation
    rintro x f ps vs rfl
    exact ⟨rfl, Graph.acceptsFunction_of_definition hform hchild⟩
  signature := by
    rintro f _ ⟨rfl, hf⟩
    obtain ⟨ps, vs, hsignature, hvs⟩ := Graph.exists_signature_of_acceptsFunction hf
    exact ⟨ps, ps, vs, vs, hsignature, hsignature, List.forall₂_same.mpr fun _ _ => rfl,
      List.forall₂_same.mpr fun s hs => ⟨rfl, hvs s hs⟩⟩
  value := by
    rintro env _ x _ ⟨rfl, -⟩ rfl
    rfl
  function := by
    rintro env _ x _ ⟨rfl, henv⟩ rfl
    cases hf : env.function? x with
    | none => exact .none
    | some f => exact .some ⟨rfl, henv x f hf⟩
  setVariable := by
    rintro env _ x _ n ⟨rfl, henv⟩ rfl
    exact ⟨rfl, henv⟩
  define := by
    rintro env _ x _ f _ ⟨rfl, henv⟩ rfl ⟨rfl, hf⟩
    exact ⟨rfl, henv.define hf⟩
  trace := by
    intro e e' log log' he hlog
    obtain ⟨he, he'⟩ := he.printedLine?_eq_none
    -- on either side the line is shown or not, and it prints nothing
    exact (Log.printed_ite_push he _ log).trans
      (hlog.trans (Log.printed_ite_push he' _ log').symm)
  print := by
    intro sink n log log' hlog
    exact Log.printed_push_congr hlog _
  nesting := rfl
  rounds := rfl

/-- **Tracing changes nothing but what is shown.** Take a program that validation accepts, an
environment whose functions pass validation, and any context or none. Traced and untraced, the
program either comes to no end, or it comes to ends with the same values or the same error, the
same environment, the same numbers of checkpoints and of questions to the hook, and the same
printed lines. -/
theorem runProgram_tracing (h : Host) (program : Value) (m : Machine) (tracing : Bool)
    (depth : Nat) (hvalid : (h.graph.validateProgram tracing depth program).1 = .ok ())
    (hfunctions : ∀ name f, m.env.function? name = some f → h.graph.AcceptsFunction f) :
    (({ h with tracing := true } : Host).Diverges program m
      ∧ ({ h with tracing := false } : Host).Diverges program m)
    ∨ ∃ traced untraced, ({ h with tracing := true } : Host).Yields program m traced
      ∧ ({ h with tracing := false } : Host).Yields program m untraced
      ∧ traced.result = untraced.result ∧ traced.machine.env = untraced.machine.env
      ∧ traced.machine.context = untraced.machine.context
      ∧ Log.printed traced.machine.log = Log.printed untraced.machine.log
      ∧ Log.collected traced.machine.log = Log.collected untraced.machine.log := by
  obtain ⟨statements, hitems, hstatements⟩ := Graph.exists_wellFormed_of_validateProgram hvalid
  have hnodes : Forall₂ (tracingRelations h.graph).node statements statements :=
    List.forall₂_same.mpr fun s hs => ⟨rfl, hstatements s hs⟩
  have hstart : (tracingRelations h.graph).MachineLike m m := ⟨⟨rfl, hfunctions⟩, rfl, rfl⟩
  have halike := fun rounds => (({ h with rounds := rounds } : Host).tracing_simulation true
    false).alike_runProgram hitems hitems hnodes
  rcases Relations.diverges_or_yields { h with tracing := true } { h with tracing := false }
    halike hstart with hdiverge | ⟨traced, untraced, hy, hy', hlike⟩
  · exact .inl hdiverge
  have hprinted : Log.printed traced.machine.log = Log.printed untraced.machine.log :=
    hlike.machine.log
  refine .inr ⟨traced, untraced, hy, hy', ?_, hlike.machine.env.1, hlike.machine.context, hprinted,
    by rw [Log.collected_eq, Log.collected_eq, hprinted]⟩
  rcases hlike.result with ⟨xs, hr, hr'⟩ | ⟨halt, halt', hr, hr', hhalt⟩
  · rw [hr, hr']
  · rw [hr, hr', hhalt.eq (fun _ _ => id) (fun _ _ => id) fun _ _ henv => henv.1]

/-- A program that defines a function, which prints its parameter, and calls it and another one. -/
def printsInCalls : Graph where
  objects := #[
    .record ⟨[("type", .text "VARIABLE"), ("value", .text "x")]⟩,
    .record ⟨[("type", .text "PRINT"), ("value", .ref 0)]⟩,
    .tuple [.text "x"], .tuple [.ref 1],
    .record ⟨[("name", .text "f"), ("params", .ref 2), ("body", .ref 3)]⟩,
    .record ⟨[("type", .text "FUNCTION_DEF"), ("value", .ref 4)]⟩,
    .record ⟨[("type", .text "NUMBER"), ("value", .int 4)]⟩, .tuple [.ref 6],
    .record ⟨[("name", .text "f"), ("args", .ref 7)]⟩,
    .record ⟨[("type", .text "FUNCTION_CALL"), ("value", .ref 8)]⟩,
    .record ⟨[("name", .text "g"), ("args", .ref 7)]⟩,
    .record ⟨[("type", .text "FUNCTION_CALL"), ("value", .ref 10)]⟩,
    .record ⟨[("params", .ref 2), ("body", .ref 3)]⟩,
    .record ⟨[("type", .text "FUNCTION"), ("value", .ref 12)]⟩,
    .list [.ref 5, .ref 9, .ref 11]]

/-- A machine that has the other function and collects what is printed. -/
def collectsPrinted : Machine where
  env := { functions := ⟨[("g", .given (.ref 13))]⟩ }
  context := some { sink := .collector, budget := some 9 }

/-- Both runs print the same two lines. -/
theorem printsInCalls_tracing :
    ((printsInCalls.validateProgram false 4 (.ref 14)).1 = .ok ()
      ∧ ∀ name f, collectsPrinted.env.function? name = some f → printsInCalls.AcceptsFunction f)
    ∧ ∃ traced untraced,
      (⟨printsInCalls, true, 9, 9, 9⟩ : Host).Yields (.ref 14) collectsPrinted traced
      ∧ (⟨printsInCalls, false, 9, 9, 9⟩ : Host).Yields (.ref 14) collectsPrinted untraced
      ∧ traced.result = untraced.result
      ∧ Log.collected traced.machine.log = Log.collected untraced.machine.log := by
  have hvalid : (printsInCalls.validateProgram false 4 (.ref 14)).1 = .ok () := by decide
  have hfunctions : ∀ name f, collectsPrinted.env.function? name = some f →
      printsInCalls.AcceptsFunction f :=
    Graph.AcceptsFunctions.singleton
      ⟨.ref 13, printsInCalls, rfl, ⟨.ref 12, by decide⟩, 3, by decide⟩
  refine ⟨⟨hvalid, hfunctions⟩, ?_⟩
  rcases runProgram_tracing ⟨printsInCalls, false, 9, 9, 9⟩ (.ref 14) collectsPrinted false 4
    hvalid hfunctions with hdiverge | ⟨traced, untraced, hy, hy', hresult, -, -, -, hlines⟩
  · -- the program has no loops, so that it comes to an end at once
    exact absurd (hdiverge.2 9) (by decide +kernel)
  · exact ⟨traced, untraced, hy, hy', hresult, hlines⟩

end Host

end Treewalk
