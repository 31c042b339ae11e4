import Treewalk.Proofs.Safety
import Treewalk.Proofs.Simulation
import Treewalk.Proofs.Unfolding

/-!
## Sharing cannot be observed

Nodes that unfold to the same tree do the same, wherever their objects are and however many of
them are shared, be their sequences lists or tuples and whatever further fields they have. So it
is with programs, in environments whose functions unfold to the same trees.

* `sharing_simulation`: the simulation of a run in one graph by a run in another.
* `runProgram_sharing`: the law for validation and for runs.
-/

namespace Treewalk

open Eval
open List (Forall₂)

namespace Graph

variable {g g' : Graph} {v v' : Value} {x : String} {n : Int} {f f' : Callable} {ps : List String}
  {ts : List Tree} {form form' : Form} {env env' : Env}

/-! ### The same tree -/

/-- The two values **unfold to the same tree**, each in its own graph. -/
def SameTree (g g' : Graph) (v v' : Value) : Prop :=
  ∃ t, g.Unfolds v t ∧ g'.Unfolds v' t

/-- The function has these parameters, and its statements unfold to these trees. -/
def FunctionUnfolds (g : Graph) (ps : List String) (ts : List Tree) : Callable → Prop
  | .given v => g.Unfolds v (.node (.function ps) ts)
  | .defined p b => ∃ body, g.HasSignature (.defined p b) ps body ∧ Forall₂ g.Unfolds body ts

/-- The two functions have the same parameters and unfold to the same trees. -/
def SameFunction (g g' : Graph) (f f' : Callable) : Prop :=
  ∃ ps ts, g.FunctionUnfolds ps ts f ∧ g'.FunctionUnfolds ps ts f'

/-- The two environments bind the same variables to the same values, and the same names to
functions that unfold to the same trees. -/
structure SameEnv (g g' : Graph) (env env' : Env) : Prop where
  values : ∀ x, env.value? x = env'.value? x
  functions : ∀ x, Option.Rel (SameFunction g g') (env.function? x) (env'.function? x)

/-- The two programs are sequences of statements that unfold to the same trees. -/
def SameProgram (g g' : Graph) (p p' : Value) : Prop :=
  ∃ vs vs', g.items p = .ok vs ∧ g'.items p' = .ok vs' ∧ Forall₂ (SameTree g g') vs vs'

/-- **Nodes that unfold to the same tree** have the same label, and their children unfold to the
same trees. -/
theorem SameTree.forms (h : SameTree g g' v v') : ∃ form form', g.HasForm v form
    ∧ g'.HasForm v' form' ∧ form.label = form'.label
    ∧ Forall₂ (SameTree g g') form.children form'.children := by
  obtain ⟨⟨label, ts⟩, ht, ht'⟩ := h
  obtain ⟨form, hform, hlabel, hchildren⟩ := unfolds_node_iff.mp ht
  obtain ⟨form', hform', hlabel', hchildren'⟩ := unfolds_node_iff.mp ht'
  exact ⟨form, form', hform, hform', hlabel.trans hlabel'.symm,
    forall₂_exists_iff.mpr ⟨ts, hchildren, hchildren'⟩⟩

theorem FunctionUnfolds.signature (h : g.FunctionUnfolds ps ts f) :
    ∃ body, g.HasSignature f ps body ∧ Forall₂ g.Unfolds body ts := by
  cases f with
  | given v =>
    obtain ⟨form, hform, hlabel, hchildren⟩ := unfolds_node_iff.mp h
    cases form with
    | function ps' body =>
      cases hlabel
      exact ⟨body, hasSignature_given hform, hchildren⟩
    | _ => cases hlabel
  | defined p b => exact h

/-- A function that unfolds to trees passes validation. -/
theorem FunctionUnfolds.acceptsFunction (h : g.FunctionUnfolds ps ts f) : g.AcceptsFunction f := by
  cases f with
  | given v =>
    obtain ⟨form, hform, hlabel, -⟩ := unfolds_node_iff.mp h
    cases form with
    | function ps' body =>
      refine (acceptsFunction_iff_of_node (show (Callable.given v).node g = .ok v g from rfl)).mpr
        ⟨ps', body, hform, fun s hs => ?_⟩
      exact h.wellFormed.of_isChild ((isChild_iff hform).mpr hs)
    | _ => cases hlabel
  | defined p b =>
    obtain ⟨body, hsignature, hbody⟩ := h
    exact acceptsFunction_defined_iff.mpr ⟨ps, body, hsignature,
      forall_of_forall₂ hbody fun _ _ => Unfolds.wellFormed⟩

theorem SameEnv.acceptsFunctions (h : SameEnv g g' env env') : g.AcceptsFunctions env := by
  intro name f hf
  have hname := h.functions name
  rw [hf] at hname
  generalize env'.function? name = found at hname
  cases hname with
  | some hsame =>
    obtain ⟨ps, ts, hunfolds, -⟩ := hsame
    exact hunfolds.acceptsFunction

theorem SameEnv.setVariable (h : SameEnv g g' env env') (x : String) (n : Int) :
    SameEnv g g' (env.setVariable x n) (env'.setVariable x n) where
  values y := by rw [Env.value?_setVariable, Env.value?_setVariable, h.values y]
  functions := h.functions

theorem SameEnv.define (h : SameEnv g g' env env') (x : String) (hf : SameFunction g g' f f') :
    SameEnv g g' (env.define x f) (env'.define x f') where
  values := h.values
  functions y := by
    rw [Env.function?_define, Env.function?_define]
    split
    · exact .some hf
    · exact h.functions y

end Graph

/-! ### Runs -/

/-- The relations between runs in two graphs: nodes and functions unfold to the same trees, and all
else is the same. -/
def sharingRelations (g g' : Graph) : Relations where
  node := Graph.SameTree g g'
  function := Graph.SameFunction g g'
  read := Eq
  write := Eq
  call := Eq
  define := Eq
  env := Graph.SameEnv g g'
  log := Eq

namespace Host

/-- **One run simulates the other.** -/
theorem sharing_simulation (h : Host) (g' : Graph) :
    Simulation (sharingRelations h.graph g') h { h with graph := g' } where
  form := by
    intro v v' hv
    obtain ⟨form, form', hform, hform', hlabel, hchildren⟩ := Graph.SameTree.forms hv
    refine ⟨form, form', hform, hform', Relations.formLike_of_label hlabel hchildren
      (fun _ _ => rfl) (fun _ => rfl) (fun _ => rfl) (fun _ => rfl) ?_⟩
    -- what is defined has the children of the definition as its statements
    rintro x f f' ps vs vs' rfl rfl
    obtain ⟨p, b, rfl, hsignature⟩ := Graph.hasSignature_of_definition hform
    obtain ⟨p', b', rfl, hsignature'⟩ := Graph.hasSignature_of_definition hform'
    obtain ⟨ts, hvs, hvs'⟩ := forall₂_exists_iff.mp hchildren
    exact ⟨ps, ts, ⟨vs, hsignature, hvs⟩, vs', hsignature', hvs'⟩
  signature := by
    rintro f f' ⟨ps, ts, hf, hf'⟩
    obtain ⟨vs, hsignature, hvs⟩ := hf.signature
    obtain ⟨vs', hsignature', hvs'⟩ := hf'.signature
    exact ⟨ps, ps, vs, vs', hsignature, hsignature', List.forall₂_same.mpr fun _ _ => rfl,
      forall₂_exists_iff.mpr ⟨ts, hvs, hvs'⟩⟩
  value := by
    rintro env env' x _ henv rfl
    exact henv.values x
  function := by
    rintro env env' x _ henv rfl
    exact henv.functions x
  setVariable := by
    rintro env env' x _ n henv rfl
    exact henv.setVariable x n
  define := by
    rintro env env' x _ f f' henv rfl hf
    exact henv.define x hf
  trace := by
    rintro e e' log _ he rfl
    rw [he.eq rfl rfl rfl]
    rfl
  print := by
    rintro sink n log _ rfl
    rfl
  nesting := rfl
  rounds := rfl

/-- **Only the unfolding of a program matters.** Take two accepted programs whose statements unfold
to the same trees, each in a graph of its own, and two environments with the same values of
variables whose functions unfold to the same trees. Validation gives the two programs the same
summary. In the same context or without one, with the same log, the programs either come to no
end, or they come to ends that tell the same: the same values, or failures of one kind with one
message, one tag, one name and at one statement; the same context and log; and environments that
again have the same values of variables and functions that unfold to the same trees. -/
theorem runProgram_sharing (h : Host) (g' : Graph) (p p' : Value) (m m' : Machine)
    (tracing tracing' : Bool) (depth depth' : Nat)
    (hvalid : (h.graph.validateProgram tracing depth p).1 = .ok ())
    (hvalid' : (g'.validateProgram tracing' depth' p').1 = .ok ())
    (hprogram : Graph.SameProgram h.graph g' p p')
    (henv : Graph.SameEnv h.graph g' m.env m'.env) (hcontext : m.context = m'.context)
    (hlog : m.log = m'.log) :
    (h.graph.validateProgram tracing depth p).2.summary
        = (g'.validateProgram tracing' depth' p').2.summary
      ∧ ((h.Diverges p m ∧ ({ h with graph := g' } : Host).Diverges p' m')
        ∨ ∃ o o', h.Yields p m o ∧ ({ h with graph := g' } : Host).Yields p' m' o'
          ∧ ((∃ xs, o.result = .ok xs ∧ o'.result = .ok xs)
            ∨ ∃ e e', o.result = .error (.failure e) ∧ o'.result = .error (.failure e')
              ∧ e.failure.kind = e'.failure.kind
              ∧ e.failure.message h.graph = e'.failure.message g'
              ∧ e.failure.tag = e'.failure.tag ∧ e.failure.identifier? = e'.failure.identifier?
              ∧ e.statement = e'.statement)
          ∧ o.machine.context = o'.machine.context ∧ o.machine.log = o'.machine.log
          ∧ Graph.SameEnv h.graph g' o.machine.env o'.machine.env) := by
  obtain ⟨vs, vs', hitems, hitems', hvs⟩ := hprogram
  constructor
  · obtain ⟨ts, hts, hts'⟩ := forall₂_exists_iff.mp hvs
    rw [Graph.summary_of_validateProgram hvalid hitems hts,
      Graph.summary_of_validateProgram hvalid' hitems' hts']
  have hstart : (sharingRelations h.graph g').MachineLike m m' := ⟨henv, hcontext, hlog⟩
  have halike := fun rounds => (({ h with rounds := rounds } : Host).sharing_simulation
    g').alike_runProgram hitems hitems' hvs
  rcases Relations.diverges_or_yields h { h with graph := g' } halike hstart with
    hdiverge | ⟨o, o', hy, hy', hlike⟩
  · exact .inl hdiverge
  refine .inr ⟨o, o', hy, hy', ?_, hlike.machine.context, hlike.machine.log, hlike.machine.env⟩
  rcases hlike.result with ⟨xs, hr, hr'⟩ | ⟨halt, halt', hr, hr', hhalt⟩
  · exact .inl ⟨xs, hr, hr'⟩
  · obtain ⟨e, rfl⟩ := exists_failure_of_yields hvalid henv.acceptsFunctions hy hr
    cases hhalt with
    | failure hf statement =>
      have hname : ∀ x x' : String, x = x' → x = x' := fun _ _ => id
      obtain ⟨hkind, -, htag, hidentifier⟩ := hf.tells_same hname hname h.graph
      exact .inr ⟨_, _, hr, hr', hkind, hf.message_eq hname hname h.graph g', htag, hidentifier,
        rfl⟩

/-- A program that doubles a number and calls a function. The function doubles the number too, by
the same node, and the node has the same node for both operands. -/
def sharedSum : Graph where
  objects := #[
    .record ⟨[("type", .text "NUMBER"), ("value", .int 4)]⟩,
    .record ⟨[("op", .text "+"), ("left", .ref 0), ("right", .ref 0)]⟩,
    .record ⟨[("type", .text "OPERATION"), ("value", .ref 1)]⟩,
    .tuple [], .tuple [.ref 2], .record ⟨[("params", .ref 3), ("body", .ref 4)]⟩,
    .record ⟨[("type", .text "FUNCTION"), ("value", .ref 5)]⟩,
    .record ⟨[("name", .text "f"), ("args", .ref 3)]⟩,
    .record ⟨[("type", .text "FUNCTION_CALL"), ("value", .ref 7)]⟩, .list [.ref 2, .ref 8]]

/-- The same with a node for each occurrence, other sequences and a further field. -/
def copiedSum : Graph where
  objects := #[
    .record ⟨[("type", .text "NUMBER"), ("value", .int 4), ("line", .int 1)]⟩,
    .record ⟨[("type", .text "NUMBER"), ("value", .int 4)]⟩,
    .record ⟨[("op", .text "+"), ("left", .ref 0), ("right", .ref 1)]⟩,
    .record ⟨[("type", .text "OPERATION"), ("value", .ref 2)]⟩,
    .record ⟨[("op", .text "+"), ("left", .ref 1), ("right", .ref 0)]⟩,
    .record ⟨[("type", .text "OPERATION"), ("value", .ref 4)]⟩,
    .list [], .list [.ref 5], .record ⟨[("params", .ref 6), ("body", .ref 7)]⟩,
    .record ⟨[("type", .text "FUNCTION"), ("value", .ref 8)]⟩,
    .record ⟨[("name", .text "f"), ("args", .ref 6)]⟩,
    .record ⟨[("type", .text "FUNCTION_CALL"), ("value", .ref 10)]⟩, .tuple [.ref 3, .ref 11]]

/-- The tree that a node unfolds to which adds four and four. -/
def fourPlusFour : Tree :=
  .node (.arithmetic .add) [.node (.number 4) [], .node (.number 4) []]

theorem sharedSum_unfolds : sharedSum.Unfolds (.ref 2) fourPlusFour := by
  have hnumber : sharedSum.Unfolds (.ref 0) (.node (.number 4) []) :=
    Graph.unfolds_node_iff.mpr ⟨.number 4, ⟨.int 4, rfl, rfl⟩, rfl, .nil⟩
  exact Graph.unfolds_node_iff.mpr ⟨.arithmetic .add (.ref 0) (.ref 0),
    ⟨.ref 1, rfl, rfl, ⟨rfl, nofun⟩, rfl, nofun⟩, rfl, .cons hnumber (.cons hnumber .nil)⟩

theorem copiedSum_unfolds : copiedSum.Unfolds (.ref 3) fourPlusFour
    ∧ copiedSum.Unfolds (.ref 5) fourPlusFour := by
  have hnumber : copiedSum.Unfolds (.ref 0) (.node (.number 4) []) :=
    Graph.unfolds_node_iff.mpr ⟨.number 4, ⟨.int 4, rfl, rfl⟩, rfl, .nil⟩
  have hnumber' : copiedSum.Unfolds (.ref 1) (.node (.number 4) []) :=
    Graph.unfolds_node_iff.mpr ⟨.number 4, ⟨.int 4, rfl, rfl⟩, rfl, .nil⟩
  constructor
  · exact Graph.unfolds_node_iff.mpr ⟨.arithmetic .add (.ref 0) (.ref 1),
      ⟨.ref 2, rfl, rfl, ⟨rfl, nofun⟩, rfl, nofun⟩, rfl, .cons hnumber (.cons hnumber' .nil)⟩
  · exact Graph.unfolds_node_iff.mpr ⟨.arithmetic .add (.ref 1) (.ref 0),
      ⟨.ref 4, rfl, rfl, ⟨rfl, nofun⟩, rfl, nofun⟩, rfl, .cons hnumber' (.cons hnumber .nil)⟩

/-- A machine that has one function and a budget. -/
def hasFunction (function : Value) : Machine where
  env := { values := ⟨[("x", 1)]⟩, functions := ⟨[("f", .given function)]⟩ }
  context := some { budget := some 9 }

/-- The two programs are summed up alike, and they run alike. -/
theorem sharedSum_sharing :
    ((sharedSum.validateProgram false 4 (.ref 9)).1 = .ok ()
      ∧ (copiedSum.validateProgram false 4 (.ref 12)).1 = .ok ()
      ∧ Graph.SameProgram sharedSum copiedSum (.ref 9) (.ref 12)
      ∧ Graph.SameEnv sharedSum copiedSum (hasFunction (.ref 6)).env (hasFunction (.ref 9)).env)
    ∧ (sharedSum.validateProgram false 4 (.ref 9)).2.summary
        = (copiedSum.validateProgram false 4 (.ref 12)).2.summary
    ∧ ∃ o o', (⟨sharedSum, false, 9, 9, 9⟩ : Host).Yields (.ref 9) (hasFunction (.ref 6)) o
      ∧ (⟨copiedSum, false, 9, 9, 9⟩ : Host).Yields (.ref 12) (hasFunction (.ref 9)) o'
      ∧ o.machine.context = o'.machine.context ∧ o.machine.log = o'.machine.log
      ∧ Graph.SameEnv sharedSum copiedSum o.machine.env o'.machine.env := by
  have hvalid : (sharedSum.validateProgram false 4 (.ref 9)).1 = .ok () := by decide
  have hvalid' : (copiedSum.validateProgram false 4 (.ref 12)).1 = .ok () := by decide
  have hcall : Graph.SameTree sharedSum copiedSum (.ref 8) (.ref 11) :=
    ⟨.node (.call "f") [],
      Graph.unfolds_node_iff.mpr ⟨.call "f" [],
        ⟨.ref 7, rfl, ⟨rfl, by decide⟩, .ref 3, rfl, rfl, rfl⟩, rfl, .nil⟩,
      Graph.unfolds_node_iff.mpr ⟨.call "f" [],
        ⟨.ref 10, rfl, ⟨rfl, by decide⟩, .ref 6, rfl, rfl, rfl⟩, rfl, .nil⟩⟩
  have hprogram : Graph.SameProgram sharedSum copiedSum (.ref 9) (.ref 12) :=
    ⟨[.ref 2, .ref 8], [.ref 3, .ref 11], rfl, rfl,
      .cons ⟨_, sharedSum_unfolds, copiedSum_unfolds.1⟩ (.cons hcall .nil)⟩
  have hfunction : Graph.SameFunction sharedSum copiedSum (.given (.ref 6)) (.given (.ref 9)) :=
    ⟨[], [fourPlusFour],
      Graph.unfolds_node_iff.mpr ⟨.function [] [.ref 2],
        ⟨.ref 5, rfl, ⟨⟨.ref 3, rfl, rfl, rfl⟩, nofun⟩, .ref 4, rfl, rfl, rfl⟩, rfl,
        .cons sharedSum_unfolds .nil⟩,
      Graph.unfolds_node_iff.mpr ⟨.function [] [.ref 5],
        ⟨.ref 8, rfl, ⟨⟨.ref 6, rfl, rfl, rfl⟩, nofun⟩, .ref 7, rfl, rfl, rfl⟩, rfl,
        .cons copiedSum_unfolds.2 .nil⟩⟩
  have henv : Graph.SameEnv sharedSum copiedSum (hasFunction (.ref 6)).env
      (hasFunction (.ref 9)).env := by
    have hvalues : Graph.SameEnv sharedSum copiedSum { values := ⟨[("x", 1)]⟩ }
        { values := ⟨[("x", 1)]⟩ } := ⟨fun _ => rfl, fun _ => .none⟩
    exact hvalues.define "f" hfunction
  refine ⟨⟨hvalid, hvalid', hprogram, henv⟩, ?_⟩
  obtain ⟨hsummary, hruns⟩ := runProgram_sharing ⟨sharedSum, false, 9, 9, 9⟩ copiedSum (.ref 9)
    (.ref 12) (hasFunction (.ref 6)) (hasFunction (.ref 9)) false false 4 4 hvalid hvalid' hprogram
    henv rfl rfl
  refine ⟨hsummary, ?_⟩
  rcases hruns with hdiverge | ⟨o, o', hy, hy', -, hrest⟩
  · -- the program has no loops, so that it comes to an end at once
    exact absurd (hdiverge.1 9) (by decide +kernel)
  · exact ⟨o, o', hy, hy', hrest⟩

end Host

end Treewalk
