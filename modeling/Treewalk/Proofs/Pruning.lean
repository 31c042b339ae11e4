import Treewalk.Proofs.Realizing
import Treewalk.Proofs.Tracing

/-!
## Definitions of functions that are never called

The summary of a program lists the functions that it calls. A function that is not among them, and
that no function in the environment calls, is never looked up, so that its definitions do nothing
that can be noticed: a run does the same if every one of them is replaced by a literal.

The two runs have different functions under the name that is never called, and the statements of
all other functions differ by the same replacement. Both go on as the runs do, since a statement
that is stored calls no more than the node did that has stored it.

* `PrunedNode.forms`: nodes that differ by the replacement have the same form, with children that
  differ so, or they are a definition and a literal.
* `alike_eval_pruned`: the evaluations of nodes that differ by the replacement.
* `runProgram_pruning`: the law for programs, whether they come to an end or not.
-/

namespace Treewalk

open Eval
open List (Forall₂)

/-! ### Pruned trees -/

/-- Do nodes with the label define the name? -/
def Label.defines (name : String) : Label → Bool
  | .definition x _ => x == name
  | _ => false

theorem Label.defines_iff {name : String} {label : Label} :
    label.defines name = true ↔ ∃ ps, label = .definition name ps := by
  cases label <;> simp [defines]

mutual

/-- The tree with a zero in the place of every definition of the name. -/
def Tree.prune (name : String) : Tree → Tree
  | .node label ts =>
    if label.defines name then .node (.number 0) [] else .node label (pruneAll name ts)

/-- The trees with a zero in the place of every definition of the name. -/
def Tree.pruneAll (name : String) : List Tree → List Tree
  | [] => []
  | t :: ts => t.prune name :: pruneAll name ts

end

namespace Tree

variable {name : String} {label : Label} {t : Tree} {ts : List Tree}

theorem pruneAll_eq_map (name : String) (ts : List Tree) :
    pruneAll name ts = ts.map (·.prune name) := by
  induction ts with
  | nil => rfl
  | cons t ts ih => rw [pruneAll, ih, List.map_cons]

theorem prune_definition (name : String) (ps : List String) (ts : List Tree) :
    (node (.definition name ps) ts).prune name = .node (.number 0) [] := by
  rw [prune, if_pos (Label.defines_iff.mpr ⟨ps, rfl⟩)]

theorem prune_of_not_defines (h : label.defines name = false) :
    (node label ts).prune name = .node label (ts.map (·.prune name)) := by
  rw [prune, h, pruneAll_eq_map]
  rfl

/-- A proper tree stays proper when it is pruned. -/
theorem IsProper.prune (h : t.IsProper) (name : String) : (t.prune name).IsProper := by
  induction h with
  | @node label ts hlabel _ ih =>
    cases hdefines : label.defines name with
    | true =>
      rw [Tree.prune, if_pos hdefines, isProper_node_iff]
      exact ⟨rfl, by simp⟩
    | false =>
      rw [prune_of_not_defines hdefines, isProper_node_iff, List.length_map, List.forall_mem_map]
      exact ⟨hlabel, ih⟩

end Tree

/-! ### Pruned programs and environments -/

namespace Graph

section

variable (name : String) (g g' : Graph)

/-- The values unfold to the same tree, or the second to the pruned tree of the first, and the name
is not called in it. -/
def PrunedNode (v v' : Value) : Prop :=
  ∃ t, g.Unfolds v t ∧ (g'.Unfolds v' t ∨ g'.Unfolds v' (t.prune name)) ∧ .call name ∉ t.labels

/-- The functions have the same parameters and the same statements, or the second has the pruned
statements of the first, and the name is not called in them. -/
def PrunedFunction (F F' : Callable) : Prop :=
  ∃ ps ts, g.FunctionUnfolds ps ts F
    ∧ (g'.FunctionUnfolds ps ts F' ∨ g'.FunctionUnfolds ps (ts.map (·.prune name)) F')
    ∧ .call name ∉ Tree.labelsOfAll ts

/-- The environments have the same variables, and **the same functions up to pruning**, apart from
those of the name. -/
structure PrunedEnv (env env' : Env) : Prop where
  values : ∀ x, env.value? x = env'.value? x
  functions : ∀ x, x ≠ name →
    Option.Rel (PrunedFunction name g g') (env.function? x) (env'.function? x)

/-- The second program is the first with **a zero in the place of every definition of the name**. -/
def PrunedProgram (p p' : Value) : Prop :=
  ∃ vs vs', g.items p = .ok vs ∧ g'.items p' = .ok vs'
    ∧ Forall₂ (fun v v' => ∃ t, g.Unfolds v t ∧ g'.Unfolds v' (t.prune name)) vs vs'

/-- The rows unfold to the same trees, or the second to the pruned trees of the first, and the name
is not called in them. -/
def PrunedRow (vs vs' : List Value) (ts : List Tree) : Prop :=
  Forall₂ g.Unfolds vs ts
    ∧ (Forall₂ g'.Unfolds vs' ts ∨ Forall₂ g'.Unfolds vs' (ts.map (·.prune name)))
    ∧ .call name ∉ Tree.labelsOfAll ts

end

variable {name x : String} {g g' : Graph} {v v' : Value} {vs vs' : List Value} {ts : List Tree}
  {F F' : Callable} {env env' : Env} {n : Int}

/-- The members of rows that differ by pruning differ by pruning. -/
theorem PrunedRow.nodes (h : PrunedRow name g g' vs vs' ts) :
    Forall₂ (PrunedNode name g g') vs vs' := by
  obtain ⟨hvs, hvs', hcall⟩ := h
  have hfree : ∀ t ∈ ts, .call name ∉ t.labels :=
    fun t ht hmem => hcall (Tree.mem_labelsOfAll.mpr ⟨t, ht, hmem⟩)
  have hmarked : Forall₂ (fun t v => .call name ∉ t.labels ∧ g.Unfolds v t) ts vs :=
    (List.forall₂_and_left _ _).mpr ⟨hfree, Forall₂.flip hvs⟩
  have hmarked' : Forall₂ (fun v t => .call name ∉ t.labels ∧ g.Unfolds v t) vs ts :=
    Forall₂.flip hmarked
  rcases hvs' with hvs' | hvs'
  · refine (forall₂_exists_iff.mpr ⟨ts, hmarked', hvs'⟩).imp ?_
    rintro v v' ⟨t, ⟨hfree, hv⟩, hv'⟩
    exact ⟨t, hv, .inl hv', hfree⟩
  · refine (forall₂_exists_iff.mpr ⟨ts, hmarked', List.forall₂_map_right_iff.mp hvs'⟩).imp ?_
    rintro v v' ⟨t, ⟨hfree, hv⟩, hv'⟩
    exact ⟨t, hv, .inr hv', hfree⟩

/-- **Nodes that differ by pruning** have the same label, which is not that of a call of the name,
and children that differ by pruning; or they are a definition of the name and a literal. -/
theorem PrunedNode.forms (h : PrunedNode name g g' v v') :
    (∃ form form' ts, g.HasForm v form ∧ g'.HasForm v' form' ∧ form.label = form'.label
      ∧ form.label ≠ .call name ∧ PrunedRow name g g' form.children form'.children ts)
    ∨ ∃ F ps body, g.HasForm v (.definition name F ps body) ∧ g'.HasForm v' (.number 0) := by
  obtain ⟨⟨label, ts⟩, ht, ht', hcall⟩ := h
  rw [Tree.mem_labels_node, not_or] at hcall
  obtain ⟨hlabel, hcall⟩ := hcall
  obtain ⟨form, hform, rfl, hchildren⟩ := unfolds_node_iff.mp ht
  cases hdefines : form.label.defines name with
  | false =>
    rw [Tree.prune_of_not_defines hdefines, unfolds_node_iff, unfolds_node_iff] at ht'
    left
    rcases ht' with ⟨form', hform', hsame, hchildren'⟩ | ⟨form', hform', hsame, hchildren'⟩
    · exact ⟨form, form', ts, hform, hform', hsame.symm, Ne.symm hlabel, hchildren, .inl hchildren',
        hcall⟩
    · exact ⟨form, form', ts, hform, hform', hsame.symm, Ne.symm hlabel, hchildren, .inr hchildren',
        hcall⟩
  | true =>
    obtain ⟨ps, hps⟩ := Label.defines_iff.mp hdefines
    rcases ht' with ht' | ht'
    · -- a definition that has stayed, since it is part of a function that was given
      obtain ⟨form', hform', hsame, hchildren'⟩ := unfolds_node_iff.mp ht'
      exact .inl ⟨form, form', ts, hform, hform', hsame.symm, Ne.symm hlabel, hchildren,
        .inl hchildren', hcall⟩
    · rw [hps, Tree.prune_definition] at ht'
      obtain ⟨form', hform', hnumber, -⟩ := unfolds_node_iff.mp ht'
      cases form <;> cases hps
      cases form' <;> cases hnumber
      exact .inr ⟨_, _, _, hform, hform'⟩

/-- What a definition that has stayed defines differs by pruning. -/
theorem PrunedRow.function {x x' : String} {ps : List String} {body body' : List Value}
    (h : PrunedRow name g g' body body' ts) (hform : g.HasForm v (.definition x F ps body))
    (hform' : g'.HasForm v' (.definition x' F' ps body')) : PrunedFunction name g g' F F' := by
  obtain ⟨p, b, rfl, hsignature⟩ := hasSignature_of_definition hform
  obtain ⟨p', b', rfl, hsignature'⟩ := hasSignature_of_definition hform'
  obtain ⟨hbody, hbody', hcall⟩ := h
  exact ⟨ps, ts, ⟨body, hsignature, hbody⟩,
    hbody'.imp (fun hts => ⟨body', hsignature', hts⟩) fun hts => ⟨body', hsignature', hts⟩, hcall⟩

theorem PrunedFunction.signature (h : PrunedFunction name g g' F F') :
    ∃ ps vs vs', g.HasSignature F ps vs ∧ g'.HasSignature F' ps vs'
      ∧ Forall₂ (PrunedNode name g g') vs vs' := by
  obtain ⟨ps, ts, hF, hF', hcall⟩ := h
  obtain ⟨vs, hsignature, hvs⟩ := hF.signature
  rcases hF' with hF' | hF'
  · obtain ⟨vs', hsignature', hvs'⟩ := hF'.signature
    exact ⟨ps, vs, vs', hsignature, hsignature', PrunedRow.nodes ⟨hvs, .inl hvs', hcall⟩⟩
  · obtain ⟨vs', hsignature', hvs'⟩ := hF'.signature
    exact ⟨ps, vs, vs', hsignature, hsignature', PrunedRow.nodes ⟨hvs, .inr hvs', hcall⟩⟩

namespace PrunedEnv

theorem setVariable (h : PrunedEnv name g g' env env') (x : String) (n : Int) :
    PrunedEnv name g g' (env.setVariable x n) (env'.setVariable x n) where
  values y := by rw [Env.value?_setVariable, Env.value?_setVariable, h.values y]
  functions := h.functions

theorem define (h : PrunedEnv name g g' env env') (x : String)
    (hF : PrunedFunction name g g' F F') :
    PrunedEnv name g g' (env.define x F) (env'.define x F') where
  values := h.values
  functions y hy := by
    rw [Env.function?_define, Env.function?_define]
    split
    · exact .some hF
    · exact h.functions y hy

/-- The environments need not agree on the name. -/
theorem define_left (h : PrunedEnv name g g' env env') (F : Callable) :
    PrunedEnv name g g' (env.define name F) env' where
  values := h.values
  functions y hy := by
    rw [Env.function?_define, if_neg hy]
    exact h.functions y hy

end PrunedEnv

/-- Environments with the same functions differ by pruning if no function calls the name. -/
theorem SameEnv.prunedEnv (h : SameEnv g g' env env')
    (hcall : ∀ x F ps ts, env.function? x = some F → g.FunctionUnfolds ps ts F →
      .call name ∉ Tree.labelsOfAll ts) : PrunedEnv name g g' env env' where
  values := h.values
  functions x _ := by
    have hx := h.functions x
    generalize env'.function? x = found at hx ⊢
    cases hF : env.function? x with
    | none =>
      rw [hF] at hx
      cases hx
      exact .none
    | some F =>
      rw [hF] at hx
      cases hx with
      | some hsame =>
        obtain ⟨ps, ts, hunfolds, hunfolds'⟩ := hsame
        exact .some ⟨ps, ts, hunfolds, .inl hunfolds', hcall x F ps ts hF hunfolds⟩

/-- **The statements of an accepted program do not call what the summary does not list.** -/
theorem not_mem_labels_of_validateProgram {tracing : Bool} {depth : Nat} {p : Value}
    (hvalid : (g.validateProgram tracing depth p).1 = .ok ())
    (hcalled : name ∉ (g.validateProgram tracing depth p).2.summary.called)
    (hitems : g.items p = .ok vs) (hvs : Forall₂ g.Unfolds vs ts) :
    .call name ∉ Tree.labelsOfAll ts := by
  rw [summary_of_validateProgram hvalid hitems hvs, Summary.mem_called_foldl_enter, not_or]
    at hcalled
  exact hcalled.2

/-- Every accepted program can be pruned, in a graph in which the environment is the same. -/
theorem exists_pruned (name : String) {p : Value} {tracing : Bool} {depth : Nat}
    (hvalid : (g.validateProgram tracing depth p).1 = .ok ()) (henv : g.AcceptsFunctions env) :
    ∃ g' p', PrunedProgram name g g' p p' ∧ SameEnv g g' env env := by
  obtain ⟨vs, ts, hitems, hts⟩ := exists_unfolds_of_validateProgram hvalid
  have hproper : ∀ t ∈ ts.map (·.prune name), t.IsProper :=
    List.forall_mem_map.mpr fun t ht =>
      (forall_of_forall₂ (Forall₂.flip hts) (fun t v hv => Unfolds.isProper hv) t ht).prune name
  obtain ⟨g', p', vs', hgrow, hitems', hvs'⟩ := Build.exists_program_of_isProper hproper g
  exact ⟨g', p', ⟨vs, vs', hitems, hitems',
    forall₂_exists_iff.mpr ⟨ts, hts, List.forall₂_map_right_iff.mp hvs'⟩⟩, henv.sameEnv hgrow⟩

end Graph

/-! ### Runs -/

/-- The relations between a run and the run without the definitions of the name: the name is not
called, and both print the same lines. If the runs are not traced they leave the same log. -/
def pruningRelations (name : String) (g g' : Graph) (tracing : Bool) : Relations where
  node := Graph.PrunedNode name g g'
  function := Graph.PrunedFunction name g g'
  read := Eq
  write := Eq
  call x x' := x = x' ∧ x ≠ name
  define := Eq
  env := Graph.PrunedEnv name g g'
  log log log' := Log.printed log = Log.printed log' ∧ (tracing = false → log = log')

namespace Host

variable {name : String} {h : Host} {g' : Graph} {v v' : Value} {form form' : Form}
  {ts : List Tree} {self self' : Value → Eval Int}

/-- The relations fit together for the steps of runs. -/
theorem pruning_support (name : String) (h : Host) (g' : Graph) :
    Support (pruningRelations name h.graph g' h.tracing) h { h with graph := g' } where
  signature := by
    intro F F' hF
    obtain ⟨ps, vs, vs', hsignature, hsignature', hvs⟩ := Graph.PrunedFunction.signature hF
    exact ⟨ps, ps, vs, vs', hsignature, hsignature', List.forall₂_same.mpr fun _ _ => rfl, hvs⟩
  value := by
    rintro env env' x _ henv rfl
    exact henv.values x
  function := by
    rintro env env' x _ henv ⟨rfl, hx⟩
    exact henv.functions x hx
  setVariable := by
    rintro env env' x _ n henv rfl
    exact henv.setVariable x n
  define := by
    rintro env env' x _ F F' henv rfl hF
    exact henv.define x hF
  trace := by
    rintro e e' log log' he ⟨hprinted, hsame⟩
    obtain ⟨he, he'⟩ := he.printedLine?_eq_none
    refine ⟨(Log.printed_ite_push he _ log).trans
      (hprinted.trans (Log.printed_ite_push he' _ log').symm), fun htracing => ?_⟩
    show (if h.tracing then log.push e else log) = if h.tracing then log'.push e' else log'
    rw [htracing]
    exact hsame htracing
  print := by
    rintro sink n log log' ⟨hprinted, hsame⟩
    exact ⟨Log.printed_push_congr hprinted _, fun htracing => by rw [hsame htracing]⟩
  nesting := rfl
  rounds := rfl

/-- Nodes that have stayed have forms that are alike. -/
theorem formLike_of_prunedRow {g : Graph} {tracing : Bool} (hform : g.HasForm v form)
    (hform' : g'.HasForm v' form') (hlabel : form.label = form'.label)
    (hcall : form.label ≠ .call name)
    (hrow : Graph.PrunedRow name g g' form.children form'.children ts) :
    (pruningRelations name g g' tracing).FormLike form form' := by
  refine Relations.formLike_of_labelLike ?_ hrow.nodes ?_
  · rw [← hlabel]
    refine Relations.labelLike_refl (fun _ _ => rfl) (fun _ => rfl) (fun x hx => ⟨rfl, ?_⟩)
      fun _ _ _ => rfl
    rintro rfl
    exact hcall hx
  · rintro x x' F F' ps ps' vs vs' rfl rfl
    cases hlabel
    exact hrow.function hform hform'

theorem evalNode_number {n : Int} (hform : h.graph.HasForm v (.number n)) (m : Machine) :
    h.evalNode self v m = .ok n { m with
      log := if h.tracing then m.log.push (.visited Kind.number.name) else m.log } := by
  rw [evalNode_of_hasForm hform]
  refine inContext_eq_ok fun context => ?_
  rw [Steps.bind_of_ok (trace_apply h _ _)]
  rfl

theorem evalNode_definition {x : String} {F : Callable} {ps : List String} {body : List Value}
    (hform : h.graph.HasForm v (.definition x F ps body)) (m : Machine) :
    h.evalNode self v m = .ok 0 { m with
      env := m.env.define x F
      log := if h.tracing then (m.log.push (.visited Kind.definition.name)).push (.defined x ps)
        else m.log } := by
  rw [evalNode_of_hasForm hform]
  refine inContext_eq_ok fun context => ?_
  rw [Steps.bind_of_ok (trace_apply h _ _), evalForm,
    Steps.bind_of_ok (show changeEnv _ _ = .ok () _ from rfl), Steps.bind_of_ok (trace_apply h _ _)]
  cases h.tracing <;> rfl

/-- **A definition of the name and a zero in its place** both give zero, and they differ only in
what is defined under the name and in what a trace shows. -/
theorem exists_ok_of_pruned {F : Callable} {ps : List String} {body : List Value} {m m' : Machine}
    (hform : h.graph.HasForm v (.definition name F ps body)) (hform' : g'.HasForm v' (.number 0))
    (hm : (pruningRelations name h.graph g' h.tracing).MachineLike m m') :
    ∃ m₁ m₁', h.evalNode self v m = .ok 0 m₁
      ∧ ({ h with graph := g' } : Host).evalNode self' v' m' = .ok 0 m₁'
      ∧ (pruningRelations name h.graph g' h.tracing).MachineLike m₁ m₁' := by
  have henv : Graph.PrunedEnv name h.graph g' m.env m'.env := hm.env
  obtain ⟨hprinted, hsame⟩ := hm.log
  refine ⟨_, _, evalNode_definition hform m, evalNode_number hform' m', henv.define_left F,
    hm.context, ?_, fun htracing => ?_⟩
  · cases h.tracing with
    | false => exact hprinted
    | true => simpa [Log.printed, List.filterMap_cons, Event.printedLine?] using hprinted
  · simpa [htracing] using hsame htracing

/-- **Nodes that differ by pruning are evaluated alike**, to any depth. -/
theorem alike_eval_pruned (depth : Nat) (v v' : Value)
    (hv : Graph.PrunedNode name h.graph g' v v') :
    (pruningRelations name h.graph g' h.tracing).Alike (· = ·) (h.eval depth v)
      (({ h with graph := g' } : Host).eval depth v') := by
  refine Relations.alike_eval (fun self self' hself v v' hv => ?_) depth v v' hv
  rcases Graph.PrunedNode.forms hv with
    ⟨form, form', ts, hform, hform', hlabel, hcall, hrow⟩ | ⟨F, ps, body, hform, hform'⟩
  · exact (pruning_support name h g').alike_evalNode hself hform hform'
      (formLike_of_prunedRow hform hform' hlabel hcall hrow)
  · intro m m' hm
    obtain ⟨m₁, m₁', hrun, hrun', hm₁⟩ := exists_ok_of_pruned hform hform' hm
    rw [hrun, hrun']
    exact ⟨rfl, hm₁⟩

/-- Statements that differ by pruning run alike, if there is room for any evaluation at all. -/
theorem alike_runStatement_pruned (hnesting : 0 < h.nesting) (index : Nat) (v v' : Value)
    (hv : Graph.PrunedNode name h.graph g' v v') :
    (pruningRelations name h.graph g' h.tracing).Alike (· = ·) (h.runStatement index v)
      (({ h with graph := g' } : Host).runStatement index v') := by
  rcases Graph.PrunedNode.forms hv with
    ⟨form, form', ts, hform, hform', hlabel, hcall, hrow⟩ | ⟨F, ps, body, hform, hform'⟩
  · exact (pruning_support name h g').alike_runStatement index hform hform'
      (formLike_of_prunedRow hform hform' hlabel hcall hrow) (alike_eval_pruned h.nesting v v' hv)
  · intro m m' hm
    have hok : ∀ depth, 0 < depth → ∃ m₁ m₁', h.eval depth v m = .ok 0 m₁
        ∧ ({ h with graph := g' } : Host).eval depth v' m' = .ok 0 m₁'
        ∧ (pruningRelations name h.graph g' h.tracing).MachineLike m₁ m₁' := by
      intro depth hdepth
      obtain ⟨depth, rfl⟩ : ∃ d, depth = d + 1 := ⟨depth - 1, by omega⟩
      exact exists_ok_of_pruned hform hform' hm
    obtain ⟨m₁, m₁', hrun, hrun', hm₁⟩ := hok h.nesting hnesting
    rw [runStatement_apply, runStatement_apply, hrun, hrun']
    exact ⟨rfl, hm₁⟩

/-- Programs that differ by pruning run alike, if there is room for the evaluation of a statement or
no statement at all. -/
theorem alike_runProgram_pruned {p p' : Value} {vs vs' : List Value}
    (hitems : h.graph.items p = .ok vs) (hitems' : g'.items p' = .ok vs')
    (hvs : Forall₂ (Graph.PrunedNode name h.graph g') vs vs') (hroom : 0 < h.nesting ∨ vs = []) :
    (pruningRelations name h.graph g' h.tracing).Alike (· = ·) (h.runProgram p)
      (({ h with graph := g' } : Host).runProgram p') := by
  rw [runProgram_eq hitems, runProgram_eq (h := { h with graph := g' }) hitems']
  refine Relations.Alike.inContext ?_
  rcases hroom with hnesting | rfl
  · exact Relations.alike_runStatements
      (fun index v v' hv => alike_runStatement_pruned hnesting index v v' hv) hvs 0
  · cases hvs
    exact Relations.alike_pure rfl

/-- Without room for any evaluation the first statement fails at once. -/
theorem yields_of_no_room {p : Value} {vs : List Value} (hnesting : h.nesting = 0)
    (hitems : h.graph.items p = .ok (v :: vs)) (hform : h.graph.HasForm v form) (m : Machine) :
    h.Yields p m
      ⟨.error (.failure ⟨.nestedTooDeep 0 (.text form.kind.name), some 0⟩), m⟩ := by
  have hfirst : ∀ m, h.runStatements 0 (v :: vs) m
      = .error (.failure ⟨.nestedTooDeep 0 (.text form.kind.name), some 0⟩) m := by
    intro m
    have hstatement : h.runStatement 0 v m
        = .error (.failure ⟨.nestedTooDeep 0 (.text form.kind.name), some 0⟩) m := by
      rw [runStatement_apply, hnesting, eval_zero, Steps.throw_apply]
      simp only [blamed_tooDeep hform, hnesting]
    exact Steps.bind_of_error hstatement
  have hrun : h.outcomeWithin h.rounds p m
      = ⟨.error (.failure ⟨.nestedTooDeep 0 (.text form.kind.name), some 0⟩), m⟩ := by
    show (h.runProgram p).carryOut m = _
    rw [runProgram_eq hitems, carryOut, inContext_eq_error fun context => hfirst _]
  exact yields_of_outcomeWithin hrun (by simp)

/-- **Definitions of functions that are never called can be dropped.** Take a program that
validation accepts, a name that its summary does not list among the called functions, and an
environment whose functions pass validation and do not call the name. The program can be pruned:
every definition of the name, however deep it stands, is replaced by a zero. In an environment that
is the same, in the same context or without one, the pruned program either comes to no end as the
program does, or the two come to ends that tell the same: the same values, or failures of one kind,
with one message, one name and at one statement. The contexts at the end are the same, the same
lines have been printed, and untraced runs leave the same log. All variables have the same values,
and all other names have the same functions, up to pruning. -/
theorem runProgram_pruning (name : String) (h : Host) (p : Value) (m : Machine) (tracing : Bool)
    (depth : Nat) (hvalid : (h.graph.validateProgram tracing depth p).1 = .ok ())
    (hcalled : name ∉ (h.graph.validateProgram tracing depth p).2.summary.called)
    (hfunctions : ∀ x F, m.env.function? x = some F → h.graph.AcceptsFunction F)
    (hbodies : ∀ x F ps ts, m.env.function? x = some F → h.graph.FunctionUnfolds ps ts F →
      .call name ∉ Tree.labelsOfAll ts) :
    (∃ g' p', Graph.PrunedProgram name h.graph g' p p' ∧ Graph.SameEnv h.graph g' m.env m.env)
    ∧ ∀ g' p' env', Graph.PrunedProgram name h.graph g' p p' →
      Graph.SameEnv h.graph g' m.env env' →
      (h.Diverges p m ∧ ({ h with graph := g' } : Host).Diverges p' { m with env := env' })
      ∨ ∃ o o', h.Yields p m o ∧ ({ h with graph := g' } : Host).Yields p' { m with env := env' } o'
        ∧ ((∃ xs, o.result = .ok xs ∧ o'.result = .ok xs)
          ∨ ∃ e e', o.result = .error (.failure e) ∧ o'.result = .error (.failure e')
            ∧ e.failure.kind = e'.failure.kind
            ∧ e.failure.message h.graph = e'.failure.message g'
            ∧ e.failure.identifier? = e'.failure.identifier? ∧ e.statement = e'.statement)
        ∧ o.machine.context = o'.machine.context
        ∧ Log.printed o.machine.log = Log.printed o'.machine.log
        ∧ (h.tracing = false → o.machine.log = o'.machine.log)
        ∧ (∀ x, o.machine.env.value? x = o'.machine.env.value? x)
        ∧ ∀ x, x ≠ name → Option.Rel (Graph.PrunedFunction name h.graph g')
          (o.machine.env.function? x) (o'.machine.env.function? x) := by
  refine ⟨Graph.exists_pruned name hvalid hfunctions, fun g' p' env' hprogram henv => ?_⟩
  obtain ⟨vs, vs', hitems, hitems', hvs⟩ := hprogram
  obtain ⟨ts, hts, hts'⟩ := forall₂_exists_iff.mp hvs
  have hrow : Graph.PrunedRow name h.graph g' vs vs' ts :=
    ⟨hts, .inr (List.forall₂_map_right_iff.mpr hts'),
      Graph.not_mem_labels_of_validateProgram hvalid hcalled hitems hts⟩
  have hstart : Graph.PrunedEnv name h.graph g' m.env env' := henv.prunedEnv hbodies
  have hnodes := hrow.nodes
  by_cases hroom : 0 < h.nesting ∨ vs = []
  · have halike : ∀ rounds, (pruningRelations name h.graph g' h.tracing).Alike (· = ·)
        (({ h with rounds := rounds } : Host).runProgram p)
        (({ h with graph := g', rounds := rounds } : Host).runProgram p') :=
      fun rounds => alike_runProgram_pruned (h := { h with rounds := rounds }) hitems hitems'
        hnodes hroom
    have hmachine : (pruningRelations name h.graph g' h.tracing).MachineLike m
        { m with env := env' } := ⟨hstart, rfl, rfl, fun _ => rfl⟩
    rcases Relations.diverges_or_yields h { h with graph := g' } halike hmachine with
      hdiverge | ⟨o, o', hy, hy', hlike⟩
    · exact .inl hdiverge
    have hend : Graph.PrunedEnv name h.graph g' o.machine.env o'.machine.env := hlike.machine.env
    obtain ⟨hprinted, hsame⟩ := hlike.machine.log
    refine .inr ⟨o, o', hy, hy', ?_, hlike.machine.context, hprinted, hsame, hend.values,
      hend.functions⟩
    rcases hlike.values_or_failures fun halt => exists_failure_of_yields hvalid hfunctions hy with
      hvalues | ⟨e, e', he, he', hfailure, hstatement⟩
    · exact .inl hvalues
    · have hread : ∀ x x' : String, x = x' → x = x' := fun _ _ => id
      have hcall : ∀ x x' : String, x = x' ∧ x ≠ name → x = x' := fun _ _ hx => hx.1
      obtain ⟨hkind, -, -, hidentifier⟩ := hfailure.tells_same hread hcall h.graph
      exact .inr ⟨e, e', he, he', hkind, hfailure.message_eq hread hcall h.graph g', hidentifier,
        hstatement⟩
  · -- both fail at their first statements, which need not have the same tag
    rw [not_or, Nat.pos_iff_ne_zero, not_not] at hroom
    obtain ⟨hnesting, hsome⟩ := hroom
    cases hts with
    | nil => exact absurd rfl hsome
    | cons hv _ =>
      cases hts' with
      | cons hv' _ =>
        obtain ⟨form, hform⟩ := hv.wellFormed.hasForm
        obtain ⟨form', hform'⟩ := hv'.wellFormed.hasForm
        refine .inr ⟨_, _, yields_of_no_room hnesting hitems hform m,
          yields_of_no_room (h := { h with graph := g' }) hnesting hitems' hform' _,
          .inr ⟨_, _, rfl, rfl, rfl, rfl, rfl, rfl⟩, rfl, rfl, fun _ => rfl, hstart.values,
          hstart.functions⟩

/-- A program that defines `g` and `f`, which defines `g` again, and calls `f`; and the same
without the definitions of `g`. -/
def callsOnlyF : Graph where
  objects := #[
    .record ⟨[("type", .text "NUMBER"), ("value", .int 4)]⟩, .tuple [], .tuple [.ref 0],
    .record ⟨[("name", .text "g"), ("params", .ref 1), ("body", .ref 2)]⟩,
    .record ⟨[("type", .text "FUNCTION_DEF"), ("value", .ref 3)]⟩, .tuple [.ref 4, .ref 0],
    .record ⟨[("name", .text "f"), ("params", .ref 1), ("body", .ref 5)]⟩,
    .record ⟨[("type", .text "FUNCTION_DEF"), ("value", .ref 6)]⟩,
    .record ⟨[("name", .text "f"), ("args", .ref 1)]⟩,
    .record ⟨[("type", .text "FUNCTION_CALL"), ("value", .ref 8)]⟩,
    .list [.ref 4, .ref 7, .ref 9],
    .record ⟨[("type", .text "NUMBER"), ("value", .int 0)]⟩, .tuple [.ref 11, .ref 0],
    .record ⟨[("name", .text "f"), ("params", .ref 1), ("body", .ref 12)]⟩,
    .record ⟨[("type", .text "FUNCTION_DEF"), ("value", .ref 13)]⟩,
    .list [.ref 11, .ref 14, .ref 9],
    .record ⟨[("params", .ref 1), ("body", .ref 2)]⟩,
    .record ⟨[("type", .text "FUNCTION"), ("value", .ref 16)]⟩]

/-- A machine with a function that gives four and is never called. -/
def hasFour : Machine where
  env := { values := ⟨[("x", 1)]⟩, functions := ⟨[("four", .given (.ref 17))]⟩ }

theorem callsOnlyF_unfolds_four : callsOnlyF.Unfolds (.ref 0) (.node (.number 4) []) :=
  Graph.unfolds_node_iff.mpr ⟨.number 4, ⟨.int 4, rfl, rfl⟩, rfl, .nil⟩

/-- The function calls nothing. -/
theorem not_mem_labels_hasFour {x : String} {F : Callable} {ps : List String} {ts : List Tree}
    (hF : hasFour.env.function? x = some F) (hunfolds : callsOnlyF.FunctionUnfolds ps ts F) :
    .call "g" ∉ Tree.labelsOfAll ts := by
  have hfunction : callsOnlyF.Unfolds (.ref 17) (.node (.function []) [.node (.number 4) []]) :=
    Graph.unfolds_node_iff.mpr ⟨.function [] [.ref 0],
      ⟨.ref 16, rfl, ⟨⟨.ref 1, rfl, rfl, rfl⟩, nofun⟩, .ref 2, rfl, rfl, rfl⟩, rfl,
      .cons callsOnlyF_unfolds_four .nil⟩
  change (if x = "four" then some (Callable.given (.ref 17)) else none) = some F at hF
  split at hF
  · cases hF
    cases Graph.Unfolds.eq hfunction hunfolds
    simp [Tree.labelsOfAll, Tree.labels]
  · cases hF

theorem callsOnlyF_prunedProgram :
    Graph.PrunedProgram "g" callsOnlyF callsOnlyF (.ref 10) (.ref 15) := by
  have hfour := callsOnlyF_unfolds_four
  have hzero : callsOnlyF.Unfolds (.ref 11) (.node (.number 0) []) :=
    Graph.unfolds_node_iff.mpr ⟨.number 0, ⟨.int 0, rfl, rfl⟩, rfl, .nil⟩
  have hcall : callsOnlyF.Unfolds (.ref 9) (.node (.call "f") []) :=
    Graph.unfolds_node_iff.mpr ⟨.call "f" [],
      ⟨.ref 8, rfl, ⟨rfl, by decide⟩, .ref 1, rfl, rfl, rfl⟩, rfl, .nil⟩
  have hdefinition : ∀ {v b payload : Value} {x : String} {body : List Value} {ts : List Tree},
      callsOnlyF.node? v = some ("FUNCTION_DEF", payload) →
      callsOnlyF.HoldsName payload "name" x → callsOnlyF.field payload "params" = .ok (.ref 1) →
      callsOnlyF.field payload "body" = .ok b → callsOnlyF.IsSequenceOf b body →
      Forall₂ callsOnlyF.Unfolds body ts →
      callsOnlyF.Unfolds v (.node (.definition x []) ts) := by
    intro v b payload x body ts hnode hname hparams hbody hitems hts
    exact Graph.unfolds_node_iff.mpr ⟨.definition x (.defined (.ref 1) b) [] body,
      ⟨payload, hnode, hname, ⟨.ref 1, b, hparams, hbody, rfl⟩,
        Graph.hasSignature_defined_iff.mpr ⟨⟨rfl, rfl⟩, nofun, hitems⟩⟩, rfl, hts⟩
  have hg := hdefinition (v := .ref 4) rfl ⟨rfl, by decide⟩ rfl rfl ⟨rfl, rfl⟩ (.cons hfour .nil)
  have hf := hdefinition (v := .ref 7) rfl ⟨rfl, by decide⟩ rfl rfl ⟨rfl, rfl⟩
    (.cons hg (.cons hfour .nil))
  have hf' := hdefinition (v := .ref 14) rfl ⟨rfl, by decide⟩ rfl rfl ⟨rfl, rfl⟩
    (.cons hzero (.cons hfour .nil))
  exact ⟨[.ref 4, .ref 7, .ref 9], [.ref 11, .ref 14, .ref 9], rfl, rfl,
    .cons ⟨_, hg, hzero⟩ (.cons ⟨_, hf, hf'⟩ (.cons ⟨_, hcall, hcall⟩ .nil))⟩

/-- Both programs run alike, though only the first leaves a function under `g`. -/
theorem callsOnlyF_pruning :
    ((callsOnlyF.validateProgram false 9 (.ref 10)).1 = .ok ()
      ∧ "g" ∉ (callsOnlyF.validateProgram false 9 (.ref 10)).2.summary.called
      ∧ (∀ x F, hasFour.env.function? x = some F → callsOnlyF.AcceptsFunction F)
      ∧ ∀ x F ps ts, hasFour.env.function? x = some F →
        callsOnlyF.FunctionUnfolds ps ts F → .call "g" ∉ Tree.labelsOfAll ts)
    ∧ Graph.PrunedProgram "g" callsOnlyF callsOnlyF (.ref 10) (.ref 15)
    ∧ ∃ o o', (⟨callsOnlyF, false, 9, 9, 9⟩ : Host).Yields (.ref 10) hasFour o
      ∧ (⟨callsOnlyF, false, 9, 9, 9⟩ : Host).Yields (.ref 15) hasFour o'
      ∧ o.machine.context = o'.machine.context ∧ o.machine.log = o'.machine.log
      ∧ ∀ x, x ≠ "g" → Option.Rel (Graph.PrunedFunction "g" callsOnlyF callsOnlyF)
        (o.machine.env.function? x) (o'.machine.env.function? x) := by
  have hvalid : (callsOnlyF.validateProgram false 9 (.ref 10)).1 = .ok () := by decide
  have hcalled : "g" ∉ (callsOnlyF.validateProgram false 9 (.ref 10)).2.summary.called := by decide
  have hfunctions : ∀ x F, hasFour.env.function? x = some F →
      callsOnlyF.AcceptsFunction F :=
    Graph.AcceptsFunctions.singleton ⟨.ref 17, callsOnlyF, rfl, ⟨.ref 16, by decide⟩, 3, by decide⟩
  have hbodies : ∀ x F ps ts, hasFour.env.function? x = some F →
      callsOnlyF.FunctionUnfolds ps ts F → .call "g" ∉ Tree.labelsOfAll ts :=
    fun _ _ _ _ => not_mem_labels_hasFour
  refine ⟨⟨hvalid, hcalled, hfunctions, hbodies⟩, callsOnlyF_prunedProgram, ?_⟩
  rcases (runProgram_pruning "g" ⟨callsOnlyF, false, 9, 9, 9⟩ (.ref 10) hasFour false 9 hvalid
    hcalled hfunctions hbodies).2 callsOnlyF (.ref 15) hasFour.env callsOnlyF_prunedProgram
    (Graph.AcceptsFunctions.sameEnv hfunctions (.refl _)) with
    hdiverge | ⟨o, o', hy, hy', -, hcontext, -, hlog, -, hagree⟩
  · -- the program has no loops, so that it comes to an end at once
    exact absurd (hdiverge.1 9) (by decide +kernel)
  · exact ⟨o, o', hy, hy', hcontext, hlog rfl, hagree⟩

end Host

end Treewalk
