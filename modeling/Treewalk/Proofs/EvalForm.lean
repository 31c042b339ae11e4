import Treewalk.Evaluation.Program
import Treewalk.Proofs.Form

/-!
## What a node of a given form does

The evaluator reads the fields of a node when it needs them. For a node that has a form all
these readings succeed, and what is left is the rule of the form: `Host.evalForm` says it in
terms of names and lists of children, and `Host.callFunction` says it for a call of a function
whose parameters and body can be read.

The rules are those of the integers, for which nothing stands in the way of writing a value or
a name out.

* `compute_eq_attempt`, `compare_eq_pure`: what the operators do with integers.
* `evalNode_of_hasForm`: a node does what its form says, after it has been shown.
* `apply_of_hasSignature`: a function that can be read is called by the rule for calls.
-/

namespace Treewalk

open Eval

/-! ### The rules -/

/-- Binds names to values, one after the other, as far as there are both. -/
def Env.bindAll (env : Env) : List String → List Int → Env
  | name :: names, x :: xs => (env.setVariable name x).bindAll names xs
  | _, _ => env

namespace Host

variable (h : Host) (self : Value → Eval Int)

/-- The rounds of a loop with the given statements. -/
def evalRounds (condition : Value) (body : List Value) : Nat → Eval Int
  | 0 => throw .unfinished
  | rounds + 1 => do
    checkpoint Kind.loop.name
    let test ← self condition
    if test = 0 then pure 0
    else
      evalEach self body
      evalRounds condition body rounds

/-- The call of a function that has been looked up, with its parts read when they are needed. -/
def apply (name : String) (function : Callable) (args : List Value) : Eval Int := do
  let params ← read (function.params h.graph)
  let expected ← read (h.graph.length params)
  if args.length ≠ expected then fail (.arityMismatch (.text name) expected args.length)
  else
    let values ← evalAll self args
    let params ← h.items params
    bindAll h.bindingKey params values
    h.traceCall (.text name) params values
    h.runBody self (function.body h.graph)

/-- The call of a function with the given parameters and statements. -/
def callFunction (name : String) (params : List String) (body args : List Value) : Eval Int :=
  if args.length ≠ params.length then
    fail (.arityMismatch (.text name) params.length args.length)
  else do
    let values ← evalAll self args
    changeEnv (·.bindAll params values)
    trace h (.called name (params.zip values))
    inContext (evalBody self 0 body)

/-- **What a node of a given form does**, given a way `self` to evaluate its children. -/
def evalForm : Form → Eval Int
  | .number n => pure n
  | .lookup name => h.valueOf (.text name)
  | .assignment name expr => do
    let value ← self expr
    changeEnv (·.setVariable name value)
    trace h (.assigned name value)
    pure value
  | .arithmetic op left right => do
    let x ← self left
    let y ← self right
    attempt (op.compute x y)
  | .comparison op left right => do
    let x ← self left
    let y ← self right
    pure (op.apply x y)
  | .conditional condition body => do
    let test ← self condition
    if test ≠ 0 then self body else pure 0
  | .alternative condition body otherwise => do
    let test ← self condition
    if test ≠ 0 then self body else self otherwise
  | .loop condition body => inContext (evalRounds self condition body h.rounds)
  | .print expr => inContext do print (← self expr)
  | .definition name function params _ => do
    changeEnv (·.define name function)
    trace h (.defined name params)
    pure 0
  | .function _ body => inContext (evalBody self 0 body)
  | .call name args => do
    h.apply self name (← h.functionOf (.text name)) args

variable {h self} {v payload : Value} {form : Form} {items body : List Value}
  {names : List String} {function : Callable}

/-! ### Texts and integers -/

theorem bindingKey_text (name : String) : h.bindingKey (.text name) = pure name := by
  rw [bindingKey, Domain.bindingKey_text, read_ok]

theorem plain_text (s : String) : h.plain (.text s) = pure s := by
  rw [plain, Graph.isWritable_text, if_pos rfl, Graph.plain_text]

theorem checkRoom_eq_pure (x : Int) : h.checkRoom x = pure () := rfl

theorem failNaming_text {α : Type} (name : String) (f : Failure) :
    (h.failNaming (.text name) f : Eval α) = fail f := by
  rw [failNaming, Graph.isWritable_text, if_pos rfl]

/-- **Arithmetic on integers** fails when it divides by zero, and only then. -/
theorem compute_eq_attempt (op : Arithmetic) (x y : Int) :
    h.compute op x y = attempt (op.compute x y) := by
  rw [Host.compute, operate_ok, pure_bind, Arithmetic.compute]
  cases op.apply x y with
  | some value => rfl
  | none => rw [checkRoom_eq_pure, pure_bind]; rfl

theorem compare_eq_pure (op : Comparison) (x y : Int) :
    (compare op x y : Eval Int) = pure (op.apply x y) := by
  rw [compare, operate_ok, pure_bind]
  rfl

theorem traceVisit_text (tag : String) : h.traceVisit (.text tag) = trace h (.visited tag) := by
  rw [traceVisit, plain_text, pure_bind]
  rfl

theorem traceAssignment_text (name : String) (x : Int) :
    h.traceAssignment (.text name) x = trace h (.assigned name x) := by
  rw [traceAssignment, plain_text, pure_bind, checkRoom_eq_pure, pure_bind]
  rfl

theorem shownBindings_map_text (names : List String) (xs : List Int) :
    shownBindings h.plain h.checkRoom (names.map .text) xs = pure (names.zip xs) := by
  induction names generalizing xs with
  | nil => rfl
  | cons name names ih =>
    cases xs with
    | nil => rfl
    | cons x xs =>
      rw [List.map_cons, shownBindings, plain_text, pure_bind, checkRoom_eq_pure, pure_bind, ih,
        pure_bind, List.zip_cons_cons]

theorem traceCall_text (name : String) (names : List String) (xs : List Int) :
    h.traceCall (.text name) (names.map .text) xs = trace h (.called name (names.zip xs)) := by
  rw [traceCall, shownBindings_map_text, pure_bind, plain_text, pure_bind]
  rfl

theorem bindAll_map_text (names : List String) (xs : List Int) :
    bindAll h.bindingKey (names.map .text) xs = changeEnv (·.bindAll names xs) := by
  induction names generalizing xs with
  | nil => rfl
  | cons name names ih =>
    cases xs with
    | nil => rfl
    | cons x xs =>
      rw [List.map_cons, bindAll, bindingKey_text, pure_bind, ih]
      rfl

theorem names_map_text (names : List String) : Value.names (names.map .text) = .ok names := by
  induction names with
  | nil => rfl
  | cons name names ih => simp [Value.names, Value.name, ih, bind, Except.bind, pure, Except.pure]

/-! ### Readings that succeed -/

theorem items_eq_pure (hitems : h.graph.IsSequenceOf v items) : h.items v = pure items := by
  rw [Host.items, hitems.2, read_ok]

theorem length_eq_ok (hitems : h.graph.IsSequenceOf v items) :
    h.graph.length v = .ok items.length := by
  rw [Graph.length, hitems.2]
  rfl

theorem traceDefinition_text (name : String)
    (hitems : h.graph.IsSequenceOf v (names.map .text)) :
    h.traceDefinition (.text name) v = trace h (.defined name names) := by
  rw [traceDefinition, items_eq_pure hitems, pure_bind, names_map_text, read_ok, pure_bind,
    plain_text, pure_bind]
  rfl

theorem iterate_eq_evalRounds (condition : Value) (hitems : h.graph.IsSequenceOf v body)
    (rounds : Nat) : h.iterate self condition v rounds
      = evalRounds self condition body rounds := by
  induction rounds with
  | zero => rfl
  | succ rounds ih =>
    rw [iterate, evalRounds, items_eq_pure hitems]
    -- a condition holds if it is not zero
    simp only [pure_bind, ih, bne_iff_ne, ne_eq, ite_not]

theorem runBody_eq (hitems : h.graph.IsSequenceOf v body) :
    h.runBody self (.ok v) = inContext (evalBody self 0 body) := by
  rw [runBody, read_ok, pure_bind, items_eq_pure hitems, pure_bind]

/-- **A function that can be read is called by the rule for calls.** -/
theorem apply_of_hasSignature (name : String) (args : List Value)
    (hsignature : h.graph.HasSignature function names body) :
    h.apply self name function args = h.callFunction self name names body args := by
  obtain ⟨⟨ps, hparams, hnames⟩, -, bs, hbody, hstatements⟩ := hsignature
  rw [apply, hparams, read_ok, pure_bind, length_eq_ok hnames, read_ok, pure_bind,
    List.length_map, items_eq_pure hnames, hbody, runBody_eq hstatements, callFunction]
  simp only [pure_bind, bindAll_map_text, traceCall_text]

/-! ### Nodes -/

theorem evalKind_of_carries (hpayload : h.graph.payload v = .ok payload)
    (hcarries : h.graph.Carries payload form) :
    h.evalKind self form.kind v = h.evalForm self form := by
  have hread : h.payload v = pure payload := by rw [Host.payload, hpayload, read_ok]
  cases form with
  | number n =>
    cases hcarries
    show h.evalNumber v = _
    rw [evalNumber, hread, pure_bind]
    rfl
  | lookup name =>
    obtain ⟨rfl, -⟩ := hcarries
    show h.evalLookup v = _
    rw [evalLookup, hread, pure_bind]
    rfl
  | assignment name expr =>
    obtain ⟨⟨hname, -⟩, hexpr, -⟩ := hcarries
    show h.evalAssignment self v = _
    rw [evalAssignment, hread]
    simp only [field, hname, hexpr, read_ok, pure_bind, bindingKey_text, traceAssignment_text]
    rfl
  | arithmetic op left right =>
    obtain ⟨hop, ⟨hleft, -⟩, hright, -⟩ := hcarries
    show h.evalArithmetic self v = _
    -- the symbol of an operator is that of no other
    rw [evalArithmetic, evalOperands, hread]
    simp only [field, hop, hleft, hright, read_ok, pure_bind, bind_assoc, Graph.lookUp?_text,
      Arithmetic.ofSymbol?_symbol, compute_eq_attempt]
    rfl
  | comparison op left right =>
    obtain ⟨hop, ⟨hleft, -⟩, hright, -⟩ := hcarries
    show h.evalComparison self v = _
    rw [evalComparison, evalOperands, hread]
    simp only [field, hop, hleft, hright, read_ok, pure_bind, bind_assoc, Graph.lookUp?_text,
      Comparison.ofSymbol?_symbol, compare_eq_pure]
    rfl
  | conditional condition body =>
    obtain ⟨⟨hcondition, -⟩, hbody, -⟩ := hcarries
    show h.evalConditional self v = _
    rw [evalConditional, hread]
    simp only [field, hcondition, hbody, read_ok, pure_bind, bne_iff_ne]
    rfl
  | alternative condition body otherwise =>
    obtain ⟨⟨hcondition, -⟩, ⟨hbody, -⟩, hotherwise, -⟩ := hcarries
    show h.evalAlternative self v = _
    rw [evalAlternative, hread]
    simp only [field, hcondition, hbody, hotherwise, read_ok, pure_bind, bne_iff_ne]
    rfl
  | loop condition body =>
    obtain ⟨⟨hcondition, -⟩, b, hbody, hitems⟩ := hcarries
    show h.evalLoop self v = _
    rw [evalLoop, hread]
    simp only [field, hcondition, hbody, read_ok, pure_bind, iterate_eq_evalRounds _ hitems]
    rfl
  | print expr =>
    obtain ⟨rfl, -⟩ := hcarries
    show h.evalPrint self v = _
    rw [evalPrint, hread]
    simp only [pure_bind, checkRoom_eq_pure]
    rfl
  | definition name function params body =>
    obtain ⟨⟨hname, -⟩, ⟨p, b, hparams, hbody, rfl⟩, ⟨ps, hps, hitems⟩, -⟩ := hcarries
    cases hps
    show h.evalDefinition v = _
    rw [evalDefinition, hread]
    simp only [field, hname, hparams, hbody, read_ok, pure_bind, bindingKey_text,
      traceDefinition_text name hitems]
    rfl
  | function params body =>
    obtain ⟨-, b, hbody, hitems⟩ := hcarries
    have hread : (Callable.given v).body h.graph = .ok b := by
      rw [Callable.body, hpayload]
      exact hbody
    show h.evalFunction self v = _
    rw [evalFunction, hread, runBody_eq hitems]
    rfl
  | call name args =>
    obtain ⟨⟨hname, -⟩, a, hargs, hitems⟩ := hcarries
    show h.evalCall self v = _
    rw [evalCall, hread]
    simp only [field, hname, hargs, read_ok, pure_bind, length_eq_ok hitems, items_eq_pure hitems,
      failNaming_text]
    rfl

/-- **A node does what its form says**, in a context and after it has been shown. -/
theorem evalNode_of_hasForm (hform : h.graph.HasForm v form) :
    h.evalNode self v
      = inContext (do trace h (.visited form.kind.name); h.evalForm self form) := by
  obtain ⟨payload, hnode, hcarries⟩ := hform
  have hpayload := Graph.payload_of_node? hnode
  have htype : h.field v "type" = pure (.text form.kind.name) := by
    rw [Host.field, Graph.field_type_of_node? hnode, read_ok]
  rw [evalNode, htype, pure_bind, traceVisit_text]
  simp only [Value.text?, Option.bind_some, Kind.ofName?_name,
    evalKind_of_carries hpayload hcarries]

end Host

end Treewalk
