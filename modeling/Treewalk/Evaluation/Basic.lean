import Treewalk.Evaluation.Machine
import Treewalk.Node.Basic
import Treewalk.Node.Operator

/-!
## Evaluation

Evaluating a node gives a value of the domain, and works on the machine of the run on the way.
Nodes are taken as they come: a field is read when it is needed, and a field that is missing or
unfit is a fault at that moment and not before. So what a malformed node does until its
fault takes effect depends on the order of the readings, and that order is part of the
definitions here.

* Operands are evaluated from left to right, and the operator is looked at last.
* A condition holds if its value counts as true. One branch of a conditional is evaluated, or
  none.
* A loop passes a checkpoint before every test of its condition, and yields zero.
* A call looks up its function, compares the number of arguments with the number of
  parameters, evaluates the arguments from left to right, binds all parameters in the one
  table of variables, and runs the body of the function that it found. A function body
  passes a checkpoint before each of its statements and yields the value of the last one,
  or zero if there is none.
* Printing yields zero, a definition yields zero, and an assignment yields the value.
* A literal stands for what the domain takes it for, and a name may be whatever the domain
  binds something under.
* A name, an operator or a tag that is not known may be any value. It is written out for the
  message. Tags, names and values are written out for trace lines, and values for printed
  lines. A value that nests too deep for that ends the run just as evaluations do that nest
  too deep.

The definitions come in two layers. `evalKind` says what a node of each kind does, given a
way `self` to evaluate nodes; `eval` ties the knot, at most `depth` evaluations inside each
other.

* `valueOf_text`, `functionOf_text`: a lookup of a name reads the environment and leaves
  the machine alone, whether it succeeds or not.
-/

namespace Treewalk

namespace Host

open Eval

variable {D : Domain} (h : Host D)

/-! ### Readings -/

/-- The payload of a node. -/
def payload (v : Value) : Eval Value D :=
  read (h.graph.payload v)

/-- A field of a record. -/
def field (v : Value) (key : String) : Eval Value D :=
  read (h.graph.field v key)

/-- What one meets on the way through a value. -/
def items (v : Value) : Eval (List Value) D :=
  read (h.graph.items v)

/-- The key under which something is bound by a name. -/
def bindingKey (name : Value) : Eval D.Key D :=
  read (D.bindingKey h.graph name)

/-- Looks a name up among what is bound. -/
def lookUp {α : Type} (find : D.Key → Option α) (name : Value) : Eval (Option α) D :=
  read (h.graph.lookUpBy D.key? find name)

/-! ### Writing values out -/

/-- The plain form of a value, if it does not nest too deep for being written out. -/
def plain (v : Value) : Eval String D :=
  if h.graph.isWritable h.writing v then pure (h.graph.plain v) else throw .tooDeep

/-- Passes if a value of the domain does not nest too deep for being written out. -/
def checkRoom (x : D.Val) : Eval Unit D :=
  if D.isWritable h.writing x then pure () else throw .tooDeep

/-- Ends the run with an objection to a node, if the objection can be worded. -/
def objectTo {α : Type} (issue : Issue) (node : Value) : Eval α D :=
  if issue.quoted?.all (h.graph.isWritable h.writing) then object issue node
  else throw .tooDeep

/-- Ends the run with a failure about a name, if the name can be written out. -/
def failNaming {α : Type} (name : Value) (f : Failure D) : Eval α D :=
  if h.graph.isWritable h.writing name then fail f else throw .tooDeep

/-- Shows the tag of a node if the run is traced. -/
def traceVisit (tag : Value) : Eval Unit D :=
  if h.tracing then do emit (.visited (← h.plain tag)) else pure ()

/-- Shows an assignment if the run is traced. -/
def traceAssignment (name : Value) (value : D.Val) : Eval Unit D :=
  if h.tracing then do
    let name ← h.plain name
    h.checkRoom value
    emit (.assigned name value)
  else pure ()

/-- Shows a definition with the names of its parameters if the run is traced. -/
def traceDefinition (name params : Value) : Eval Unit D :=
  if h.tracing then do
    let params ← h.items params
    let names ← read (Value.names params)
    emit (.defined (← h.plain name) names)
  else pure ()

/-- Parameters as they are written out, with what is bound to them. -/
def shownBindings (write : Value → Eval String D) (check : D.Val → Eval Unit D) :
    List Value → List D.Val → Eval (List (String × D.Val)) D
  | param :: params, x :: xs => do
    let name ← write param
    check x
    let rest ← shownBindings write check params xs
    pure ((name, x) :: rest)
  | _, _ => pure []

/-- Shows a call with its bindings if the run is traced. -/
def traceCall (name : Value) (params : List Value) (values : List D.Val) : Eval Unit D :=
  if h.tracing then do
    let bindings ← shownBindings h.plain h.checkRoom params values
    emit (.called (← h.plain name) bindings)
  else pure ()

/-! ### Bindings -/

/-- The value of a variable, which has to be bound. -/
def valueOf (name : Value) : Eval D.Val D := do
  let env ← env
  match ← h.lookUp env.value? name with
  | some value => pure value
  | none => h.failNaming name (.undefinedVariable name env)

/-- The function of a name, which has to have one. -/
def functionOf (name : Value) : Eval Callable D := do
  let env ← env
  match ← h.lookUp env.function? name with
  | some function => pure function
  | none => h.failNaming name (.undefinedFunction name env)

/-- Is there a variable of that name, and is there a function? -/
def presence (name : Value) : Eval (Bool × Bool) D := do
  let env ← env
  let value ← h.lookUp env.value? name
  let function ← h.lookUp env.function? name
  pure (value.isSome, function.isSome)

/-! ### Sequences -/

/-- The values of nodes, evaluated from left to right. -/
def evalAll (self : Value → Eval D.Val D) : List Value → Eval (List D.Val) D
  | [] => pure []
  | v :: vs => do
    let x ← self v
    let xs ← evalAll self vs
    pure (x :: xs)

/-- Evaluates nodes from left to right for what they do. -/
def evalEach (self : Value → Eval D.Val D) : List Value → Eval Unit D
  | [] => pure ()
  | v :: vs => do
    let _ ← self v
    evalEach self vs

/-- Evaluates the statements of a function body, with a checkpoint before each, and gives
the value of the last one; `last` is the value so far. -/
def evalBody (self : Value → Eval D.Val D) (last : D.Val) : List Value → Eval D.Val D
  | [] => pure last
  | v :: vs => do
    checkpoint Kind.function.name
    let x ← self v
    evalBody self x vs

/-- Binds parameters to values, one after the other. -/
def bindAll (bindingKey : Value → Eval D.Key D) : List Value → List D.Val → Eval Unit D
  | param :: params, x :: xs => do
    let key ← bindingKey param
    changeEnv (·.setVariable key x)
    bindAll bindingKey params xs
  | _, _ => pure ()

/-! ### Literals, variables and operators -/

/-- A literal. -/
def evalNumber (v : Value) : Eval D.Val D := do
  read (D.literal (← h.payload v))

/-- The value of a variable. -/
def evalLookup (v : Value) : Eval D.Val D := do
  h.valueOf (← h.payload v)

/-- An assignment. -/
def evalAssignment (self : Value → Eval D.Val D) (v : Value) : Eval D.Val D := do
  let payload ← h.payload v
  let target ← h.field payload "name"
  let value ← self (← h.field payload "expr")
  let key ← h.bindingKey target
  changeEnv (·.setVariable key value)
  h.traceAssignment target value
  pure value

/-- The result of an arithmetic operator. A division by zero shows the dividend. -/
def compute (op : Arithmetic) (x y : D.Val) : Eval D.Val D := do
  match ← operate (D.compute op x y) with
  | some value => pure value
  | none => do
    h.checkRoom x
    fail (.divisionByZero x)

/-- One if a comparison holds, zero otherwise. -/
def compare (op : Comparison) (x y : D.Val) : Eval D.Val D := do
  let holds ← operate (D.compare op x y)
  pure (D.ofInt (if holds then 1 else 0))

/-- Both operands, and the operator as it is written. -/
def evalOperands (self : Value → Eval D.Val D) (v : Value) : Eval (Value × D.Val × D.Val) D := do
  let payload ← h.payload v
  let op ← h.field payload "op"
  let x ← self (← h.field payload "left")
  let y ← self (← h.field payload "right")
  pure (op, x, y)

/-- Arithmetic. -/
def evalArithmetic (self : Value → Eval D.Val D) (v : Value) : Eval D.Val D := do
  let (op, x, y) ← h.evalOperands self v
  match ← read (h.graph.lookUp? Arithmetic.ofSymbol? op) with
  | some known => h.compute known x y
  | none => h.objectTo (.unknownArithmetic op) v

/-- A comparison. -/
def evalComparison (self : Value → Eval D.Val D) (v : Value) : Eval D.Val D := do
  let (op, x, y) ← h.evalOperands self v
  match ← read (h.graph.lookUp? Comparison.ofSymbol? op) with
  | some known => compare known x y
  | none => h.objectTo (.unknownComparison op) v

/-! ### Control flow -/

/-- One branch or none. -/
def evalConditional (self : Value → Eval D.Val D) (v : Value) : Eval D.Val D := do
  let payload ← h.payload v
  let test ← self (← h.field payload "condition")
  if D.isTrue test then self (← h.field payload "body") else pure (D.ofInt 0)

/-- One of two branches. -/
def evalAlternative (self : Value → Eval D.Val D) (v : Value) : Eval D.Val D := do
  let payload ← h.payload v
  let test ← self (← h.field payload "condition")
  if D.isTrue test then self (← h.field payload "body") else self (← h.field payload "else_body")

/-- The rounds of a loop, of which at most `rounds` are followed. -/
def iterate (self : Value → Eval D.Val D) (condition body : Value) : Nat → Eval D.Val D
  | 0 => throw .unfinished
  | rounds + 1 => do
    checkpoint Kind.loop.name
    let test ← self condition
    if D.isTrue test then do
      evalEach self (← h.items body)
      iterate self condition body rounds
    else pure (D.ofInt 0)

/-- A loop. -/
def evalLoop (self : Value → Eval D.Val D) (v : Value) : Eval D.Val D := inContext do
  let payload ← h.payload v
  let condition ← h.field payload "condition"
  let body ← h.field payload "body"
  h.iterate self condition body h.rounds

/-- Prints the value of an expression. -/
def evalPrint (self : Value → Eval D.Val D) (v : Value) : Eval D.Val D := inContext do
  let value ← self (← h.payload v)
  h.checkRoom value
  print value

/-! ### Functions -/

/-- Runs a function body. -/
def runBody (self : Value → Eval D.Val D) (body : Except Fault Value) : Eval D.Val D := inContext do
  evalBody self (D.ofInt 0) (← h.items (← read body))

/-- A definition. -/
def evalDefinition (v : Value) : Eval D.Val D := do
  let payload ← h.payload v
  let target ← h.field payload "name"
  let params ← h.field payload "params"
  let body ← h.field payload "body"
  let key ← h.bindingKey target
  changeEnv (·.define key (.defined params body))
  h.traceDefinition target params
  pure (D.ofInt 0)

/-- A function that is evaluated on its own. -/
def evalFunction (self : Value → Eval D.Val D) (v : Value) : Eval D.Val D :=
  h.runBody self ((Callable.given v).body h.graph)

/-- A call. -/
def evalCall (self : Value → Eval D.Val D) (v : Value) : Eval D.Val D := do
  let payload ← h.payload v
  let target ← h.field payload "name"
  let args ← h.field payload "args"
  let function ← h.functionOf target
  let params ← read (function.params h.graph)
  let got ← read (h.graph.length args)
  let expected ← read (h.graph.length params)
  if got ≠ expected then h.failNaming target (.arityMismatch target expected got)
  else
    let values ← evalAll self (← h.items args)
    let params ← h.items params
    bindAll h.bindingKey params values
    h.traceCall target params values
    h.runBody self (function.body h.graph)

/-! ### All kinds -/

/-- What a node of the given kind does, whatever its tag says. -/
def evalKind (self : Value → Eval D.Val D) (kind : Kind) (v : Value) : Eval D.Val D :=
  match kind with
  | .number => h.evalNumber v
  | .lookup => h.evalLookup v
  | .assignment => h.evalAssignment self v
  | .arithmetic => h.evalArithmetic self v
  | .comparison => h.evalComparison self v
  | .conditional => h.evalConditional self v
  | .alternative => h.evalAlternative self v
  | .loop => h.evalLoop self v
  | .print => h.evalPrint self v
  | .definition => h.evalDefinition v
  | .function => h.evalFunction self v
  | .call => h.evalCall self v

/-- What a node does, by the kind that its tag names. -/
def evalNode (self : Value → Eval D.Val D) (v : Value) : Eval D.Val D := inContext do
  let tag ← h.field v "type"
  h.traceVisit tag
  match tag.text?.bind Kind.ofName? with
  | some kind => h.evalKind self kind v
  | none => h.objectTo (.unknownKind tag) v

/-- **Evaluates a node**, at most `depth` evaluations inside each other. -/
def eval (h : Host D) : Nat → Value → Eval D.Val D
  | 0, _ => throw .tooDeep
  | depth + 1, v => h.evalNode (h.eval depth) v

/-! ### Laws -/

/-- Texts are looked up as they are among the integers. -/
theorem lookUp_text {α : Type} (h : Host) (find : String → Option α) (name : String) :
    h.lookUp find (.text name) = pure (find name) := by
  rw [lookUp, Graph.lookUpBy, Graph.isKey_text]
  rfl

/-- **A variable is read or missed**, and the failure then shows the environment as it is. -/
theorem valueOf_text (h : Host) (name : String) (m : Machine) :
    h.valueOf (.text name) m = match m.env.value? name with
      | some value => .ok value m
      | none => .error (.failure ⟨.undefinedVariable (.text name) m.env, none⟩) m := by
  rw [valueOf, Steps.bind_of_ok (show env m = .ok m.env m from rfl), lookUp_text]
  cases m.env.value? name <;> simp [Steps.pure_apply, failNaming, fail_apply]

/-- A function is found or missed, and the failure then shows the environment as it is. -/
theorem functionOf_text (h : Host) (name : String) (m : Machine) :
    h.functionOf (.text name) m = match m.env.function? name with
      | some function => .ok function m
      | none => .error (.failure ⟨.undefinedFunction (.text name) m.env, none⟩) m := by
  rw [functionOf, Steps.bind_of_ok (show env m = .ok m.env m from rfl), lookUp_text]
  cases m.env.function? name <;> simp [Steps.pure_apply, failNaming, fail_apply]

/-- Whether a name is bound can be asked without risk. -/
theorem presence_text (h : Host) (name : String) (m : Machine) :
    h.presence (.text name) m
      = .ok ((m.env.value? name).isSome, (m.env.function? name).isSome) m := by
  simp only [presence, lookUp_text]
  rfl

@[simp]
theorem eval_zero (v : Value) : h.eval 0 v = throw .tooDeep := rfl

theorem eval_succ (depth : Nat) (v : Value) :
    h.eval (depth + 1) v = h.evalNode (h.eval depth) v := rfl

end Host

end Treewalk
