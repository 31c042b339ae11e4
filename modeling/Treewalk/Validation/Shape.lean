import Treewalk.Graph.Printer
import Treewalk.Node.Basic
import Treewalk.Node.Operator

/-!
## The shape of a single node

A value has the shape of a node if it looks like one, its tag names a kind, and its payload
has what the kind asks for: an integer, a name, an operator of the right sort, fields that
are there, sequences where sequences are due. Children only have to be there;
whether they are nodes themselves is not asked here.

`Graph.shape` gives the kind and the payload of a value that passes, and otherwise the
first `Violation` in a fixed order of questions. There is one question that can fail
without a violation: whether an operator is known can only be asked of a value that can
serve as a key, and asking it of another is a fault.
-/

namespace Treewalk

/-- A **violation** of the rules for programs. -/
inductive Violation where
  /-- The value does not look like a node. -/
  | notNode (v : Value)
  /-- The tag names no kind. -/
  | unknownKind (tag : String)
  /-- The payload is no record but a value of another type. -/
  | payloadNotRecord (typeName : String)
  /-- A field is missing or holds nothing. -/
  | missingField (key : String)
  /-- A name is no identifier. -/
  | notIdentifier (name : Value)
  /-- A field holds no sequence but a value of another type. -/
  | notSequence (key typeName : String)
  /-- The operator does not belong to the kind. -/
  | wrongOperator (op : Value) (kind : Kind)
  /-- A literal is no integer. -/
  | notNumber (literal : Value)
  /-- There is nothing to print. -/
  | nothingToPrint
  /-- A node contains itself. -/
  | cycle (kind : Kind)
  /-- A program is a single node. -/
  | programIsNode
deriving DecidableEq, Repr, Inhabited

namespace Violation

/-- The wording of a violation. -/
def message (g : Graph) : Violation → String
  | notNode v => "Not an expression node: " ++ g.written v
  | unknownKind tag => s!"Unknown node type: {tag}"
  | payloadNotRecord typeName => s!"Payload must be a dict, got {typeName}"
  | missingField key => s!"Missing required field '{key}'"
  | notIdentifier name => "Expected identifier, got " ++ g.written name
  | notSequence key typeName => s!"Field '{key}' must be a sequence, got {typeName}"
  | wrongOperator op kind =>
    "Operator " ++ g.written op ++ " is not valid for " ++ kind.name
  | notNumber literal => "Number literal must be an int, got " ++ g.written literal
  | nothingToPrint => "Print requires a value expression"
  | cycle kind => s!"Cycle detected: {kind.name} node is its own ancestor"
  | programIsNode => "Program must be a sequence of statements, got a single node"

/-- The value that the wording quotes, if it quotes one. -/
def quoted? : Violation → Option Value
  | notNode v | notIdentifier v | wrongOperator v _ | notNumber v => some v
  | unknownKind _ | payloadNotRecord _ | missingField _ | notSequence _ _ => none
  | nothingToPrint | cycle _ | programIsNode => none

end Violation

/-- Why a value does not have the shape of a node. -/
inductive Misshape where
  /-- It violates a rule. -/
  | violation (v : Violation)
  /-- A question could not be asked of it. -/
  | fault (f : Fault)
deriving DecidableEq, Repr, Inhabited

namespace Graph

/-! ### Questions -/

/-- Answers a question by a violation unless it is affirmed. -/
def demand (ok : Bool) (otherwise : Violation) : Except Misshape Unit :=
  if ok then .ok () else .error (.violation otherwise)

/-- What a field of a record holds; a missing field holds nothing. -/
def held (fields : Table Value) (key : String) : Value :=
  (fields.get? key).getD .absent

/-- The fields of a payload that has to be a record with something under every key. -/
def requireFields (g : Graph) (payload : Value) (keys : List String) :
    Except Misshape (Table Value) :=
  match g.record? payload with
  | none => .error (.violation (.payloadNotRecord (g.typeName payload)))
  | some fields => do
    keys.forM fun key => demand (held fields key != .absent) (.missingField key)
    pure fields

/-- A name has to be an identifier. -/
def requireIdentifier (name : Value) : Except Misshape Unit :=
  demand name.isIdentifier (.notIdentifier name)

/-- A field has to hold a sequence. -/
def requireSequence (g : Graph) (fields : Table Value) (key : String) : Except Misshape Unit :=
  demand (g.isSequence (held fields key)) (.notSequence key (g.typeName (held fields key)))

/-- The operator has to belong to the kind. -/
def requireOperator (g : Graph) (kind : Kind) (known : String → Bool) (op : Value) :
    Except Misshape Unit :=
  match g.lookUp? (fun s => if known s then some s else none) op with
  | .ok (some _) => .ok ()
  | .ok none => .error (.violation (.wrongOperator op kind))
  | .error f => .error (.fault f)

/-- The members of a sequence of parameters have to be identifiers. -/
def requireParameters (g : Graph) (params : Value) : Except Misshape Unit :=
  match g.items params with
  | .ok names => names.forM requireIdentifier
  | .error f => .error (.fault f)

/-- The payload has what the kind asks for. -/
def checkPayload (g : Graph) (kind : Kind) (payload : Value) : Except Misshape Unit :=
  match kind with
  | .number => demand payload.isIntLiteral (.notNumber payload)
  | .lookup => requireIdentifier payload
  | .assignment => do
    let fields ← g.requireFields payload ["name", "expr"]
    requireIdentifier (held fields "name")
  | .arithmetic => do
    let fields ← g.requireFields payload ["op", "left", "right"]
    g.requireOperator kind (fun s => (Arithmetic.ofSymbol? s).isSome) (held fields "op")
  | .comparison => do
    let fields ← g.requireFields payload ["op", "left", "right"]
    g.requireOperator kind (fun s => (Comparison.ofSymbol? s).isSome) (held fields "op")
  | .conditional => do
    let _ ← g.requireFields payload ["condition", "body"]
  | .alternative => do
    let _ ← g.requireFields payload ["condition", "body", "else_body"]
  | .loop => do
    let fields ← g.requireFields payload ["condition", "body"]
    g.requireSequence fields "body"
  | .print => demand (payload != .absent) .nothingToPrint
  | .definition => do
    let fields ← g.requireFields payload ["name", "params", "body"]
    g.requireSequence fields "params"
    g.requireSequence fields "body"
    requireIdentifier (held fields "name")
    g.requireParameters (held fields "params")
  | .function => do
    let fields ← g.requireFields payload ["params", "body"]
    g.requireSequence fields "params"
    g.requireSequence fields "body"
    g.requireParameters (held fields "params")
  | .call => do
    let fields ← g.requireFields payload ["name", "args"]
    requireIdentifier (held fields "name")
    g.requireSequence fields "args"

/-- **The kind and the payload of a value that has the shape of a node.** -/
def shape (g : Graph) (v : Value) : Except Misshape (Kind × Value) :=
  match g.node? v with
  | none => .error (.violation (.notNode v))
  | some (tag, payload) =>
    match Kind.ofName? tag with
    | none => .error (.violation (.unknownKind tag))
    | some kind => do
      g.checkPayload kind payload
      pure (kind, payload)

/-! ### Laws -/

/-- A value with the shape of a node looks like a node of that kind. -/
theorem node?_of_shape {g : Graph} {v payload : Value} {kind : Kind}
    (h : g.shape v = .ok (kind, payload)) : g.node? v = some (kind.name, payload) := by
  unfold shape at h
  split at h
  · cases h
  · rename_i tag payload' hnode
    split at h
    · cases h
    · rename_i kind' hkind
      rw [Kind.ofName?_eq_some_iff.mp hkind] at hnode
      cases hcheck : g.checkPayload kind' payload' with
      | error e => simp [hcheck, bind, Except.bind] at h
      | ok u =>
        simp [hcheck, bind, Except.bind, pure, Except.pure] at h
        obtain ⟨rfl, rfl⟩ := h
        exact hnode

end Graph

end Treewalk
