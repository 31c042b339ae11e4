import Treewalk.Graph.Basic
import Treewalk.Node.Kind

/-!
## Nodes in a graph

A node is a record with a tag under `type` and a payload under `value`. What the payload
holds depends on the kind that the tag names: texts and integers, and further nodes, the
children. `Graph.children` lists the children of a node in the order in which evaluation
meets them; it looks at the tag and the fields it needs and checks nothing else.

`Graph.lookUpBy` is the common shape of looking a value up under a key: a value that cannot
serve as a key is a fault, and any other value that serves as none is found nowhere. Among
names (`Graph.lookUp?`) only texts are found.
-/

namespace Treewalk

namespace Graph

/-! ### Tags and payloads -/

/-- The tag and the payload of a value that looks like a node: a record with a text under
`type` and anything at all under `value`. -/
def node? (g : Graph) (v : Value) : Option (String × Value) := do
  let fields ← g.record? v
  let tag ← (← fields.get? "type").text?
  let payload ← fields.get? "value"
  pure (tag, payload)

/-- Does the value look like a node? -/
def isNode (g : Graph) (v : Value) : Bool :=
  (g.node? v).isSome

/-- The payload of a node. -/
def payload (g : Graph) (v : Value) : Except Fault Value :=
  g.field v "value"

/-- Looks a value up under the key that it serves as, if there is one. The question can only
be asked of a value that can serve as a key. -/
def lookUpBy {α κ : Type} (g : Graph) (key? : Value → Option κ) (find : κ → Option α)
    (v : Value) : Except Fault (Option α) :=
  if g.isKey v then .ok ((key? v).bind find) else .error .wrongType

/-- Looks a value up among names. Only texts are names. -/
def lookUp? {α : Type} (g : Graph) (find : String → Option α) (v : Value) :
    Except Fault (Option α) :=
  g.lookUpBy Value.text? find v

/-! ### Children -/

/-- The children of a node of the given kind, in the order of evaluation. -/
def childrenOf (g : Graph) (kind : Kind) (payload : Value) : Except Fault (List Value) :=
  match kind with
  | .number | .lookup => pure []
  | .assignment => do
    pure [← g.field payload "expr"]
  | .arithmetic | .comparison => do
    let left ← g.field payload "left"
    let right ← g.field payload "right"
    pure [left, right]
  | .conditional => do
    let condition ← g.field payload "condition"
    let body ← g.field payload "body"
    pure [condition, body]
  | .alternative => do
    let condition ← g.field payload "condition"
    let body ← g.field payload "body"
    let otherwise ← g.field payload "else_body"
    pure [condition, body, otherwise]
  | .loop => do
    let condition ← g.field payload "condition"
    let body ← g.items (← g.field payload "body")
    pure (condition :: body)
  | .print => pure [payload]
  | .definition | .function => do
    g.items (← g.field payload "body")
  | .call => do
    g.items (← g.field payload "args")

/-- The **children** of a node, in the order of evaluation. A tag that names no kind
leaves a node childless. -/
def children (g : Graph) (v : Value) : Except Fault (List Value) := do
  let tag ← g.field v "type"
  let payload ← g.payload v
  match tag.text?.bind Kind.ofName? with
  | some kind => g.childrenOf kind payload
  | none => pure []

/-! ### Laws -/

/-- What is looked up and not found serves as no key under which something is found. -/
theorem eq_none_of_lookUpBy_eq_none {α κ : Type} {g : Graph} {key? : Value → Option κ}
    {find : κ → Option α} {v : Value} (h : g.lookUpBy key? find v = .ok none) :
    ∀ key, key? v = some key → find key = none := by
  intro key hkey
  unfold lookUpBy at h
  split at h
  · rwa [hkey, Option.bind_some, Except.ok.injEq] at h
  · cases h

/-- Names are looked up as they are. -/
@[simp]
theorem lookUp?_text {α : Type} (g : Graph) (find : String → Option α) (s : String) :
    g.lookUp? find (.text s) = .ok (find s) := by
  simp [lookUp?, lookUpBy, Value.text?]

/-- A value that looks like a node has the two fields that make it one. -/
theorem node?_eq_some_iff {g : Graph} {v payload : Value} {tag : String} :
    g.node? v = some (tag, payload) ↔ ∃ fields, g.record? v = some fields
      ∧ fields.get? "type" = some (.text tag) ∧ fields.get? "value" = some payload := by
  unfold node?
  constructor
  · intro h
    obtain ⟨fields, hfields, h⟩ := Option.bind_eq_some_iff.mp h
    obtain ⟨type, htype, h⟩ := Option.bind_eq_some_iff.mp h
    obtain ⟨tag', htag, h⟩ := Option.bind_eq_some_iff.mp h
    obtain ⟨payload', hpayload, h⟩ := Option.bind_eq_some_iff.mp h
    cases h
    refine ⟨fields, hfields, ?_, hpayload⟩
    cases type <;> simp_all [Value.text?]
  · rintro ⟨fields, hfields, htype, hpayload⟩
    simp [hfields, htype, hpayload, Value.text?]

/-- Both fields of a node can be read. -/
theorem payload_of_node? {g : Graph} {v payload : Value} {tag : String}
    (h : g.node? v = some (tag, payload)) : g.payload v = .ok payload := by
  obtain ⟨fields, hfields, -, hpayload⟩ := node?_eq_some_iff.mp h
  simp [Graph.payload, field, hfields, hpayload]

theorem field_type_of_node? {g : Graph} {v payload : Value} {tag : String}
    (h : g.node? v = some (tag, payload)) : g.field v "type" = .ok (.text tag) := by
  obtain ⟨fields, hfields, htype, -⟩ := node?_eq_some_iff.mp h
  simp [field, hfields, htype]

/-- The children of a node are those of the kind that its tag names. -/
theorem children_of_node? {g : Graph} {v payload : Value} {kind : Kind}
    (h : g.node? v = some (kind.name, payload)) :
    g.children v = g.childrenOf kind payload := by
  simp [children, field_type_of_node? h, payload_of_node? h, Value.text?, bind, Except.bind]

end Graph

end Treewalk
