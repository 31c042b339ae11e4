import Treewalk.Environment
import Treewalk.Validation.Shape

/-!
## What a node says

A value with the shape of a node is one of twelve forms: a literal with its integer, an
assignment with its target and its expression, a call with a name and arguments, and so on.
A `Form` is a node taken apart in this way, with its names as texts and its children as a
list, and `Graph.HasForm` says that a value is a node of that form. The `Label` of a form is what
it says apart from its children.

* `children_of_hasForm`: a node of a given form has the children of the form, so reading them
  never fails.
-/

namespace Treewalk

/-! ### Forms -/

/-- A **form**: a node taken apart. -/
inductive Form where
  | number (n : Int)
  | lookup (name : String)
  | assignment (name : String) (expr : Value)
  | arithmetic (op : Arithmetic) (left right : Value)
  | comparison (op : Comparison) (left right : Value)
  | conditional (condition body : Value)
  | alternative (condition body otherwise : Value)
  | loop (condition : Value) (body : List Value)
  | print (expr : Value)
  | definition (name : String) (function : Callable) (params : List String) (body : List Value)
  | function (params : List String) (body : List Value)
  | call (name : String) (args : List Value)
deriving DecidableEq, Repr, Inhabited

/-- A **label**: what a node says apart from its children. -/
inductive Label where
  | number (n : Int)
  | lookup (name : String)
  | assignment (name : String)
  | arithmetic (op : Arithmetic)
  | comparison (op : Comparison)
  | conditional
  | alternative
  | loop
  | print
  | definition (name : String) (params : List String)
  | function (params : List String)
  | call (name : String)
deriving DecidableEq, Repr, Inhabited

/-- The kind of the nodes with a label. -/
def Label.kind : Label → Kind
  | number _ => .number
  | lookup _ => .lookup
  | assignment _ => .assignment
  | arithmetic _ => .arithmetic
  | comparison _ => .comparison
  | conditional => .conditional
  | alternative => .alternative
  | loop => .loop
  | print => .print
  | definition _ _ => .definition
  | function _ => .function
  | call _ => .call

/-- The name that nodes with a label have for what they assign, define or call. -/
def Label.name : Label → String
  | assignment name | definition name _ | call name => name
  | _ => ""

namespace Form

/-- The kind of the nodes of a form. -/
def kind : Form → Kind
  | number _ => .number
  | lookup _ => .lookup
  | assignment _ _ => .assignment
  | arithmetic _ _ _ => .arithmetic
  | comparison _ _ _ => .comparison
  | conditional _ _ => .conditional
  | alternative _ _ _ => .alternative
  | loop _ _ => .loop
  | print _ => .print
  | definition _ _ _ _ => .definition
  | function _ _ => .function
  | call _ _ => .call

/-- What a node of the form says apart from its children. -/
def label : Form → Label
  | number n => .number n
  | lookup name => .lookup name
  | assignment name _ => .assignment name
  | arithmetic op _ _ => .arithmetic op
  | comparison op _ _ => .comparison op
  | conditional _ _ => .conditional
  | alternative _ _ _ => .alternative
  | loop _ _ => .loop
  | print _ => .print
  | definition name _ params _ => .definition name params
  | function params _ => .function params
  | call name _ => .call name

/-- The children, in the order of evaluation. -/
def children : Form → List Value
  | number _ | lookup _ => []
  | assignment _ expr => [expr]
  | arithmetic _ left right | comparison _ left right => [left, right]
  | conditional condition body => [condition, body]
  | alternative condition body otherwise => [condition, body, otherwise]
  | loop condition body => condition :: body
  | print expr => [expr]
  | definition _ _ _ body | function _ body => body
  | call _ args => args

@[simp]
theorem kind_label (form : Form) : form.label.kind = form.kind := by
  cases form <;> rfl

end Form

namespace Graph

/-! ### What fields hold -/

/-- A field holds something. -/
def Holds (g : Graph) (payload : Value) (key : String) (value : Value) : Prop :=
  g.field payload key = .ok value ∧ value ≠ .absent

/-- A field holds an identifier. -/
def HoldsName (g : Graph) (payload : Value) (key name : String) : Prop :=
  g.field payload key = .ok (.text name) ∧ name ≠ ""

/-- The value is a list or a tuple of the given items. -/
def IsSequenceOf (g : Graph) (v : Value) (items : List Value) : Prop :=
  g.isSequence v = true ∧ g.items v = .ok items

/-- A field holds a list or a tuple of the given items. -/
def HoldsItems (g : Graph) (payload : Value) (key : String) (items : List Value) : Prop :=
  ∃ v, g.field payload key = .ok v ∧ g.IsSequenceOf v items

/-- A field holds a list or a tuple of identifiers. -/
def HoldsNames (g : Graph) (payload : Value) (key : String) (names : List String) : Prop :=
  g.HoldsItems payload key (names.map .text) ∧ ∀ name ∈ names, name ≠ ""

/-- The parameters and the body of a function can be read. -/
def HasSignature (g : Graph) (function : Callable) (params : List String) (body : List Value) :
    Prop :=
  (∃ v, function.params g = .ok v ∧ g.IsSequenceOf v (params.map .text))
    ∧ (∀ name ∈ params, name ≠ "") ∧ ∃ v, function.body g = .ok v ∧ g.IsSequenceOf v body

/-- The payload carries what the form says. -/
def Carries (g : Graph) (payload : Value) : Form → Prop
  | .number n => payload = .int n
  | .lookup name => payload = .text name ∧ name ≠ ""
  | .assignment name expr => g.HoldsName payload "name" name ∧ g.Holds payload "expr" expr
  | .arithmetic op left right =>
    g.field payload "op" = .ok (.text op.symbol) ∧ g.Holds payload "left" left
      ∧ g.Holds payload "right" right
  | .comparison op left right =>
    g.field payload "op" = .ok (.text op.symbol) ∧ g.Holds payload "left" left
      ∧ g.Holds payload "right" right
  | .conditional condition body =>
    g.Holds payload "condition" condition ∧ g.Holds payload "body" body
  | .alternative condition body otherwise =>
    g.Holds payload "condition" condition ∧ g.Holds payload "body" body
      ∧ g.Holds payload "else_body" otherwise
  | .loop condition body =>
    g.Holds payload "condition" condition ∧ g.HoldsItems payload "body" body
  | .print expr => payload = expr ∧ expr ≠ .absent
  | .definition name function params body =>
    g.HoldsName payload "name" name
      ∧ (∃ p b, g.field payload "params" = .ok p ∧ g.field payload "body" = .ok b
        ∧ function = .defined p b)
      ∧ g.HasSignature function params body
  | .function params body =>
    g.HoldsNames payload "params" params ∧ g.HoldsItems payload "body" body
  | .call name args => g.HoldsName payload "name" name ∧ g.HoldsItems payload "args" args

/-- The value is a node of the given form. -/
def HasForm (g : Graph) (v : Value) (form : Form) : Prop :=
  ∃ payload, g.node? v = some (form.kind.name, payload) ∧ g.Carries payload form

/-! ### Children -/

variable {g : Graph} {payload v : Value}

theorem childrenOf_of_carries {form : Form} (h : g.Carries payload form) :
    g.childrenOf form.kind payload = .ok form.children := by
  cases form with
  | number n => rfl
  | lookup name => rfl
  | assignment name expr =>
    simp [Form.kind, childrenOf, h.2.1, Form.children, bind, Except.bind, pure, Except.pure]
  | arithmetic op left right | comparison op left right =>
    simp [Form.kind, childrenOf, h.2.1.1, h.2.2.1, Form.children, bind, Except.bind, pure,
      Except.pure]
  | conditional condition body =>
    simp [Form.kind, childrenOf, h.1.1, h.2.1, Form.children, bind, Except.bind, pure, Except.pure]
  | alternative condition body otherwise =>
    simp [Form.kind, childrenOf, h.1.1, h.2.1.1, h.2.2.1, Form.children, bind, Except.bind,
      pure, Except.pure]
  | loop condition body =>
    obtain ⟨hcondition, v, hbody, -, hitems⟩ := h
    simp [Form.kind, childrenOf, hcondition.1, hbody, hitems, Form.children, bind, Except.bind,
      pure, Except.pure]
  | print expr =>
    cases h.1
    rfl
  | definition name function params body =>
    obtain ⟨-, ⟨p, b, -, hbody, rfl⟩, -, -, v, hv, -, hitems⟩ := h
    cases hv
    simp [Form.kind, childrenOf, hbody, hitems, Form.children, bind, Except.bind]
  | function params body =>
    obtain ⟨-, v, hbody, -, hitems⟩ := h
    simp [Form.kind, childrenOf, hbody, hitems, Form.children, bind, Except.bind]
  | call name args =>
    obtain ⟨-, v, hargs, -, hitems⟩ := h
    simp [Form.kind, childrenOf, hargs, hitems, Form.children, bind, Except.bind]

/-- **The children of a node are those of its form.** -/
theorem children_of_hasForm {form : Form} (h : g.HasForm v form) :
    g.children v = .ok form.children := by
  obtain ⟨payload, hnode, hcarries⟩ := h
  rw [children_of_node? hnode, childrenOf_of_carries hcarries]

end Graph

end Treewalk
