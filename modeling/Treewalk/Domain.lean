import Treewalk.Node.Basic
import Treewalk.Node.Operator

/-!
## Domains of values

The evaluator takes the values that nodes have from its literals, hands them on, and binds
them under names; what it asks of them is little. A `Domain` says what there is to know: the
value of a literal, the key under which a name is bound, whether a value counts as true, and
what the operators do with values. No operation of a domain looks at the environment, at the
context or at the log of a run.

The domain of the language is `Domain.integers`. Its literals are integers and its names are
texts, as validation demands it of programs; another literal, or binding another name, is a
fault. Wherever a domain is left out, the integers are meant.

* `bindingKey_text`: a text is bound under the key that it serves as.
-/

namespace Treewalk

/-- Why an operation refuses values. -/
inductive Refusal where
  /-- The operation is not meant for such values. -/
  | fault (f : Fault)
  /-- The values nest too deep. -/
  | tooDeep
deriving DecidableEq, Repr, Inhabited

/-- A **domain of values**. -/
structure Domain where
  /-- What nodes evaluate to, and what variables hold. -/
  Val : Type
  /-- What names are bound under. -/
  Key : Type
  [decEqVal : DecidableEq Val]
  [decEqKey : DecidableEq Key]
  /-- The value of a literal with the given payload. -/
  literal : Value → Except Fault Val
  /-- The key that a name serves as, if anything can be bound under it. -/
  key? : Value → Option Key
  /-- The value that an integer is. -/
  ofInt : Int → Val
  /-- Does the value count as true? -/
  isTrue : Val → Bool
  /-- The result of an arithmetic operator; there is none for a division by zero. -/
  compute : Arithmetic → Val → Val → Except Refusal (Option Val)
  /-- Does a comparison hold? -/
  compare : Comparison → Val → Val → Except Refusal Bool
  /-- The value as a text. -/
  text : Val → String
  /-- Can the value be written with so many objects inside each other? -/
  isWritable : Nat → Val → Bool

namespace Domain

instance (D : Domain) : DecidableEq D.Val := D.decEqVal

instance (D : Domain) : DecidableEq D.Key := D.decEqKey

instance (D : Domain) : Inhabited D.Val := ⟨D.ofInt 0⟩

/-- The **integers**, bound under texts. -/
@[reducible]
def integers : Domain where
  Val := Int
  Key := String
  literal
    | .int n => .ok n
    | _ => .error .wrongType
  key? := Value.text?
  ofInt n := n
  isTrue n := n != 0
  compute op x y := .ok (op.apply x y)
  compare op x y := .ok (op.holds x y)
  text := toString
  isWritable _ _ := true

/-- The key under which something is bound by a name, which has to serve as one. -/
def bindingKey (D : Domain) (g : Graph) (name : Value) : Except Fault D.Key := do
  match ← g.lookUpBy D.key? some name with
  | some key => pure key
  | none => throw .wrongType

/-- Texts are bound under themselves among the integers. -/
@[simp]
theorem bindingKey_text (g : Graph) (s : String) : integers.bindingKey g (.text s) = .ok s := by
  simp [bindingKey, Graph.lookUpBy, Value.text?, bind, Except.bind, pure, Except.pure]

end Domain

end Treewalk
