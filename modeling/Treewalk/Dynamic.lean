import Treewalk.Domain
import Treewalk.Graph.Bindings
import Treewalk.Graph.Printer

/-!
## Loosely typed values as a domain

Nothing but validation keeps a literal from holding a text or a list, and nothing but
validation keeps a name from being a number. In the domain of loosely typed values
(`Domain.dynamic`) every literal stands for its payload, and something can be bound under
every value that can serve as a key. Two values that a host takes for one key are one
(`Graph.keyOf`): truth values count as integers, and tuples are compared by what they hold.

On integers and truth values the operators are those of the integers. What a host does with
other operands, and under which key it finds a decimal, is left open (`Foreign`).

* `keyOf_eq_text_iff`: what is bound under a text is found under no other value.
-/

namespace Treewalk

/-! ### Keys -/

/-- A part of a key. -/
inductive KeyPart where
  /-- The value that stands for nothing at all. -/
  | absent
  /-- An integer. -/
  | int (n : Int)
  /-- A decimal number that is no integer. -/
  | decimal (form : String)
  /-- A text. -/
  | text (s : String)
  /-- A tuple, of which so many items follow. -/
  | tuple (length : Nat)
deriving DecidableEq, Repr, Inhabited

/-- What a host does with decimals, and with operands that are not both integers. -/
structure Foreign where
  /-- The integer that a decimal equals, or else a form that it shares with equal decimals. -/
  decimalKey : String → Int ⊕ String
  /-- The result of an arithmetic operator; there is none for a division by zero. -/
  compute : Arithmetic → Value → Value → Except Refusal (Option Value)
  /-- Does a comparison hold? -/
  compare : Comparison → Value → Value → Except Refusal Bool

/-- The host that refuses all other operands, and finds each decimal under its written form. -/
def Foreign.refusing : Foreign where
  decimalKey := .inr
  compute _ _ _ := .error (.fault .wrongType)
  compare _ _ _ := .error (.fault .wrongType)

namespace Value

/-- The integer that a value counts as in arithmetic, where truth values are one and zero. -/
def integer? : Value → Option Int
  | .int n => some n
  | .flag b => some (if b then 1 else 0)
  | _ => none

end Value

namespace Graph

/-- The key that an atom serves as; no reference serves as one by itself. -/
def keyOfAtom (decimalKey : String → Int ⊕ String) : Value → List KeyPart
  | .absent => [.absent]
  | .flag b => [.int (if b then 1 else 0)]
  | .int n => [.int n]
  | .decimal written =>
    match decimalKey written with
    | .inl n => [.int n]
    | .inr form => [.decimal form]
  | .text s => [.text s]
  | .ref _ => []

/-- The key that a value serves as, looking through at most `depth` tuples inside each other. -/
def keyWithin (g : Graph) (decimalKey : String → Int ⊕ String) : Nat → Value → List KeyPart
  | 0, v => keyOfAtom decimalKey v
  | depth + 1, v =>
    match g.object? v with
    | some (.tuple items) => .tuple items.length :: items.flatMap (g.keyWithin decimalKey depth)
    | _ => keyOfAtom decimalKey v

/-- The **key** that a value serves as. -/
def keyOf (g : Graph) (decimalKey : String → Int ⊕ String) (v : Value) : List KeyPart :=
  g.keyWithin decimalKey g.objects.size v

theorem keyOfAtom_eq_text_iff (decimalKey : String → Int ⊕ String) (v : Value) (s : String) :
    keyOfAtom decimalKey v = [.text s] ↔ v = .text s := by
  cases v with
  | decimal written =>
    rw [keyOfAtom]
    cases decimalKey written <;> simp
  | _ => simp [keyOfAtom]

/-- **Under the key of a text** there is nothing but that text. -/
theorem keyOf_eq_text_iff (g : Graph) (decimalKey : String → Int ⊕ String) (v : Value)
    (s : String) : g.keyOf decimalKey v = [.text s] ↔ v = .text s := by
  unfold keyOf
  cases g.objects.size with
  | zero => exact keyOfAtom_eq_text_iff decimalKey v s
  | succ depth =>
    unfold keyWithin
    split
    · rename_i items hobject
      -- a tuple is an object, which a text is not
      cases v <;> simp [object?] at hobject ⊢
    · exact keyOfAtom_eq_text_iff decimalKey v s

end Graph

namespace Domain

/-- The **loosely typed values** of a graph. -/
@[reducible]
def dynamic (g : Graph) (others : Foreign) : Domain where
  Val := Value
  Key := List KeyPart
  literal := .ok
  key? v := some (g.keyOf others.decimalKey v)
  ofInt := .int
  isTrue v := !g.isVacant v
  compute op x y :=
    match x.integer?, y.integer? with
    | some m, some n => .ok ((op.apply m n).map .int)
    | _, _ => others.compute op x y
  compare op x y :=
    match x.integer?, y.integer? with
    | some m, some n => .ok (op.holds m n)
    | _, _ => others.compare op x y
  text := g.plain
  isWritable := g.isWritable

end Domain

end Treewalk
