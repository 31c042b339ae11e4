/-!
## Operators

Four arithmetic operators and four comparisons on integers of any size. Only division can
fail, and only by a zero divisor; otherwise it rounds toward zero. A comparison answers
one or zero.

* `apply_div`, `apply_eq_none_iff`: the quotient, and when there is none.
* `ofSymbol?_eq_some_iff`, for either sort: exactly the symbols are read.
-/

namespace Treewalk

/-- The **arithmetic operators**. -/
inductive Arithmetic where
  | add
  | sub
  | mul
  | div
deriving DecidableEq, Repr, Inhabited

/-- The **comparisons**. -/
inductive Comparison where
  | eq
  | ne
  | lt
  | gt
deriving DecidableEq, Repr, Inhabited

namespace Arithmetic

/-- How the operator is written. -/
def symbol : Arithmetic → String
  | add => "+"
  | sub => "-"
  | mul => "*"
  | div => "/"

/-- All arithmetic operators. -/
def all : List Arithmetic := [add, sub, mul, div]

/-- The operator with a given symbol. -/
def ofSymbol? (symbol : String) : Option Arithmetic :=
  all.find? fun op => op.symbol == symbol

/-- The result of the operator; there is none for a division by zero. -/
def apply (op : Arithmetic) (x y : Int) : Option Int :=
  match op with
  | add => some (x + y)
  | sub => some (x - y)
  | mul => some (x * y)
  | div => if y = 0 then none else some (Int.tdiv x y)

@[simp]
theorem ofSymbol?_symbol (op : Arithmetic) : ofSymbol? op.symbol = some op := by
  cases op <;> rfl

theorem ofSymbol?_eq_some_iff {s : String} {op : Arithmetic} :
    ofSymbol? s = some op ↔ s = op.symbol := by
  constructor
  · intro h
    have := List.find?_some h
    exact (beq_iff_eq.mp this).symm
  · rintro rfl
    exact ofSymbol?_symbol op

/-- A quotient is rounded toward zero. -/
theorem apply_div {x y : Int} (h : y ≠ 0) : div.apply x y = some (Int.tdiv x y) := by
  simp [apply, h]

/-- **Only a division by zero has no result.** -/
theorem apply_eq_none_iff {op : Arithmetic} {x y : Int} :
    op.apply x y = none ↔ op = div ∧ y = 0 := by
  cases op <;> simp [apply]

end Arithmetic

namespace Comparison

/-- How the comparison is written. -/
def symbol : Comparison → String
  | eq => "=="
  | ne => "!="
  | lt => "<"
  | gt => ">"

/-- All comparisons. -/
def all : List Comparison := [eq, ne, lt, gt]

/-- The comparison with a given symbol. -/
def ofSymbol? (symbol : String) : Option Comparison :=
  all.find? fun op => op.symbol == symbol

/-- Does the comparison hold? -/
def holds (op : Comparison) (x y : Int) : Bool :=
  match op with
  | eq => x == y
  | ne => x != y
  | lt => decide (x < y)
  | gt => decide (x > y)

/-- One if the comparison holds, zero otherwise. -/
def apply (op : Comparison) (x y : Int) : Int :=
  if op.holds x y then 1 else 0

@[simp]
theorem ofSymbol?_symbol (op : Comparison) : ofSymbol? op.symbol = some op := by
  cases op <;> rfl

theorem ofSymbol?_eq_some_iff {s : String} {op : Comparison} :
    ofSymbol? s = some op ↔ s = op.symbol := by
  constructor
  · intro h
    have := List.find?_some h
    exact (beq_iff_eq.mp this).symm
  · rintro rfl
    exact ofSymbol?_symbol op

end Comparison

end Treewalk
