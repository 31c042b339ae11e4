import Treewalk.Graph.Basic

/-!
## Bindings read from values

A finite map from names can be given in several ways: as a record, as a sequence of pairs
of a name and a value, or, if there is nothing in it, as anything that stands for nothing.
`Graph.bindings` reads all of these as a `Table`. In a sequence of pairs the later one of
two pairs with the same name wins (`Table.ofList`).

* `bindings_of_record?`: a record binds what its fields hold.
-/

namespace Treewalk

/-- Is the written form of a decimal one of zero? Before the exponent it has zeros only. -/
def isZeroDecimal (written : String) : Bool :=
  let significand := written.toList.takeWhile fun c => c != 'e' && c != 'E'
  significand.contains '0' && significand.all fun c => ['+', '-', '.', '0'].contains c

namespace Graph

/-! ### Vacant values -/

/-- Is the value **vacant**? Nothing at all, falsehood, zero, and whatever is empty are. -/
def isVacant (g : Graph) (v : Value) : Bool :=
  match v with
  | .absent => true
  | .flag b => !b
  | .int n => n == 0
  | .decimal written => isZeroDecimal written
  | .text s => s == ""
  | .ref _ =>
    match g.object? v with
    | some o => o.parts.isEmpty
    | none => false

/-! ### Pairs -/

/-- The name and the value of a pair. The pair may be anything that one can walk through in
two steps. -/
def pair (g : Graph) (v : Value) : Except Fault (String × Value) := do
  match ← g.items v with
  | [name, value] => pure (← name.name, value)
  | _ => throw .wrongLength

/-- The names and the values of pairs. -/
def pairs (g : Graph) : List Value → Except Fault (List (String × Value))
  | [] => pure []
  | v :: vs => do
    let first ← g.pair v
    let rest ← g.pairs vs
    pure (first :: rest)

/-! ### Bindings -/

/-- The **bindings** that a value gives: those of a record or of a sequence of pairs, and
none at all if it is vacant. -/
def bindings (g : Graph) (v : Value) : Except Fault (Table Value) :=
  if g.isVacant v then .ok .empty
  else
    match g.record? v with
    | some fields => .ok fields
    | none => do
      let entries ← g.pairs (← g.items v)
      pure (.ofList entries)

/-! ### Laws -/

/-- **A record binds what its fields hold.** -/
theorem bindings_of_record? {g : Graph} {v : Value} {fields : Table Value}
    (h : g.record? v = some fields) : g.bindings v = .ok fields := by
  obtain ⟨entries⟩ := fields
  unfold bindings
  cases hvacant : g.isVacant v with
  | false => simp [h]
  | true =>
    -- A record is vacant only if it has no field at all.
    unfold record? at h
    split at h
    · rename_i hobject
      cases h
      unfold isVacant at hvacant
      cases v <;> simp_all [Object.parts, object?, Table.empty]
    · cases h

end Graph

namespace Value

/-- The integers of values that are integers, under the same names. -/
def integers : List (String × Value) → Except Fault (List (String × Int))
  | [] => pure []
  | (name, .int n) :: rest => do
    let rest ← integers rest
    pure ((name, n) :: rest)
  | _ :: _ => throw .wrongType

end Value

end Treewalk
