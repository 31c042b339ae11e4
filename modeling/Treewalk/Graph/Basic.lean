import Treewalk.Table

/-!
## Object graphs

Programs reach the library as loosely typed data: atoms (nothing, truth values, integers,
decimals, texts) and references to objects (lists, tuples, and records keyed by strings).
An object is known by its place in the graph, so one object can occur at many places of a
program, and a record can be made to contain itself. Nothing here asks the data to be a
well-formed program; that is what `Treewalk.Validation.Basic` decides.

Reading fails in few ways, the constructors of `Fault`: a record lacks a key, a value is
not of the kind that the reading needs, or a sequence is not as long as it should be. What
else an operation on values can end with is a fault that is known by its name.
Readers have the shape `Graph → Value → Except Fault _`, so that a caller decides when, and
whether, a fault takes effect.

`extend` and `assign` are the only ways to change a graph:

* `object?_extend_of_lt`: older objects stay as they are when the graph grows.
* `object?_assign_of_ne`: an assignment touches one record only.
-/

namespace Treewalk

/-! ### Values, objects and graphs -/

/-- A **value**: an atom, or a reference to an object of a graph. -/
inductive Value where
  /-- The value that stands for nothing at all. -/
  | absent
  /-- A truth value. -/
  | flag (b : Bool)
  /-- An integer of any size. -/
  | int (n : Int)
  /-- A decimal number; no operation looks into it, so its written form stands for it. -/
  | decimal (written : String)
  /-- A text. -/
  | text (s : String)
  /-- The object at place `id` of the graph. -/
  | ref (id : Nat)
deriving DecidableEq, Repr, Inhabited

/-- An **object**: what a reference leads to. -/
inductive Object where
  /-- A sequence that its maker wrote as a list. -/
  | list (items : List Value)
  /-- A sequence that its maker wrote as a tuple. -/
  | tuple (items : List Value)
  /-- A record: named fields in the order of their arrival. -/
  | record (fields : Table Value)
deriving DecidableEq, Repr, Inhabited

/-- The values that an object contains: the items of a sequence, the values of the fields
of a record. -/
def Object.parts : Object → List Value
  | list items | tuple items => items
  | record fields => fields.entries.map Prod.snd

/-- An **object graph**: objects known by their places. Equal objects at two places
are two objects. -/
structure Graph where
  /-- The objects; the index is the identity. -/
  objects : Array Object := #[]
deriving Inhabited

/-- Why a reading failed. -/
inductive Fault where
  /-- A record has no field of this name. -/
  | missingKey (key : String)
  /-- The value is not of the kind that the reading needs. -/
  | wrongType
  /-- The sequence is longer or shorter than the reading needs. -/
  | wrongLength
  /-- An operation on values ended in another way, which has this name. -/
  | other (name : String)
deriving DecidableEq, Repr, Inhabited

namespace Value

/-- The text of a value that is a text. -/
def text? : Value → Option String
  | .text s => some s
  | _ => none

/-- The name that a value is, where a name is needed. -/
def name : Value → Except Fault String
  | .text s => .ok s
  | _ => .error .wrongType

/-- The names that values are, where names are needed. -/
def names : List Value → Except Fault (List String)
  | [] => .ok []
  | v :: vs => do
    let s ← v.name
    let rest ← names vs
    pure (s :: rest)

/-- The integer of a value that is an integer; a truth value is none. -/
def int? : Value → Option Int
  | .int n => some n
  | _ => none

/-- An identifier is a text with at least one character. -/
def isIdentifier : Value → Bool
  | .text s => s != ""
  | _ => false

/-- An integer literal is an integer; a truth value is none. -/
def isIntLiteral (v : Value) : Bool :=
  v.int?.isSome

end Value

namespace Graph

/-! ### Reading -/

/-- The object that a value refers to. -/
def object? (g : Graph) : Value → Option Object
  | .ref id => g.objects[id]?
  | _ => none

/-- The fields of a value that refers to a record. -/
def record? (g : Graph) (v : Value) : Option (Table Value) :=
  match g.object? v with
  | some (.record fields) => some fields
  | _ => none

/-- Does the value refer to a list or a tuple? -/
def isSequence (g : Graph) (v : Value) : Bool :=
  match g.object? v with
  | some (.list _) | some (.tuple _) => true
  | _ => false

/-- The field of a record under `key`. -/
def field (g : Graph) (v : Value) (key : String) : Except Fault Value :=
  match g.record? v with
  | some fields =>
    match fields.get? key with
    | some value => .ok value
    | none => .error (.missingKey key)
  | none => .error .wrongType

/-- What one meets on the way through a value: the items of a list or a tuple, the keys
of a record, the characters of a text. Nothing else can be walked through. -/
def items (g : Graph) (v : Value) : Except Fault (List Value) :=
  match v with
  | .text s => .ok (s.toList.map fun c => .text c.toString)
  | _ =>
    match g.object? v with
    | some (.list items) | some (.tuple items) => .ok items
    | some (.record fields) => .ok (fields.keys.map .text)
    | none => .error .wrongType

/-- The number of things on the way through a value. -/
def length (g : Graph) (v : Value) : Except Fault Nat :=
  List.length <$> g.items v

/-- Can the value serve as a key, looking through at most `depth` tuples inside each
other? Atoms can; lists and records, which may change, cannot; a tuple can if all its
items can. -/
def isKeyWithin (g : Graph) : Nat → Value → Bool
  | 0, v => (g.object? v).isNone
  | depth + 1, v =>
    match g.object? v with
    | none => true
    | some (.tuple items) => items.all (g.isKeyWithin depth)
    | some _ => false

/-- Can the value serve as a key? Tuples inside each other are at most as many as there
are objects. -/
def isKey (g : Graph) (v : Value) : Bool :=
  g.isKeyWithin g.objects.size v

/-- A text can always serve as a key. -/
@[simp]
theorem isKey_text (g : Graph) (s : String) : g.isKey (.text s) = true := by
  unfold isKey
  cases g.objects.size <;> rfl

/-- The name of the kind of a value, as messages give it. -/
def typeName (g : Graph) (v : Value) : String :=
  match v with
  | .absent => "NoneType"
  | .flag _ => "bool"
  | .int _ => "int"
  | .decimal _ => "float"
  | .text _ => "str"
  | .ref _ =>
    match g.object? v with
    | some (.list _) => "list"
    | some (.tuple _) => "tuple"
    | some (.record _) => "dict"
    | none => "object"

/-! ### Building -/

/-- A new object at the end of the graph, with the reference that leads to it. -/
def extend (g : Graph) (o : Object) : Value × Graph :=
  (.ref g.objects.size, ⟨g.objects.push o⟩)

/-- The graph in which the record that `v` refers to has `value` under `key`. Every
reference to that record sees the change. -/
def assign (g : Graph) (v : Value) (key : String) (value : Value) : Except Fault Graph :=
  match v, g.record? v with
  | .ref id, some fields => .ok ⟨g.objects.setIfInBounds id (.record (fields.insert key value))⟩
  | _, _ => .error .wrongType

/-- The value at the end of a path of keys. -/
def walk (g : Graph) (v : Value) : List String → Except Fault Value
  | [] => .ok v
  | key :: path => do g.walk (← g.field v key) path

/-! ### What building leaves alone -/

/-- A new object is found through the reference that came with it. -/
@[simp]
theorem object?_extend_self (g : Graph) (o : Object) :
    (g.extend o).2.object? (g.extend o).1 = some o := by
  simp [extend, object?]

/-- **Older objects stay as they are when the graph grows.** -/
theorem object?_extend_of_lt (g : Graph) (o : Object) {id : Nat} (h : id < g.objects.size) :
    (g.extend o).2.object? (.ref id) = g.object? (.ref id) := by
  simp [extend, object?, Array.getElem?_push, Nat.ne_of_lt h]

/-- Assigning to a field of one record leaves every other object as it is. -/
theorem object?_assign_of_ne {g g' : Graph} {id other : Nat} {key : String} {value : Value}
    (h : g.assign (.ref id) key value = .ok g') (hne : other ≠ id) :
    g'.object? (.ref other) = g.object? (.ref other) := by
  unfold assign at h
  split at h
  · cases h
    rename_i heq _
    cases heq
    simp [object?, Ne.symm hne]
  · cases h

/-- A field that can be read belongs to a record. -/
theorem record?_of_field_eq_ok {g : Graph} {v value : Value} {key : String}
    (h : g.field v key = .ok value) : ∃ fields, g.record? v = some fields
      ∧ fields.get? key = some value := by
  unfold field at h
  split at h
  · rename_i fields hrec
    refine ⟨fields, hrec, ?_⟩
    split at h
    · cases h; assumption
    · cases h
  · cases h

end Graph

end Treewalk
