import Treewalk.Graph.Basic
import Treewalk.Text.Quoted

/-!
## The written form of values

`Graph.written` writes a value out in full, as messages quote it: texts quoted, sequences
and records with their contents. An object that is still being written when it is met
again, which happens only in a cycle, is written as empty brackets around three dots.
`Graph.plain` differs on texts alone, which stand for themselves.

The depth of the recursion is bounded by the number of objects, because the objects being
written are all different.

Whoever writes a value may have room for so many objects inside each other and not for
more. `Graph.isWritable` tells whether a value fits.

* `plain_text`, `isWritable_text`: a text stands for itself, and it always fits.
-/

namespace Treewalk.Graph

/-- Parts joined by a comma and a blank. -/
def commaSeparated (parts : List String) : String :=
  ", ".intercalate parts

/-- The written form of an atom; a reference has none. -/
def writtenAtom : Value → String
  | .absent => "None"
  | .flag true => "True"
  | .flag false => "False"
  | .int n => toString n
  | .decimal written => written
  | .text s => Text.quoted s
  | .ref _ => ""

/-- The written form of an object, given how to write what it contains. -/
def writtenObject (write : Value → String) : Object → String
  | .list items => "[" ++ commaSeparated (items.map write) ++ "]"
  | .tuple [item] => "(" ++ write item ++ ",)"
  | .tuple items => "(" ++ commaSeparated (items.map write) ++ ")"
  | .record fields =>
    "\x7b" ++ commaSeparated (fields.entries.map fun entry =>
      Text.quoted entry.1 ++ ": " ++ write entry.2) ++ "\x7d"

/-- What stands for an object that is already being written. -/
def writtenAgain : Object → String
  | .list _ => "[...]"
  | .tuple _ => "(...)"
  | .record _ => "\x7b...\x7d"

/-- The written form of a value while the objects in `busy` are being written, at most
`depth` further objects inside each other. -/
def writtenWithin (g : Graph) : Nat → List Nat → Value → String
  | 0, _, v => writtenAtom v
  | depth + 1, busy, v =>
    match v, g.object? v with
    | .ref id, some o =>
      if busy.contains id then writtenAgain o
      else writtenObject (g.writtenWithin depth (id :: busy)) o
    | _, _ => writtenAtom v

/-- The **written form** of a value. -/
def written (g : Graph) (v : Value) : String :=
  g.writtenWithin (g.objects.size + 1) [] v

/-- The **plain form** of a value: a text stands for itself, all else is written out. -/
def plain (g : Graph) : Value → String
  | .text s => s
  | v => g.written v

/-! ### The room that writing needs -/

/-- Can a value be written with at most `limit` further objects inside each other while the
objects in `busy` are being written? -/
def isWritableWithin (g : Graph) : Nat → List Nat → Value → Bool
  | 0, _, v => (g.object? v).isNone
  | limit + 1, busy, v =>
    match v, g.object? v with
    | .ref id, some o =>
      busy.contains id || o.parts.all (g.isWritableWithin limit (id :: busy))
    | _, _ => true

/-- Can the value be **written** with at most `limit` objects inside each other? -/
def isWritable (g : Graph) (limit : Nat) (v : Value) : Bool :=
  g.isWritableWithin limit [] v

@[simp]
theorem isWritable_text (g : Graph) (limit : Nat) (s : String) :
    g.isWritable limit (.text s) = true := by
  cases limit <;> rfl

/-! ### Atoms -/

@[simp]
theorem plain_text (g : Graph) (s : String) : g.plain (.text s) = s := rfl

end Treewalk.Graph
