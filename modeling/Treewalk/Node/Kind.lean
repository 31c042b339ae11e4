/-!
## Kinds of nodes

A node carries a tag, and the twelve tags of the language are the names of the twelve
kinds. `ofName?` reads a tag; `ofName?_eq_some_iff` says that it accepts exactly the
names, so a kind and its tag determine each other.
-/

namespace Treewalk

/-- The **kinds** of nodes. -/
inductive Kind where
  /-- An integer literal. -/
  | number
  /-- The value of a variable. -/
  | lookup
  /-- Gives a variable the value of an expression. -/
  | assignment
  /-- Arithmetic on two operands. -/
  | arithmetic
  /-- A comparison of two operands. -/
  | comparison
  /-- One branch, taken if the condition is not zero. -/
  | conditional
  /-- Two branches, one of which is taken. -/
  | alternative
  /-- A body that is repeated while the condition is not zero. -/
  | loop
  /-- Prints the value of an expression. -/
  | print
  /-- Gives a name to a function. -/
  | definition
  /-- A function without a name; to evaluate it is to run its body. -/
  | function
  /-- Calls a function by its name. -/
  | call
deriving DecidableEq, Repr, Inhabited

namespace Kind

/-- The tag of the nodes of a kind. -/
def name : Kind → String
  | number => "NUMBER"
  | lookup => "VARIABLE"
  | assignment => "ASSIGNMENT"
  | arithmetic => "OPERATION"
  | comparison => "COMPARISON"
  | conditional => "IF"
  | alternative => "IF_ELSE"
  | loop => "WHILE"
  | print => "PRINT"
  | definition => "FUNCTION_DEF"
  | function => "FUNCTION"
  | call => "FUNCTION_CALL"

/-- All kinds. -/
def all : List Kind :=
  [number, lookup, assignment, arithmetic, comparison, conditional, alternative, loop, print,
    definition, function, call]

/-- The kind with a given tag. -/
def ofName? (tag : String) : Option Kind :=
  all.find? fun kind => kind.name == tag

/-- Two kinds with one tag are one kind. -/
theorem name_injective {a b : Kind} (h : a.name = b.name) : a = b := by
  cases a <;> cases b <;> simp_all [name]

@[simp]
theorem ofName?_name (kind : Kind) : ofName? kind.name = some kind := by
  cases kind <;> rfl

/-- **Exactly the names of kinds are read as tags.** -/
theorem ofName?_eq_some_iff {tag : String} {kind : Kind} :
    ofName? tag = some kind ↔ tag = kind.name := by
  constructor
  · intro h
    have := List.find?_some h
    exact (beq_iff_eq.mp this).symm
  · rintro rfl
    exact ofName?_name kind

end Kind

end Treewalk
