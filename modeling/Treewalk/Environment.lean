import Treewalk.Domain
import Treewalk.Graph.Bindings
import Treewalk.Node.Builder

/-!
## Environments

A run has one environment: a table of variables, which hold values of its domain, and a table
of functions. There are no scopes, and the two tables do not know each other, so a variable
and a function may share a name.

A function is either an object that was put into the table as it is, or what a definition
has made: parameters and a body, both shared with the definition. Either way its parts are
read when they are needed (`Callable.params`, `Callable.body`).

An environment over the integers can be made from bindings that are given as values
(`Env.ofValues`): the variables have to hold integers, and whatever a name is bound to is
taken for a function.

* `value?_setVariable`, `function?_define`: reading gives back the last thing written.
* `value?_define`, `function?_setVariable`: the two tables are independent.
-/

namespace Treewalk

/-- A **function** in an environment. -/
inductive Callable where
  /-- An object that is taken for a function. -/
  | given (function : Value)
  /-- The function of a definition. -/
  | defined (params body : Value)
deriving DecidableEq, Repr, Inhabited

namespace Callable

/-- The parameters of a function. -/
def params (g : Graph) : Callable → Except Fault Value
  | given function => do g.field (← g.payload function) "params"
  | defined params _ => pure params

/-- The body of a function. -/
def body (g : Graph) : Callable → Except Fault Value
  | given function => do g.field (← g.payload function) "body"
  | defined _ body => pure body

/-- The function as a node. A given object is its own node; for the function of a
definition a node is added that shares the parameters and the body. -/
def node : Callable → Build Value
  | given function => pure function
  | defined params body => Build.addCompound .function [("params", params), ("body", body)]

end Callable

/-- An **environment**. -/
structure Env (D : Domain := .integers) where
  /-- The values of the variables. -/
  values : Table D.Val D.Key := .empty
  /-- The functions. -/
  functions : Table Callable D.Key := .empty
deriving DecidableEq, Inhabited

namespace Env

variable {D : Domain}

/-- The environment that binds nothing. -/
def empty : Env D := {}

/-- The environment with the bindings that two values give. -/
def ofValues (g : Graph) (values functions : Value) : Except Fault Env := do
  let values ← g.bindings values
  let functions ← g.bindings functions
  let integers ← Value.integers values.entries
  pure { values := ⟨integers⟩, functions := functions.map .given }

/-! ### Variables -/

/-- The value of a variable, if it is bound. -/
def value? (env : Env D) (name : D.Key) : Option D.Val :=
  env.values.get? name

/-- Is the variable bound? -/
def hasVariable (env : Env D) (name : D.Key) : Bool :=
  env.values.contains name

/-- Binds a variable, whether it was bound before or not. -/
def setVariable (env : Env D) (name : D.Key) (value : D.Val) : Env D :=
  { env with values := env.values.insert name value }

/-! ### Functions -/

/-- The function of a name, if there is one. -/
def function? (env : Env D) (name : D.Key) : Option Callable :=
  env.functions.get? name

/-- Has the name a function? -/
def hasFunction (env : Env D) (name : D.Key) : Bool :=
  env.functions.contains name

/-- Gives a name to a function, whether it had one before or not. -/
def define (env : Env D) (name : D.Key) (function : Callable) : Env D :=
  { env with functions := env.functions.insert name function }

/-! ### Reading after writing -/

@[grind =]
theorem value?_setVariable (env : Env D) (name other : D.Key) (value : D.Val) :
    (env.setVariable name value).value? other
      = if other = name then some value else env.value? other :=
  env.values.get?_insert name other value

@[grind =]
theorem function?_define (env : Env D) (name other : D.Key) (function : Callable) :
    (env.define name function).function? other
      = if other = name then some function else env.function? other :=
  env.functions.get?_insert name other function

/-- Binding a variable changes no function. -/
@[simp]
theorem function?_setVariable (env : Env D) (name other : D.Key) (value : D.Val) :
    (env.setVariable name value).function? other = env.function? other := rfl

/-- Defining a function changes no variable. -/
@[simp]
theorem value?_define (env : Env D) (name other : D.Key) (function : Callable) :
    (env.define name function).value? other = env.value? other := rfl

theorem hasFunction_iff (env : Env D) (name : D.Key) :
    env.hasFunction name = true ↔ ∃ function, env.function? name = some function := by
  simp [hasFunction, Table.contains, function?, Option.isSome_iff_exists]

end Env

end Treewalk
