import Treewalk.Proofs.EvalForm
import Treewalk.Proofs.Safety

/-!
## How a call proceeds

A call finds its function and compares the numbers of parameters and arguments before it does
anything else, so that a call that fails these checks leaves the machine alone. Then it evaluates
its arguments from left to right, and only then it binds the parameters, all of them, so that no
argument sees a new binding. A parameter that is listed more than once keeps the value of its last
position. The statements that run afterwards are those of the function that was found at first,
whatever has been defined since.

* `Env.value?_bindAll_of_last`: the last position of a name counts.
* `callFunction_apply`: a call with the right number of arguments.
* `evalBody_eq`: a body gives the value of its last statement.
* `eval_call`: the law for calls that validation accepts.
-/

namespace Treewalk

open Eval

/-! ### Parameters -/

namespace Env

theorem functions_bindAll (env : Env) (names : List String) (xs : List Int) :
    (env.bindAll names xs).functions = env.functions := by
  induction names generalizing env xs with
  | nil => rfl
  | cons name names ih =>
    cases xs with
    | nil => rfl
    | cons x xs => exact ih (env.setVariable name x) xs

theorem value?_bindAll_of_notMem {names : List String} {name : String} (h : name ∉ names)
    (env : Env) (xs : List Int) : (env.bindAll names xs).value? name = env.value? name := by
  induction names generalizing env xs with
  | nil => rfl
  | cons first names ih =>
    cases xs with
    | nil => rfl
    | cons x xs =>
      obtain ⟨hne, hnotMem⟩ := not_or.mp (List.mem_cons.not.mp h)
      rw [bindAll, ih hnotMem, value?_setVariable, if_neg hne]

/-- **The last position of a name counts**, since later bindings replace earlier ones. -/
theorem value?_bindAll_of_last {names : List String} {xs : List Int} {name : String} {x : Int}
    {i : Nat} (hname : names[i]? = some name) (hlast : ∀ j : Nat, i < j → names[j]? ≠ some name)
    (hx : xs[i]? = some x) (env : Env) : (env.bindAll names xs).value? name = some x := by
  induction names generalizing env xs i with
  | nil => cases hname
  | cons first names ih =>
    cases xs with
    | nil => cases hx
    | cons y xs =>
      cases i with
      | zero =>
        obtain rfl : first = name := Option.some.inj hname
        obtain rfl : y = x := Option.some.inj hx
        have hnotMem : first ∉ names := by
          intro hmem
          obtain ⟨j, hj⟩ := List.mem_iff_getElem?.mp hmem
          exact hlast (j + 1) (Nat.zero_lt_succ j) hj
        rw [bindAll, value?_bindAll_of_notMem hnotMem, value?_setVariable, if_pos rfl]
      | succ i =>
        exact ih hname (fun j hj => hlast (j + 1) (Nat.succ_lt_succ hj)) hx
          (env.setVariable first y)

end Env

/-- Whatever occurs in a list has a last position there. -/
theorem exists_last_of_mem {names : List String} {name : String} (h : name ∈ names) :
    ∃ i : Nat, names[i]? = some name ∧ ∀ j : Nat, i < j → names[j]? ≠ some name := by
  induction names with
  | nil => cases h
  | cons first names ih =>
    by_cases hmem : name ∈ names
    · obtain ⟨i, hi, hlast⟩ := ih hmem
      refine ⟨i + 1, hi, fun j hj => ?_⟩
      obtain ⟨k, rfl⟩ : ∃ k, j = k + 1 := ⟨j - 1, by omega⟩
      exact hlast k (Nat.lt_of_succ_lt_succ hj)
    · obtain rfl : name = first := (List.mem_cons.mp h).resolve_right hmem
      refine ⟨0, rfl, fun j hj hname => hmem ?_⟩
      obtain ⟨k, rfl⟩ : ∃ k, j = k + 1 := ⟨j - 1, by omega⟩
      exact List.mem_iff_getElem?.mpr ⟨k, hname⟩

/-- **Every parameter is bound**, if there is a value for each. -/
theorem Env.exists_value?_bindAll {names : List String} {xs : List Int}
    (hlength : xs.length = names.length) (env : Env) {name : String} (hname : name ∈ names) :
    ∃ (i : Nat) (x : Int), names[i]? = some name ∧ (∀ j : Nat, i < j → names[j]? ≠ some name)
      ∧ xs[i]? = some x ∧ (env.bindAll names xs).value? name = some x := by
  obtain ⟨i, hi, hlast⟩ := exists_last_of_mem hname
  have hbound : i < xs.length := by
    rw [hlength]
    exact (List.getElem?_eq_some_iff.mp hi).1
  have hx : xs[i]? = some xs[i] := List.getElem?_eq_getElem hbound
  exact ⟨i, xs[i], hi, hlast, hx, value?_bindAll_of_last hi hlast hx env⟩

namespace Host

variable {h : Host} {self : Value → Eval Int} {name : String} {params : List String}
  {v payload : Value} {body args : List Value} {m m' : Machine}

/-! ### Sequences -/

theorem length_of_evalAll {vs : List Value} {xs : List Int} (hrun : evalAll self vs m = .ok xs m') :
    xs.length = vs.length := by
  induction vs generalizing xs m with
  | nil =>
    cases hrun
    rfl
  | cons v vs ih =>
    obtain ⟨x, m₁, -, hrest⟩ := Steps.bind_eq_ok_iff.mp hrun
    obtain ⟨ys, m₂, hys, hpure⟩ := Steps.bind_eq_ok_iff.mp hrest
    cases hpure
    rw [List.length_cons, List.length_cons, ih hys]

/-- **A body gives the value of its last statement**, each of which comes after a checkpoint. -/
theorem evalBody_eq (self : Value → Eval Int) (last : Int) (vs : List Value) :
    evalBody self last vs = (do
      let xs ← evalAll (fun v => do checkpoint Kind.function.name; self v) vs
      pure (xs.getLastD last)) := by
  induction vs generalizing last with
  | nil => rfl
  | cons v vs ih =>
    simp only [evalBody, evalAll, ih, bind_assoc, pure_bind, List.getLastD_cons]

/-! ### The stages of a call -/

/-- The call of a function that is not there leaves the machine alone. -/
theorem evalForm_call_of_none (hf : m.env.function? name = none) :
    h.evalForm self (.call name args) m
      = .error (.failure ⟨.undefinedFunction (.text name) m.env, none⟩) m := by
  refine Steps.bind_of_error ?_
  rw [functionOf_text, hf]

theorem evalForm_call_of_some {f : Callable} (hf : m.env.function? name = some f)
    (hsignature : h.graph.HasSignature f params body) :
    h.evalForm self (.call name args) m = h.callFunction self name params body args m := by
  have hfound : h.functionOf (.text name) m = .ok f m := by rw [functionOf_text, hf]
  rw [evalForm, Steps.bind_of_ok hfound, apply_of_hasSignature name args hsignature]

/-- So does a call with the wrong number of arguments. -/
theorem callFunction_of_length_ne (hlength : args.length ≠ params.length) (m : Machine) :
    h.callFunction self name params body args m
      = .error (.failure ⟨.arityMismatch (.text name) params.length args.length, none⟩) m := by
  rw [callFunction, if_pos hlength, fail_apply]

/-- **The arguments come first, then all the bindings, and then the body.** -/
theorem callFunction_apply (hlength : args.length = params.length) (m : Machine) :
    h.callFunction self name params body args m = match evalAll self args m with
      | .error halt m' => .error halt m'
      | .ok xs m' => inContext (evalBody self 0 body)
        { m' with
          env := m'.env.bindAll params xs
          log := if h.tracing then m'.log.push (.called name (params.zip xs)) else m'.log } := by
  rw [callFunction, if_neg (not_not.mpr hlength), Steps.bind_apply]
  cases evalAll self args m with
  | error halt m' => rfl
  | ok xs m' =>
    dsimp only
    rw [Steps.bind_of_ok (show changeEnv _ m' = .ok () _ from rfl),
      Steps.bind_of_ok (trace_apply h _ _)]

/-! ### Nodes -/

/-- A well-formed node with the tag of calls carries what its fields say. -/
theorem carries_call_of_wellFormed {g : Graph} {a : Value} (hv : g.WellFormed v)
    (hcall : g.node? v = some (Kind.call.name, payload))
    (hname : g.field payload "name" = .ok (.text name)) (hargs : g.field payload "args" = .ok a)
    (hitems : g.items a = .ok args) : g.Carries payload (.call name args) := by
  obtain ⟨form, payload', hnode, hcarries⟩ := hv.hasForm
  obtain ⟨htag, rfl⟩ := Prod.mk.inj (Option.some.inj (hcall.symm.trans hnode))
  have hkind : Kind.call = form.kind := Kind.name_injective htag
  cases form with
  | call name' args' =>
    obtain ⟨⟨hname', hne⟩, a', hargs', hsequence, hitems'⟩ := hcarries
    obtain rfl := Value.text.inj (Except.ok.inj (hname'.symm.trans hname))
    obtain rfl := Except.ok.inj (hargs'.symm.trans hargs)
    obtain rfl := Except.ok.inj (hitems'.symm.trans hitems)
    exact ⟨⟨hname, hne⟩, a', hargs, hsequence, hitems⟩
  | _ => cases hkind

/-- The call, as such and as a node, fails at once and leaves the machine as it was, but for the
line of a trace that shows the node. -/
def RefusesCall (h : Host) (depth : Nat) (v : Value) (m : Machine) (failure : Failure) : Prop :=
  h.evalKind (h.eval depth) .call v m = .error (.failure ⟨failure, none⟩) m
    ∧ h.eval (depth + 1) v m = .error (.failure ⟨failure, none⟩)
      { m with log := if h.tracing then m.log.push (.visited Kind.call.name) else m.log }

/-- A call that fails whatever the context and the log are is refused. -/
theorem refusesCall_of_forall {depth : Nat} {failure : Failure}
    (heval : h.eval (depth + 1) v = inContext (do
      trace h (.visited Kind.call.name)
      h.evalKind (h.eval depth) .call v))
    (hfail : ∀ context log, h.evalKind (h.eval depth) .call v ⟨m.env, context, log⟩
      = .error (.failure ⟨failure, none⟩) ⟨m.env, context, log⟩) :
    h.RefusesCall depth v m failure := by
  refine ⟨hfail m.context m.log, ?_⟩
  rw [heval]
  refine inContext_eq_error fun context => ?_
  rw [Steps.bind_of_ok (trace_apply h _ _)]
  exact hfail context _

/-- **Calls check before they act, bind all parameters at once, and run the function that they have
found.** Take a call of `name` that validation accepts, a machine whose functions pass validation,
and any context or none. If the name has no function, or one with another number of parameters, the
call fails and leaves the machine as it was. Otherwise the arguments are evaluated from left to
right. If they have values, then the statements that run are those of the function that the name
had before. They start from what the arguments have left, with every parameter bound to the value
at its last position; and the value of the call is that of the last statement, or zero if there is
none. -/
theorem eval_call (h : Host) (v payload a : Value) (name : String) (args : List Value) (m : Machine)
    (depth : Nat) (tracing : Bool) (room : Nat) (location : Location) (start : Survey)
    (hvalid : (h.graph.validateNode tracing room location v start).1 = .ok ())
    (hcall : h.graph.node? v = some (Kind.call.name, payload))
    (hname : h.graph.field payload "name" = .ok (.text name))
    (hargs : h.graph.field payload "args" = .ok a) (hitems : h.graph.items a = .ok args)
    (hfunctions : ∀ g f, m.env.function? g = some f → h.graph.AcceptsFunction f) :
    h.eval (depth + 1) v = inContext (do
        trace h (.visited Kind.call.name)
        h.evalKind (h.eval depth) .call v)
    ∧ (m.env.function? name = none →
      h.RefusesCall depth v m (.undefinedFunction (.text name) m.env))
    ∧ ∀ f, m.env.function? name = some f → ∃ params body, h.graph.HasSignature f params body
      ∧ (args.length ≠ params.length →
        h.RefusesCall depth v m (.arityMismatch (.text name) params.length args.length))
      ∧ (args.length = params.length →
        (∀ halt m', evalAll (h.eval depth) args m = .error halt m' →
          h.evalKind (h.eval depth) .call v m = .error halt m')
        ∧ ∀ xs m', evalAll (h.eval depth) args m = .ok xs m' →
          xs.length = args.length ∧ ∃ env : Env, env.functions = m'.env.functions
            ∧ (∀ x, x ∉ params → env.value? x = m'.env.value? x)
            ∧ (∀ x ∈ params, ∃ (i : Nat) (n : Int), params[i]? = some x
              ∧ (∀ j : Nat, i < j → params[j]? ≠ some x) ∧ xs[i]? = some n
              ∧ env.value? x = some n)
            ∧ h.evalKind (h.eval depth) .call v m = inContext (do
                let ys ← evalAll (fun s => do checkpoint Kind.function.name; h.eval depth s) body
                pure (ys.getLastD 0))
              { m' with
                env := env
                log := if h.tracing then m'.log.push (.called name (params.zip xs))
                  else m'.log }) := by
  have hcarries := carries_call_of_wellFormed (Graph.wellFormed_of_validateNode hvalid) hcall hname
    hargs hitems
  have hkind : h.evalKind (h.eval depth) .call v = h.evalForm (h.eval depth) (.call name args) :=
    evalKind_of_carries (Graph.payload_of_node? hcall) hcarries
  have heval : h.eval (depth + 1) v = inContext (do
      trace h (.visited Kind.call.name)
      h.evalKind (h.eval depth) .call v) := by
    rw [eval_succ, evalNode_of_hasForm ⟨payload, hcall, hcarries⟩, hkind]
    rfl
  refine ⟨heval, fun hnone => ?_, fun f hf => ?_⟩
  · refine refusesCall_of_forall heval fun context log => ?_
    rw [hkind]
    exact evalForm_call_of_none hnone
  · obtain ⟨params, body, hsignature, -⟩ :=
      Graph.exists_signature_of_acceptsFunction (hfunctions name f hf)
    refine ⟨params, body, hsignature, fun hlength => ?_, fun hlength => ?_⟩
    · refine refusesCall_of_forall heval fun context log => ?_
      rw [hkind]
      exact (evalForm_call_of_some (m := ⟨m.env, context, log⟩) hf hsignature).trans
        (callFunction_of_length_ne hlength _)
    · rw [hkind, evalForm_call_of_some hf hsignature, callFunction_apply hlength]
      refine ⟨fun halt m' hrun => by rw [hrun], fun xs m' hrun => ?_⟩
      have hxs : xs.length = args.length := length_of_evalAll hrun
      refine ⟨hxs, m'.env.bindAll params xs, m'.env.functions_bindAll params xs,
        fun x hx => Env.value?_bindAll_of_notMem hx m'.env xs,
        fun x hx => Env.exists_value?_bindAll (hxs.trans hlength) m'.env hx, ?_⟩
      rw [hrun, ← evalBody_eq]

/-- A function of two parameters of one name, which gives the value of its parameter, and a call of
`g` whose first argument gives `g` no parameters and another body. -/
def redefinesItself : Graph where
  objects := #[
    .list [.text "p", .text "p"], .list [],
    .record ⟨[("type", .text "VARIABLE"), ("value", .text "p")]⟩, .list [.ref 2],
    .record ⟨[("type", .text "NUMBER"), ("value", .int 3)]⟩, .list [.ref 4],
    .record ⟨[("name", .text "g"), ("params", .ref 1), ("body", .ref 5)]⟩,
    .record ⟨[("type", .text "FUNCTION_DEF"), ("value", .ref 6)]⟩,
    .record ⟨[("type", .text "NUMBER"), ("value", .int 8)]⟩, .list [.ref 7, .ref 8],
    .record ⟨[("name", .text "g"), ("args", .ref 9)]⟩,
    .record ⟨[("type", .text "FUNCTION_CALL"), ("value", .ref 10)]⟩,
    .record ⟨[("params", .ref 0), ("body", .ref 3)]⟩,
    .record ⟨[("type", .text "FUNCTION"), ("value", .ref 12)]⟩]

/-- The call runs the statement of the old function, with the value of the second argument. -/
theorem redefinesItself_call :
    ((redefinesItself.validateNode false 9 ⟨"FUNCTION_CALL", []⟩ (.ref 11) {}).1 = .ok ()
      ∧ redefinesItself.node? (.ref 11) = some (Kind.call.name, .ref 10)
      ∧ redefinesItself.field (.ref 10) "name" = .ok (.text "g")
      ∧ redefinesItself.field (.ref 10) "args" = .ok (.ref 9)
      ∧ redefinesItself.items (.ref 9) = .ok [.ref 7, .ref 8]
      ∧ redefinesItself.AcceptsFunction (.given (.ref 13)))
    ∧ ∃ env : Env, env.functions = ⟨[("g", .defined (.ref 1) (.ref 5))]⟩
      ∧ env.value? "p" = some 8
      ∧ (⟨redefinesItself, false, 9, 9, 9⟩ : Host).evalKind
          ((⟨redefinesItself, false, 9, 9, 9⟩ : Host).eval 8) .call (.ref 11)
          { env := { functions := ⟨[("g", .given (.ref 13))]⟩ } }
        = inContext (do
            let ys ← evalAll (fun s => do
              checkpoint Kind.function.name
              (⟨redefinesItself, false, 9, 9, 9⟩ : Host).eval 8 s) [.ref 2]
            pure (ys.getLastD 0)) { env := env } := by
  have hvalid : (redefinesItself.validateNode false 9 ⟨"FUNCTION_CALL", []⟩ (.ref 11) {}).1
      = .ok () := by decide
  have haccepts : redefinesItself.AcceptsFunction (.given (.ref 13)) :=
    ⟨.ref 13, redefinesItself, rfl, ⟨.ref 12, by decide⟩, 9, by decide⟩
  have hsignature : redefinesItself.HasSignature (.given (.ref 13)) ["p", "p"] [.ref 2] :=
    ⟨⟨.ref 0, rfl, rfl, rfl⟩, by decide, .ref 3, rfl, rfl, rfl⟩
  refine ⟨⟨hvalid, rfl, rfl, rfl, rfl, haccepts⟩, ?_⟩
  obtain ⟨params, body, hsignature', -, hcall⟩ := (eval_call ⟨redefinesItself, false, 9, 9, 9⟩
    (.ref 11) (.ref 10) (.ref 9) "g" [.ref 7, .ref 8]
    { env := { functions := ⟨[("g", .given (.ref 13))]⟩ } } 8 false 9 ⟨"FUNCTION_CALL", []⟩ {}
    hvalid rfl rfl rfl rfl (Graph.AcceptsFunctions.singleton haccepts)).2.2 _ rfl
  obtain ⟨rfl, rfl⟩ := hsignature'.eq hsignature
  obtain ⟨-, env, hfunctions, -, hparams, hrun⟩ := (hcall rfl).2 [0, 8]
    { env := { functions := ⟨[("g", .defined (.ref 1) (.ref 5))]⟩ } } rfl
  refine ⟨env, hfunctions, ?_, hrun⟩
  obtain ⟨i, n, hi, hlast, hn, hp⟩ := hparams "p" (List.mem_cons_self ..)
  -- the second position is the last one
  match i, hi with
  | 0, _ => exact absurd rfl (hlast 1 Nat.zero_lt_one)
  | 1, _ => rwa [show n = 8 from (Option.some.inj hn).symm] at hp

end Host

end Treewalk
