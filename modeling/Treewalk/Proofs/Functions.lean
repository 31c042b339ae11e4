import Treewalk.Proofs.Decision

/-!
## Functions that pass validation

A function in an environment is a node, or the parameters and the body of a definition, which
become a node when one is asked for. `Graph.AcceptsFunction` says that this node passes
validation.

* `WellFormed.transfer`: a graph that has all the objects of another has all its well-formed
  nodes.
* `acceptsFunction_defined_iff`: the function of a definition passes exactly when its parameters
  and its body can be read and its statements are well formed, so that the node that would be
  made of it need not be looked at.
* `exists_signature_of_acceptsFunction`: every function that passes can be read in this way.
-/

namespace Treewalk.Graph

open Relation

variable {g g' : Graph} {v w p b payload : Value} {form : Form} {function : Callable}
  {names : List String} {statements : List Value}

/-! ### Graphs with more objects -/

theorem field_transfer {key : String}
    (hrecord : ∀ fields, g.record? payload = some fields → g'.record? payload = some fields)
    (h : g.field payload key = .ok v) : g'.field payload key = .ok v := by
  obtain ⟨fields, hrec, hget⟩ := record?_of_field_eq_ok h
  rw [field, hrecord fields hrec]
  simp [hget]

/-- What a payload carries depends on its own record and on the sequences. -/
theorem Carries.transfer
    (hrecord : ∀ fields, g.record? payload = some fields → g'.record? payload = some fields)
    (hseq : ∀ v items, g.IsSequenceOf v items → g'.IsSequenceOf v items)
    (h : g.Carries payload form) : g'.Carries payload form := by
  have hfield : ∀ key value, g.field payload key = .ok value → g'.field payload key = .ok value :=
    fun key value => field_transfer hrecord
  have hitems : ∀ key items, g.HoldsItems payload key items → g'.HoldsItems payload key items :=
    fun key items ⟨v, hv, hitems⟩ => ⟨v, hfield _ _ hv, hseq _ _ hitems⟩
  cases form with
  | number n => exact h
  | lookup name => exact h
  | print expr => exact h
  | assignment name expr =>
    obtain ⟨⟨hname, hne⟩, hexpr, hsome⟩ := h
    exact ⟨⟨hfield _ _ hname, hne⟩, hfield _ _ hexpr, hsome⟩
  | arithmetic op left right | comparison op left right =>
    obtain ⟨hop, ⟨hleft, hl⟩, hright, hr⟩ := h
    exact ⟨hfield _ _ hop, ⟨hfield _ _ hleft, hl⟩, hfield _ _ hright, hr⟩
  | conditional condition body =>
    obtain ⟨⟨hcondition, hc⟩, hbody, hb⟩ := h
    exact ⟨⟨hfield _ _ hcondition, hc⟩, hfield _ _ hbody, hb⟩
  | alternative condition body otherwise =>
    obtain ⟨⟨hcondition, hc⟩, ⟨hbody, hb⟩, hotherwise, ho⟩ := h
    exact ⟨⟨hfield _ _ hcondition, hc⟩, ⟨hfield _ _ hbody, hb⟩, hfield _ _ hotherwise, ho⟩
  | loop condition body =>
    obtain ⟨⟨hcondition, hc⟩, hbody⟩ := h
    exact ⟨⟨hfield _ _ hcondition, hc⟩, hitems _ _ hbody⟩
  | definition name function params body =>
    obtain ⟨⟨hname, hne⟩, ⟨p, b, hp, hb, rfl⟩, hsignature⟩ := h
    obtain ⟨hparams, hnes, hbody⟩ := hasSignature_defined_iff.mp hsignature
    exact ⟨⟨hfield _ _ hname, hne⟩, ⟨p, b, hfield _ _ hp, hfield _ _ hb, rfl⟩,
      hasSignature_defined_iff.mpr ⟨hseq _ _ hparams, hnes, hseq _ _ hbody⟩⟩
  | function params body =>
    obtain ⟨⟨hparams, hnes⟩, hbody⟩ := h
    exact ⟨⟨hitems _ _ hparams, hnes⟩, hitems _ _ hbody⟩
  | call name args =>
    obtain ⟨⟨hname, hne⟩, hargs⟩ := h
    exact ⟨⟨hfield _ _ hname, hne⟩, hitems _ _ hargs⟩

theorem record?_eq_of_object? (h : g'.object? v = g.object? v) : g'.record? v = g.record? v := by
  rw [record?, record?, h]

theorem node?_eq_of_object? (h : g'.object? v = g.object? v) : g'.node? v = g.node? v := by
  rw [node?, node?, record?_eq_of_object? h]

theorem IsSequenceOf.of_object? {items : List Value} (h : g'.object? v = g.object? v)
    (hv : g.IsSequenceOf v items) : g'.IsSequenceOf v items := by
  unfold IsSequenceOf isSequence Graph.items at *
  rwa [h]

theorem IsSequenceOf.transfer {items : List Value}
    (hobject : ∀ v o, g.object? v = some o → g'.object? v = some o)
    (h : g.IsSequenceOf v items) : g'.IsSequenceOf v items := by
  cases ho : g.object? v with
  | none => simp [IsSequenceOf, isSequence, ho] at h
  | some o => exact h.of_object? (by rw [hobject v o ho, ho])

theorem record?_transfer (hobject : ∀ v o, g.object? v = some o → g'.object? v = some o)
    {fields : Table Value} (h : g.record? v = some fields) : g'.record? v = some fields := by
  unfold record? at *
  cases ho : g.object? v with
  | none => simp [ho] at h
  | some o => rwa [hobject v o ho, ← ho]

theorem node?_transfer (hobject : ∀ v o, g.object? v = some o → g'.object? v = some o)
    {tag : String} (h : g.node? v = some (tag, payload)) : g'.node? v = some (tag, payload) := by
  obtain ⟨fields, hrec, htag, hpayload⟩ := node?_eq_some_iff.mp h
  exact node?_eq_some_iff.mpr ⟨fields, record?_transfer hobject hrec, htag, hpayload⟩

theorem HasForm.transfer (hobject : ∀ v o, g.object? v = some o → g'.object? v = some o)
    (h : g.HasForm v form) : g'.HasForm v form := by
  obtain ⟨payload, hnode, hcarries⟩ := h
  exact ⟨payload, node?_transfer hobject hnode,
    hcarries.transfer (fun _ => record?_transfer hobject) fun _ _ => IsSequenceOf.transfer hobject⟩

/-- **Well-formed nodes stay well formed** in a graph that has all the objects. -/
theorem WellFormed.transfer (hobject : ∀ v o, g.object? v = some o → g'.object? v = some o)
    (h : g.WellFormed v) : g'.WellFormed v := by
  induction h with
  | node hform _ ih => exact .node (hform.transfer hobject) ih

/-! ### The node of a definition -/

/-- The graph with a function node added, and a payload that holds `p` and `b` before it. -/
def withFunction (g : Graph) (p b : Value) : Graph where
  objects := (g.objects.push (.record ⟨[("params", p), ("body", b)]⟩)).push
    (.record ⟨[("type", .text Kind.function.name), ("value", .ref g.objects.size)]⟩)

theorem node_defined : (Callable.defined p b).node g
    = .ok (.ref (g.objects.size + 1)) (g.withFunction p b) := by
  show EStateM.Result.ok (Value.ref (g.objects.push _).size) _ = _
  rw [Array.size_push]
  rfl

theorem object?_withFunction_payload : (g.withFunction p b).object? (.ref g.objects.size)
    = some (.record ⟨[("params", p), ("body", b)]⟩) := by
  have hne : g.objects.size ≠ (g.objects.push (.record ⟨[("params", p), ("body", b)]⟩)).size := by
    rw [Array.size_push]
    omega
  rw [object?, withFunction, Array.getElem?_push, if_neg hne, Array.getElem?_push, if_pos rfl]

theorem object?_withFunction_node : (g.withFunction p b).object? (.ref (g.objects.size + 1))
    = some (.record ⟨[("type", .text Kind.function.name), ("value", .ref g.objects.size)]⟩) := by
  rw [object?, withFunction, Array.getElem?_push, if_pos (Array.size_push ..).symm]

theorem object?_withFunction_of_ne (hpayload : v ≠ .ref g.objects.size)
    (hnode : v ≠ .ref (g.objects.size + 1)) : (g.withFunction p b).object? v = g.object? v := by
  cases v with
  | ref id =>
    have hid : id ≠ g.objects.size := fun heq => hpayload (by rw [heq])
    have hid' : id ≠ g.objects.size + 1 := fun heq => hnode (by rw [heq])
    simp [withFunction, object?, Array.getElem?_push, hid, hid']
  | _ => rfl

theorem object?_withFunction {o : Object} (h : g.object? v = some o) :
    (g.withFunction p b).object? v = some o := by
  have hlt : ∀ id, v = .ref id → id < g.objects.size := by
    rintro id rfl
    exact (Array.getElem?_eq_some_iff.mp h).1
  rw [object?_withFunction_of_ne, h]
  · exact fun heq => absurd (hlt _ heq) (by omega)
  · exact fun heq => absurd (hlt _ heq) (by omega)

theorem node?_withFunction_node : (g.withFunction p b).node? (.ref (g.objects.size + 1))
    = some (Kind.function.name, .ref g.objects.size) :=
  node?_eq_some_iff.mpr ⟨_, by rw [record?, object?_withFunction_node], rfl, rfl⟩

theorem node?_withFunction_payload : (g.withFunction p b).node? (.ref g.objects.size) = none := by
  rw [node?, record?, object?_withFunction_payload]
  rfl

/-! ### No well-formed node uses the added objects -/

theorem field_withFunction_node {key : String} (htype : key ≠ "type") (hvalue : key ≠ "value") :
    (g.withFunction p b).field (.ref (g.objects.size + 1)) key = .error (.missingKey key) := by
  rw [field, record?, object?_withFunction_node]
  simp [Table.get?, Table.findEntry, htype, hvalue]

theorem field_withFunction_payload {key : String} (hparams : key ≠ "params")
    (hbody : key ≠ "body") :
    (g.withFunction p b).field (.ref g.objects.size) key = .error (.missingKey key) := by
  rw [field, record?, object?_withFunction_payload]
  simp [Table.get?, Table.findEntry, hparams, hbody]

/-- Only printing can have the added node as its payload. -/
theorem eq_print_of_carries_node
    (h : (g.withFunction p b).Carries (.ref (g.objects.size + 1)) form) :
    form = .print (.ref (g.objects.size + 1)) := by
  cases form <;>
    simp [Carries, HoldsName, Holds, HoldsNames, HoldsItems, field_withFunction_node] at h ⊢
  exact h.1.symm

/-- Only printing and a function can have the added payload as their payload. -/
theorem eq_of_carries_payload (h : (g.withFunction p b).Carries (.ref g.objects.size) form) :
    form = .print (.ref g.objects.size)
      ∨ ∃ names statements, form = .function names statements := by
  cases form <;>
    simp [Carries, HoldsName, Holds, field_withFunction_payload] at h ⊢
  exact h.1.symm

theorem isSequenceOf_of_withFunction {items : List Value}
    (h : (g.withFunction p b).IsSequenceOf v items) : g.IsSequenceOf v items := by
  refine h.of_object? (object?_withFunction_of_ne ?_ ?_).symm
  · rintro rfl
    simp [IsSequenceOf, isSequence, object?_withFunction_payload] at h
  · rintro rfl
    simp [IsSequenceOf, isSequence, object?_withFunction_node] at h

/-- What is well formed below the added node was well formed before: it can have neither of the
added objects as its payload without being above itself. -/
theorem wellFormed_of_withFunction (h : (g.withFunction p b).WellFormed w)
    (hbelow : (g.withFunction p b).StrictlyReaches (.ref (g.objects.size + 1)) w)
    (hacyclic : ¬ (g.withFunction p b).StrictlyReaches (.ref (g.objects.size + 1))
      (.ref (g.objects.size + 1))) : g.WellFormed w := by
  induction h with
  | @node w form hform hchildren ih =>
    have hw : (g.withFunction p b).WellFormed w := .node hform hchildren
    have hedge : ∀ c ∈ form.children, (g.withFunction p b).IsChild w c :=
      fun c hc => (isChild_iff hform).mpr hc
    obtain ⟨payload, hnode, hcarries⟩ := hform
    -- `w` is neither of the added objects: the node is above it, and the payload is no node
    have hne : w ≠ .ref (g.objects.size + 1) := by
      rintro rfl
      exact hacyclic hbelow
    have hobject : g.object? w = (g.withFunction p b).object? w := by
      refine (object?_withFunction_of_ne ?_ hne).symm
      rintro rfl
      rw [node?_withFunction_payload] at hnode
      cases hnode
    by_cases hpayload : payload = .ref g.objects.size
    · subst hpayload
      rcases eq_of_carries_payload hcarries with rfl | ⟨names, statements, rfl⟩
      · -- the payload would be a child, but it is no node
        obtain ⟨form, payload, hnode', -⟩ := (hchildren _ (List.mem_singleton_self _)).hasForm
        rw [node?_withFunction_payload] at hnode'
        cases hnode'
      · -- the node has the children of the added node, above one of which it stands
        obtain ⟨c, hc, hcw⟩ := TransGen.head'_iff.mp hbelow
        have hchild := (isChild_iff ⟨_, node?_withFunction_node, hcarries⟩).mp hc
        exact absurd (TransGen.head' (hedge c hchild) hcw) hw.not_strictlyReaches_self
    by_cases hpayload' : payload = .ref (g.objects.size + 1)
    · -- the added node would be a child, and so below itself
      subst hpayload'
      obtain rfl := eq_print_of_carries_node hcarries
      exact absurd (TransGen.tail hbelow (hedge _ (List.mem_singleton_self _))) hacyclic
    refine .node ⟨payload, ?_, hcarries.transfer ?_ fun v items => isSequenceOf_of_withFunction⟩
      fun c hc => ih c hc (TransGen.tail hbelow (hedge c hc))
    · rwa [node?_eq_of_object? hobject]
    · intro fields hrec
      rwa [← record?_eq_of_object? (object?_withFunction_of_ne hpayload hpayload')]

/-! ### Functions that pass -/

/-- The function, as a node, is a function and passes validation. -/
def AcceptsFunction (g : Graph) (function : Callable) : Prop :=
  ∃ v g', function.node g = .ok v g'
    ∧ (∃ payload, g'.node? v = some (Kind.function.name, payload))
    ∧ ∃ depth, (g'.validateNode false depth ⟨Kind.function.name, []⟩ v {}).1 = .ok ()

/-- A node passes as a function if it has the form of one and its statements are well formed. -/
theorem acceptsFunction_iff_of_node (hnode : function.node g = .ok v g') :
    g.AcceptsFunction function
      ↔ ∃ names statements, g'.HasForm v (.function names statements)
        ∧ ∀ s ∈ statements, g'.WellFormed s := by
  unfold AcceptsFunction
  rw [hnode]
  constructor
  · rintro ⟨v, g', hsame, ⟨payload, htag⟩, depth, haccepted⟩
    cases hsame
    cases wellFormed_of_validateNode haccepted with
    | @node _ form hform hchildren =>
      have hkind : form.kind = .function := by
        obtain ⟨payload', hnode', -⟩ := hform
        rw [htag] at hnode'
        exact Kind.name_injective (congrArg Prod.fst (Option.some.inj hnode')).symm
      cases form with
      | function names statements => exact ⟨names, statements, hform, hchildren⟩
      | _ => cases hkind
  · rintro ⟨names, statements, hform, hstatements⟩
    obtain ⟨payload, hnode', hcarries⟩ := hform
    refine ⟨v, g', rfl, ⟨payload, hnode'⟩, g'.objects.size + 1, ?_⟩
    exact (validateNode_eq_ok_iff (Nat.lt_succ_self _)).mpr
      (.node ⟨payload, hnode', hcarries⟩ hstatements)

theorem hasSignature_given (hform : g.HasForm v (.function names statements)) :
    g.HasSignature (.given v) names statements := by
  obtain ⟨payload, hnode, ⟨⟨ps, hparams, hnames⟩, hne⟩, bs, hbody, hstatements⟩ := hform
  have hread := payload_of_node? hnode
  exact ⟨⟨ps, by rw [Callable.params, hread]; exact hparams, hnames⟩, hne, bs,
    by rw [Callable.body, hread]; exact hbody, hstatements⟩

theorem field_withFunction_params :
    (g.withFunction p b).field (.ref g.objects.size) "params" = .ok p := by
  rw [field, record?, object?_withFunction_payload]
  rfl

theorem field_withFunction_body :
    (g.withFunction p b).field (.ref g.objects.size) "body" = .ok b := by
  rw [field, record?, object?_withFunction_payload]
  rfl

/-- The node that is made of a definition has the form that can be read off the definition. -/
theorem hasForm_withFunction (hsignature : g.HasSignature (.defined p b) names statements) :
    (g.withFunction p b).HasForm (.ref (g.objects.size + 1)) (.function names statements) := by
  obtain ⟨hnames, hne, hitems⟩ := hasSignature_defined_iff.mp hsignature
  have hseq : ∀ v items, g.IsSequenceOf v items → (g.withFunction p b).IsSequenceOf v items :=
    fun v items => IsSequenceOf.transfer fun v o => object?_withFunction
  exact ⟨_, node?_withFunction_node, ⟨⟨p, field_withFunction_params, hseq _ _ hnames⟩, hne⟩,
    b, field_withFunction_body, hseq _ _ hitems⟩

/-- **The function of a definition passes** exactly when its parameters and its body can be read
and its statements are well formed. -/
theorem acceptsFunction_defined_iff : g.AcceptsFunction (.defined p b)
    ↔ ∃ names statements, g.HasSignature (.defined p b) names statements
      ∧ ∀ s ∈ statements, g.WellFormed s := by
  rw [acceptsFunction_iff_of_node node_defined]
  constructor
  · rintro ⟨names, statements, hform, hstatements⟩
    have hacyclic := (WellFormed.node hform hstatements).not_strictlyReaches_self
    have hbelow : ∀ s ∈ statements, (g.withFunction p b).StrictlyReaches
        (.ref (g.objects.size + 1)) s :=
      fun s hs => TransGen.single ((isChild_iff hform).mpr hs)
    obtain ⟨payload, hnode, ⟨⟨ps, hparams, hnames⟩, hne⟩, bs, hbody, hitems⟩ := hform
    rw [node?_withFunction_node] at hnode
    cases hnode
    rw [field_withFunction_params] at hparams
    rw [field_withFunction_body] at hbody
    cases hparams
    cases hbody
    exact ⟨names, statements, hasSignature_defined_iff.mpr
      ⟨isSequenceOf_of_withFunction hnames, hne, isSequenceOf_of_withFunction hitems⟩,
      fun s hs => wellFormed_of_withFunction (hstatements s hs) (hbelow s hs) hacyclic⟩
  · rintro ⟨names, statements, hsignature, hstatements⟩
    exact ⟨names, statements, hasForm_withFunction hsignature,
      fun s hs => (hstatements s hs).transfer fun v o => object?_withFunction⟩

/-- A function that passes can be called: its parameters and its body can be read, and its
statements are well formed. -/
theorem exists_signature_of_acceptsFunction (h : g.AcceptsFunction function) :
    ∃ names statements, g.HasSignature function names statements
      ∧ ∀ s ∈ statements, g.WellFormed s := by
  cases function with
  | given v =>
    -- its node is there already, in the graph as it is
    obtain ⟨names, statements, hform, hstatements⟩ :=
      (acceptsFunction_iff_of_node (show (Callable.given v).node g = .ok v g from rfl)).mp h
    exact ⟨names, statements, hasSignature_given hform, hstatements⟩
  | defined p b => exact acceptsFunction_defined_iff.mp h

end Treewalk.Graph
