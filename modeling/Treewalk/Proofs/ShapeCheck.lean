import Mathlib.Data.List.Basic
import Treewalk.Proofs.Form

/-!
## What the check of a single node decides

* `shape_iff_hasForm`: the values that pass the check are exactly those that have a form
  (`Treewalk.Proofs.Form`). The two halves are `carries_of_checkPayload` and
  `checkPayload_of_carries`, and each question of the check has a lemma that says when it is
  affirmed.
* `HasForm.eq`: no value has two forms.
* `shape_eq_fault_iff`: the check can fail without a violation in one way only, when it has to
  ask whether an operator is known that cannot serve as a key.
-/

namespace Treewalk

namespace Graph

variable {g : Graph} {payload v : Value} {kind : Kind}

/-! ### Steps that can fail -/

theorem except_bind_eq_ok_iff {ε α β : Type} {x : Except ε α} {f : α → Except ε β} {b : β} :
    (x >>= f) = .ok b ↔ ∃ a, x = .ok a ∧ f a = .ok b := by
  cases x <;> simp [bind, Except.bind]

theorem except_seq_eq_ok_iff {ε : Type} {x y : Except ε Unit} :
    (x >>= fun _ => y) = .ok () ↔ x = .ok () ∧ y = .ok () := by
  cases x <;> simp [bind, Except.bind]

theorem except_bind_eq_error_iff {ε α β : Type} {x : Except ε α} {f : α → Except ε β} {e : ε} :
    (x >>= f) = .error e ↔ x = .error e ∨ ∃ a, x = .ok a ∧ f a = .error e := by
  cases x <;> simp [bind, Except.bind]

/-! ### Fields -/

theorem field_eq_ok_iff {fields : Table Value} {key : String} {value : Value}
    (hrec : g.record? payload = some fields) :
    g.field payload key = .ok value ↔ fields.get? key = some value := by
  unfold field
  rw [hrec]
  cases h : fields.get? key <;> simp [h]

theorem holds_iff {fields : Table Value} {key : String} {value : Value}
    (hrec : g.record? payload = some fields) :
    g.Holds payload key value ↔ held fields key = value ∧ value ≠ .absent := by
  unfold Holds held
  rw [field_eq_ok_iff hrec]
  cases h : fields.get? key with
  | none =>
    -- a missing field holds nothing, and nothing is not held
    constructor
    · rintro ⟨hnone, -⟩
      cases hnone
    · rintro ⟨rfl, hne⟩
      exact absurd rfl hne
  | some w => simp

/-- A field that has been asked for holds what it holds. -/
theorem holds_held {fields : Table Value} {key : String} (hrec : g.record? payload = some fields)
    (h : held fields key ≠ .absent) : g.Holds payload key (held fields key) :=
  (holds_iff hrec).mpr ⟨rfl, h⟩

theorem held_of_field {fields : Table Value} {key : String} {value : Value}
    (hrec : g.record? payload = some fields) (h : g.field payload key = .ok value) :
    held fields key = value := by
  rw [held, (field_eq_ok_iff hrec).mp h, Option.getD_some]

/-! ### Sequences -/

theorem isSequence_iff : g.isSequence v = true ↔ ∃ items, g.IsSequenceOf v items := by
  constructor
  · intro h
    have hitems : ∃ items, g.items v = .ok items := by
      unfold isSequence at h
      unfold items
      cases v with
      | ref id =>
        cases ho : g.object? (.ref id) with
        | none => simp [ho] at h
        | some o => cases o <;> simp_all
      | _ => simp [object?] at h
    obtain ⟨items, hitems⟩ := hitems
    exact ⟨items, h, hitems⟩
  · rintro ⟨items, h, -⟩
    exact h

theorem ne_absent_of_isSequence (h : g.isSequence v = true) : v ≠ .absent := by
  rintro rfl
  simp [isSequence, object?] at h

theorem holdsName_iff {fields : Table Value} {key name : String}
    (hrec : g.record? payload = some fields) :
    g.HoldsName payload key name ↔ held fields key = .text name ∧ name ≠ "" := by
  constructor
  · rintro ⟨hfield, hne⟩
    exact ⟨held_of_field hrec hfield, hne⟩
  · rintro ⟨hheld, hne⟩
    exact ⟨((holds_iff hrec).mpr ⟨hheld, by simp⟩).1, hne⟩

theorem holdsItems_iff {fields : Table Value} {key : String} {items : List Value}
    (hrec : g.record? payload = some fields) :
    g.HoldsItems payload key items ↔ g.IsSequenceOf (held fields key) items := by
  constructor
  · rintro ⟨w, hfield, hitems⟩
    rwa [held_of_field hrec hfield]
  · intro hitems
    exact ⟨_, (holds_held hrec (ne_absent_of_isSequence hitems.1)).1, hitems⟩

theorem hasSignature_defined_iff {p b : Value} {params : List String} {body : List Value} :
    g.HasSignature (.defined p b) params body ↔ g.IsSequenceOf p (params.map .text)
      ∧ (∀ name ∈ params, name ≠ "") ∧ g.IsSequenceOf b body := by
  constructor
  · rintro ⟨⟨_, ⟨⟩, hparams⟩, hne, _, ⟨⟩, hbody⟩
    exact ⟨hparams, hne, hbody⟩
  · rintro ⟨hparams, hne, hbody⟩
    exact ⟨⟨p, rfl, hparams⟩, hne, b, rfl, hbody⟩

/-! ### When a question is affirmed -/

theorem demand_eq_ok_iff {ok : Bool} {otherwise : Violation} :
    demand ok otherwise = .ok () ↔ ok = true := by
  cases ok <;> simp [demand]

theorem forM_demand_eq_ok_iff {α : Type} {ok : α → Bool} {otherwise : α → Violation} {xs : List α} :
    (xs.forM fun x => demand (ok x) (otherwise x)) = .ok () ↔ ∀ x ∈ xs, ok x = true := by
  induction xs with
  | nil => simp [pure, Except.pure]
  | cons x xs ih =>
    show (demand (ok x) (otherwise x) >>= fun _ => xs.forM _) = .ok () ↔ _
    rw [except_bind_eq_ok_iff, List.forall_mem_cons, ← ih]
    constructor
    · rintro ⟨u, hx, hxs⟩
      exact ⟨demand_eq_ok_iff.mp hx, hxs⟩
    · rintro ⟨hx, hxs⟩
      exact ⟨(), demand_eq_ok_iff.mpr hx, hxs⟩

theorem isIdentifier_iff {name : Value} :
    name.isIdentifier = true ↔ ∃ s, name = .text s ∧ s ≠ "" := by
  cases name <;> simp [Value.isIdentifier]

theorem requireFields_eq_ok_iff {keys : List String} {fields : Table Value} :
    g.requireFields payload keys = .ok fields
      ↔ g.record? payload = some fields ∧ ∀ key ∈ keys, held fields key ≠ .absent := by
  unfold requireFields
  cases hrec : g.record? payload with
  | none => simp
  | some fields' =>
    simp only [Option.some.injEq]
    rw [except_bind_eq_ok_iff]
    constructor
    · rintro ⟨u, hkeys, heq⟩
      cases heq
      exact ⟨rfl, by simpa using forM_demand_eq_ok_iff.mp hkeys⟩
    · rintro ⟨rfl, hkeys⟩
      exact ⟨(), forM_demand_eq_ok_iff.mpr (by simpa using hkeys), rfl⟩

theorem requireIdentifier_eq_ok_iff {name : Value} :
    requireIdentifier name = .ok () ↔ ∃ s, name = .text s ∧ s ≠ "" :=
  demand_eq_ok_iff.trans isIdentifier_iff

theorem requireSequence_eq_ok_iff {fields : Table Value} {key : String} :
    g.requireSequence fields key = .ok () ↔ g.isSequence (held fields key) = true :=
  demand_eq_ok_iff

theorem requireOperator_eq_ok_iff {known : String → Bool} {op : Value} :
    g.requireOperator kind known op = .ok () ↔ ∃ s, op = .text s ∧ known s = true := by
  unfold requireOperator
  cases op with
  | text s =>
    rw [lookUp?_text]
    cases h : known s <;> simp [h]
  | _ =>
    unfold lookUp? lookUpBy
    cases hkey : g.isKey _ <;> simp [Value.text?]

/-- Values that are all identifiers are texts, none of them empty. -/
theorem forall_isIdentifier_iff {items : List Value} :
    (∀ item ∈ items, item.isIdentifier = true)
      ↔ ∃ names : List String, items = names.map .text ∧ ∀ name ∈ names, name ≠ "" := by
  constructor
  · intro h
    induction items with
    | nil => exact ⟨[], rfl, by simp⟩
    | cons item items ih =>
      obtain ⟨s, rfl, hs⟩ := isIdentifier_iff.mp (h item (by simp))
      obtain ⟨names, rfl, hnames⟩ := ih fun x hx => h x (List.mem_cons_of_mem _ hx)
      exact ⟨s :: names, rfl, by simpa using ⟨hs, hnames⟩⟩
  · rintro ⟨names, rfl, hnames⟩ item hitem
    obtain ⟨name, hname, rfl⟩ := List.mem_map.mp hitem
    exact isIdentifier_iff.mpr ⟨name, rfl, hnames name hname⟩

theorem requireParameters_eq_ok_iff {params : Value} :
    g.requireParameters params = .ok ()
      ↔ ∃ names : List String, g.items params = .ok (names.map .text)
        ∧ ∀ name ∈ names, name ≠ "" := by
  unfold requireParameters
  cases g.items params with
  | error f => simp
  | ok items =>
    simp only [Except.ok.injEq]
    exact forM_demand_eq_ok_iff.trans forall_isIdentifier_iff

theorem requireFields_bind_eq_ok_iff {keys : List String}
    {next : Table Value → Except Misshape Unit} :
    (g.requireFields payload keys >>= next) = .ok () ↔ ∃ fields, g.record? payload = some fields
      ∧ (∀ key ∈ keys, held fields key ≠ .absent) ∧ next fields = .ok () := by
  rw [except_bind_eq_ok_iff]
  simp only [requireFields_eq_ok_iff, and_assoc]

/-- The check that arithmetic and comparisons share. -/
theorem checkOperator_eq_ok_iff {known : String → Bool} :
    (g.requireFields payload ["op", "left", "right"] >>= fun fields =>
        g.requireOperator kind known (held fields "op")) = .ok ()
      ↔ ∃ s left right, known s = true ∧ g.field payload "op" = .ok (.text s)
        ∧ g.Holds payload "left" left ∧ g.Holds payload "right" right := by
  rw [requireFields_bind_eq_ok_iff]
  constructor
  · rintro ⟨fields, hrec, hkeys, hop⟩
    obtain ⟨s, hheld, hs⟩ := requireOperator_eq_ok_iff.mp hop
    have hfield := (holds_held hrec (hkeys "op" (by simp))).1
    rw [hheld] at hfield
    exact ⟨s, _, _, hs, hfield, holds_held hrec (hkeys "left" (by simp)),
      holds_held hrec (hkeys "right" (by simp))⟩
  · rintro ⟨s, left, right, hs, hop, hleft, hright⟩
    obtain ⟨fields, hrec, -⟩ := record?_of_field_eq_ok hop
    have ho := held_of_field hrec hop
    have hl := (holds_iff hrec).mp hleft
    have hr := (holds_iff hrec).mp hright
    exact ⟨fields, hrec, by simp [ho, hl.1, hl.2, hr.1, hr.2],
      requireOperator_eq_ok_iff.mpr ⟨s, ho, hs⟩⟩

/-- The questions about parameters and a body that functions and definitions share. -/
theorem requireSignature_iff {fields : Table Value} :
    (g.requireSequence fields "params" = .ok () ∧ g.requireSequence fields "body" = .ok ()
        ∧ g.requireParameters (held fields "params") = .ok ())
      ↔ ∃ params body,
        g.HasSignature (.defined (held fields "params") (held fields "body")) params body := by
  simp only [requireSequence_eq_ok_iff, requireParameters_eq_ok_iff, hasSignature_defined_iff]
  constructor
  · rintro ⟨hparams, hbody, names, hnames, hne⟩
    obtain ⟨body, hitems⟩ := isSequence_iff.mp hbody
    exact ⟨names, body, ⟨hparams, hnames⟩, hne, hitems⟩
  · rintro ⟨names, body, hnames, hne, hitems⟩
    exact ⟨hnames.1, hitems.1, names, hnames.2, hne⟩

/-! ### Forms -/

theorem carries_of_checkPayload (h : g.checkPayload kind payload = .ok ()) :
    ∃ form, form.kind = kind ∧ g.Carries payload form := by
  cases kind with
  | number =>
    have hint := demand_eq_ok_iff.mp h
    cases payload with
    | int n => exact ⟨.number n, rfl, rfl⟩
    | _ => simp [Value.isIntLiteral, Value.int?] at hint
  | lookup =>
    obtain ⟨s, rfl, hs⟩ := requireIdentifier_eq_ok_iff.mp h
    exact ⟨.lookup s, rfl, rfl, hs⟩
  | assignment =>
    obtain ⟨fields, hrec, hkeys, hname⟩ := requireFields_bind_eq_ok_iff.mp h
    obtain ⟨s, hs⟩ := requireIdentifier_eq_ok_iff.mp hname
    exact ⟨.assignment s _, rfl, (holdsName_iff hrec).mpr hs,
      holds_held hrec (hkeys "expr" (by simp))⟩
  | arithmetic =>
    obtain ⟨s, left, right, hs, hop, hchildren⟩ := checkOperator_eq_ok_iff.mp h
    obtain ⟨op, hknown⟩ := Option.isSome_iff_exists.mp hs
    rw [Arithmetic.ofSymbol?_eq_some_iff.mp hknown] at hop
    exact ⟨.arithmetic op left right, rfl, hop, hchildren⟩
  | comparison =>
    obtain ⟨s, left, right, hs, hop, hchildren⟩ := checkOperator_eq_ok_iff.mp h
    obtain ⟨op, hknown⟩ := Option.isSome_iff_exists.mp hs
    rw [Comparison.ofSymbol?_eq_some_iff.mp hknown] at hop
    exact ⟨.comparison op left right, rfl, hop, hchildren⟩
  | conditional =>
    obtain ⟨fields, hrec, hkeys, -⟩ := requireFields_bind_eq_ok_iff.mp h
    exact ⟨.conditional _ _, rfl, holds_held hrec (hkeys "condition" (by simp)),
      holds_held hrec (hkeys "body" (by simp))⟩
  | alternative =>
    obtain ⟨fields, hrec, hkeys, -⟩ := requireFields_bind_eq_ok_iff.mp h
    exact ⟨.alternative _ _ _, rfl, holds_held hrec (hkeys "condition" (by simp)),
      holds_held hrec (hkeys "body" (by simp)), holds_held hrec (hkeys "else_body" (by simp))⟩
  | loop =>
    obtain ⟨fields, hrec, hkeys, hseq⟩ := requireFields_bind_eq_ok_iff.mp h
    obtain ⟨items, hitems⟩ := isSequence_iff.mp (requireSequence_eq_ok_iff.mp hseq)
    exact ⟨.loop _ items, rfl, holds_held hrec (hkeys "condition" (by simp)),
      (holdsItems_iff hrec).mpr hitems⟩
  | print =>
    have hsome := demand_eq_ok_iff.mp h
    exact ⟨.print payload, rfl, rfl, by simpa using hsome⟩
  | definition =>
    obtain ⟨fields, hrec, hkeys, h⟩ := requireFields_bind_eq_ok_iff.mp h
    obtain ⟨hparams, h⟩ := except_seq_eq_ok_iff.mp h
    obtain ⟨hbody, h⟩ := except_seq_eq_ok_iff.mp h
    obtain ⟨hname, hnames⟩ := except_seq_eq_ok_iff.mp h
    obtain ⟨s, hs⟩ := requireIdentifier_eq_ok_iff.mp hname
    obtain ⟨params, body, hsignature⟩ := requireSignature_iff.mp ⟨hparams, hbody, hnames⟩
    exact ⟨.definition s (.defined _ _) params body, rfl, (holdsName_iff hrec).mpr hs,
      ⟨_, _, (holds_held hrec (hkeys "params" (by simp))).1,
        (holds_held hrec (hkeys "body" (by simp))).1, rfl⟩, hsignature⟩
  | function =>
    obtain ⟨fields, hrec, hkeys, h⟩ := requireFields_bind_eq_ok_iff.mp h
    obtain ⟨hparams, h⟩ := except_seq_eq_ok_iff.mp h
    obtain ⟨hbody, hnames⟩ := except_seq_eq_ok_iff.mp h
    obtain ⟨params, body, hsignature⟩ := requireSignature_iff.mp ⟨hparams, hbody, hnames⟩
    obtain ⟨hparams, hne, hbody⟩ := hasSignature_defined_iff.mp hsignature
    exact ⟨.function params body, rfl, ⟨(holdsItems_iff hrec).mpr hparams, hne⟩,
      (holdsItems_iff hrec).mpr hbody⟩
  | call =>
    obtain ⟨fields, hrec, hkeys, h⟩ := requireFields_bind_eq_ok_iff.mp h
    obtain ⟨hname, hseq⟩ := except_seq_eq_ok_iff.mp h
    obtain ⟨s, hs⟩ := requireIdentifier_eq_ok_iff.mp hname
    obtain ⟨args, hargs⟩ := isSequence_iff.mp (requireSequence_eq_ok_iff.mp hseq)
    exact ⟨.call s args, rfl, (holdsName_iff hrec).mpr hs, (holdsItems_iff hrec).mpr hargs⟩

theorem checkPayload_of_carries {form : Form} (h : g.Carries payload form) :
    g.checkPayload form.kind payload = .ok () := by
  cases form with
  | number n =>
    cases h
    rfl
  | lookup name =>
    obtain ⟨rfl, hne⟩ := h
    exact requireIdentifier_eq_ok_iff.mpr ⟨name, rfl, hne⟩
  | assignment name expr =>
    obtain ⟨hname, hexpr⟩ := h
    obtain ⟨fields, hrec, -⟩ := record?_of_field_eq_ok hname.1
    have hn := (holdsName_iff hrec).mp hname
    have he := (holds_iff hrec).mp hexpr
    exact requireFields_bind_eq_ok_iff.mpr ⟨fields, hrec, by simp [hn.1, he.1, he.2],
      requireIdentifier_eq_ok_iff.mpr ⟨name, hn⟩⟩
  | arithmetic op left right =>
    exact checkOperator_eq_ok_iff.mpr ⟨op.symbol, left, right, by simp, h⟩
  | comparison op left right =>
    exact checkOperator_eq_ok_iff.mpr ⟨op.symbol, left, right, by simp, h⟩
  | conditional condition body =>
    obtain ⟨hcondition, hbody⟩ := h
    obtain ⟨fields, hrec, -⟩ := record?_of_field_eq_ok hcondition.1
    have hc := (holds_iff hrec).mp hcondition
    have hb := (holds_iff hrec).mp hbody
    exact requireFields_bind_eq_ok_iff.mpr ⟨fields, hrec, by simp [hc.1, hc.2, hb.1, hb.2], rfl⟩
  | alternative condition body otherwise =>
    obtain ⟨hcondition, hbody, hotherwise⟩ := h
    obtain ⟨fields, hrec, -⟩ := record?_of_field_eq_ok hcondition.1
    have hc := (holds_iff hrec).mp hcondition
    have hb := (holds_iff hrec).mp hbody
    have ho := (holds_iff hrec).mp hotherwise
    exact requireFields_bind_eq_ok_iff.mpr ⟨fields, hrec,
      by simp [hc.1, hc.2, hb.1, hb.2, ho.1, ho.2], rfl⟩
  | loop condition body =>
    obtain ⟨hcondition, hbody⟩ := h
    obtain ⟨fields, hrec, -⟩ := record?_of_field_eq_ok hcondition.1
    have hc := (holds_iff hrec).mp hcondition
    have hseq := ((holdsItems_iff hrec).mp hbody).1
    exact requireFields_bind_eq_ok_iff.mpr ⟨fields, hrec,
      by simp [hc.1, hc.2, ne_absent_of_isSequence hseq], requireSequence_eq_ok_iff.mpr hseq⟩
  | print expr =>
    obtain ⟨rfl, hne⟩ := h
    exact demand_eq_ok_iff.mpr (by simpa using hne)
  | definition name function params body =>
    obtain ⟨hname, ⟨p, b, hparams, hbody, rfl⟩, hsignature⟩ := h
    obtain ⟨fields, hrec, -⟩ := record?_of_field_eq_ok hname.1
    have hn := (holdsName_iff hrec).mp hname
    obtain rfl := held_of_field hrec hparams
    obtain rfl := held_of_field hrec hbody
    obtain ⟨hps, hbs, hnames⟩ := requireSignature_iff.mpr ⟨params, body, hsignature⟩
    have hp := ne_absent_of_isSequence (requireSequence_eq_ok_iff.mp hps)
    have hb := ne_absent_of_isSequence (requireSequence_eq_ok_iff.mp hbs)
    exact requireFields_bind_eq_ok_iff.mpr ⟨fields, hrec, by simp [hn.1, hp, hb],
      except_seq_eq_ok_iff.mpr ⟨hps, except_seq_eq_ok_iff.mpr ⟨hbs, except_seq_eq_ok_iff.mpr
        ⟨requireIdentifier_eq_ok_iff.mpr ⟨name, hn⟩, hnames⟩⟩⟩⟩
  | function params body =>
    obtain ⟨⟨hparams, hne⟩, hbody⟩ := h
    obtain ⟨fields, hrec, -⟩ := record?_of_field_eq_ok hparams.choose_spec.1
    obtain ⟨hps, hbs, hnames⟩ := requireSignature_iff.mpr ⟨params, body,
      hasSignature_defined_iff.mpr ⟨(holdsItems_iff hrec).mp hparams, hne,
        (holdsItems_iff hrec).mp hbody⟩⟩
    have hp := ne_absent_of_isSequence (requireSequence_eq_ok_iff.mp hps)
    have hb := ne_absent_of_isSequence (requireSequence_eq_ok_iff.mp hbs)
    exact requireFields_bind_eq_ok_iff.mpr ⟨fields, hrec, by simp [hp, hb],
      except_seq_eq_ok_iff.mpr ⟨hps, except_seq_eq_ok_iff.mpr ⟨hbs, hnames⟩⟩⟩
  | call name args =>
    obtain ⟨hname, hargs⟩ := h
    obtain ⟨fields, hrec, -⟩ := record?_of_field_eq_ok hname.1
    have hn := (holdsName_iff hrec).mp hname
    have hseq := ((holdsItems_iff hrec).mp hargs).1
    exact requireFields_bind_eq_ok_iff.mpr ⟨fields, hrec,
      by simp [hn.1, ne_absent_of_isSequence hseq], except_seq_eq_ok_iff.mpr
        ⟨requireIdentifier_eq_ok_iff.mpr ⟨name, hn⟩, requireSequence_eq_ok_iff.mpr hseq⟩⟩

/-- A value with the shape of a node has a form of the same kind. -/
theorem hasForm_of_shape (h : g.shape v = .ok (kind, payload)) :
    ∃ form, form.kind = kind ∧ g.node? v = some (kind.name, payload) ∧ g.Carries payload form := by
  have hnode := node?_of_shape h
  unfold shape at h
  simp only [hnode, Kind.ofName?_name] at h
  obtain ⟨⟨⟩, hcheck, -⟩ := except_bind_eq_ok_iff.mp h
  obtain ⟨form, hkind, hcarries⟩ := carries_of_checkPayload hcheck
  exact ⟨form, hkind, hnode, hcarries⟩

theorem shape_of_node? {form : Form} (hnode : g.node? v = some (form.kind.name, payload))
    (hcarries : g.Carries payload form) : g.shape v = .ok (form.kind, payload) := by
  unfold shape
  simp only [hnode, Kind.ofName?_name]
  rw [checkPayload_of_carries hcarries]
  rfl

/-- **Exactly the values that have a form pass the check of a single node.** -/
theorem shape_iff_hasForm : (∃ s, g.shape v = .ok s) ↔ ∃ form, g.HasForm v form := by
  constructor
  · rintro ⟨⟨kind, payload⟩, h⟩
    obtain ⟨form, rfl, hnode, hcarries⟩ := hasForm_of_shape h
    exact ⟨form, payload, hnode, hcarries⟩
  · rintro ⟨form, payload, hnode, hcarries⟩
    exact ⟨_, shape_of_node? hnode hcarries⟩

/-! ### One form only -/

variable {form form' : Form}

theorem IsSequenceOf.eq {items items' : List Value} (h : g.IsSequenceOf v items)
    (h' : g.IsSequenceOf v items') : items = items' :=
  Except.ok.inj (h.2.symm.trans h'.2)

theorem HoldsItems.eq {key : String} {items items' : List Value}
    (h : g.HoldsItems payload key items) (h' : g.HoldsItems payload key items') :
    items = items' := by
  obtain ⟨w, hw, hitems⟩ := h
  obtain ⟨w', hw', hitems'⟩ := h'
  obtain rfl := Except.ok.inj (hw.symm.trans hw')
  exact hitems.eq hitems'

theorem HoldsName.eq {key name name' : String} (h : g.HoldsName payload key name)
    (h' : g.HoldsName payload key name') : name = name' :=
  Value.text.inj (Except.ok.inj (h.1.symm.trans h'.1))

theorem Holds.eq {key : String} {w w' : Value} (h : g.Holds payload key w)
    (h' : g.Holds payload key w') : w = w' :=
  Except.ok.inj (h.1.symm.trans h'.1)

theorem map_text_injective : Function.Injective (List.map Value.text) :=
  List.map_injective_iff.mpr fun _ _ => Value.text.inj

/-- What can be read off a function is there to be read once only. -/
theorem HasSignature.eq {function : Callable} {ps ps' : List String} {vs vs' : List Value}
    (h : g.HasSignature function ps vs) (h' : g.HasSignature function ps' vs') :
    ps = ps' ∧ vs = vs' := by
  obtain ⟨⟨p, hp, hps⟩, -, b, hb, hvs⟩ := h
  obtain ⟨⟨p', hp', hps'⟩, -, b', hb', hvs'⟩ := h'
  obtain rfl := Except.ok.inj (hp.symm.trans hp')
  obtain rfl := Except.ok.inj (hb.symm.trans hb')
  exact ⟨map_text_injective (hps.eq hps'), hvs.eq hvs'⟩

theorem Carries.eq (hkind : form.kind = form'.kind) (h : g.Carries payload form)
    (h' : g.Carries payload form') : form = form' := by
  cases form <;> cases form' <;> cases hkind
  case number n n' => rw [Value.int.inj (h.symm.trans h')]
  case lookup x x' => rw [Value.text.inj (h.1.symm.trans h'.1)]
  case assignment x w x' w' => rw [h.1.eq h'.1, h.2.eq h'.2]
  case arithmetic op w z op' w' z' =>
    have hop := congrArg Arithmetic.ofSymbol? (Value.text.inj (Except.ok.inj (h.1.symm.trans h'.1)))
    rw [Arithmetic.ofSymbol?_symbol, Arithmetic.ofSymbol?_symbol] at hop
    rw [Option.some.inj hop, h.2.1.eq h'.2.1, h.2.2.eq h'.2.2]
  case comparison op w z op' w' z' =>
    have hop := congrArg Comparison.ofSymbol? (Value.text.inj (Except.ok.inj (h.1.symm.trans h'.1)))
    rw [Comparison.ofSymbol?_symbol, Comparison.ofSymbol?_symbol] at hop
    rw [Option.some.inj hop, h.2.1.eq h'.2.1, h.2.2.eq h'.2.2]
  case conditional w z w' z' => rw [h.1.eq h'.1, h.2.eq h'.2]
  case alternative u w z u' w' z' => rw [h.1.eq h'.1, h.2.1.eq h'.2.1, h.2.2.eq h'.2.2]
  case loop w ws w' ws' => rw [h.1.eq h'.1, h.2.eq h'.2]
  case print w w' => rw [← h.1, ← h'.1]
  case definition x f ps ws x' f' ps' ws' =>
    obtain ⟨hx, ⟨p, b, hp, hb, rfl⟩, hsignature⟩ := h
    obtain ⟨hx', ⟨p', b', hp', hb', rfl⟩, hsignature'⟩ := h'
    obtain rfl := Except.ok.inj (hp.symm.trans hp')
    obtain rfl := Except.ok.inj (hb.symm.trans hb')
    obtain ⟨rfl, rfl⟩ := hsignature.eq hsignature'
    rw [hx.eq hx']
  case function ps ws ps' ws' => rw [map_text_injective (h.1.1.eq h'.1.1), h.2.eq h'.2]
  case call x ws x' ws' => rw [h.1.eq h'.1, h.2.eq h'.2]

/-- A value has no two forms. -/
theorem HasForm.eq (h : g.HasForm v form) (h' : g.HasForm v form') : form = form' := by
  obtain ⟨payload, hnode, hcarries⟩ := h
  obtain ⟨payload', hnode', hcarries'⟩ := h'
  obtain ⟨hname, rfl⟩ := Prod.mk.inj (Option.some.inj (hnode.symm.trans hnode'))
  exact hcarries.eq (Kind.name_injective hname) hcarries'

/-! ### The question that can fail -/

/-- The value is an arithmetic node or a comparison that has its three fields, and its
operator cannot serve as a key. -/
def HasUnkeyedOperator (g : Graph) (v : Value) : Prop :=
  ∃ (kind : Kind) (payload op left right : Value), (kind = .arithmetic ∨ kind = .comparison)
    ∧ g.node? v = some (kind.name, payload) ∧ g.field payload "op" = .ok op ∧ g.isKey op = false
    ∧ g.Holds payload "left" left ∧ g.Holds payload "right" right

theorem isKey_absent (g : Graph) : g.isKey .absent = true := by
  unfold isKey
  cases g.objects.size <;> rfl

theorem demand_ne_fault {ok : Bool} {otherwise : Violation} {f : Fault} :
    demand ok otherwise ≠ .error (.fault f) := by
  cases ok <;> simp [demand]

theorem forM_ne_fault {α : Type} {check : α → Except Misshape Unit} {xs : List α} {f : Fault}
    (h : ∀ x, check x ≠ .error (.fault f)) : xs.forM check ≠ .error (.fault f) := by
  induction xs with
  | nil => simp [pure, Except.pure]
  | cons x xs ih =>
    intro hbind
    rcases except_bind_eq_error_iff.mp hbind with hx | ⟨u, -, hxs⟩
    · exact h x hx
    · exact ih hxs

theorem requireFields_ne_fault {keys : List String} {f : Fault} :
    g.requireFields payload keys ≠ .error (.fault f) := by
  unfold requireFields
  cases g.record? payload with
  | none => simp
  | some fields =>
    intro h
    rcases except_bind_eq_error_iff.mp h with hkeys | ⟨u, -, hpure⟩
    · exact forM_ne_fault (fun key => demand_ne_fault) hkeys
    · cases hpure

theorem requireOperator_eq_fault_iff {known : String → Bool} {op : Value} {f : Fault} :
    g.requireOperator kind known op = .error (.fault f) ↔ f = .wrongType ∧ g.isKey op = false := by
  unfold requireOperator lookUp? lookUpBy
  cases hkey : g.isKey op with
  | false => simp [eq_comm]
  | true => cases op.text?.bind fun s => if known s then some s else none <;> simp

theorem requireParameters_ne_fault {params : Value} {f : Fault} (h : g.isSequence params = true) :
    g.requireParameters params ≠ .error (.fault f) := by
  obtain ⟨items, -, hitems⟩ := isSequence_iff.mp h
  unfold requireParameters
  rw [hitems]
  exact forM_ne_fault fun name => demand_ne_fault

/-- Of the twelve checks only those of operators can fail without a violation. -/
theorem checkPayload_eq_fault_iff {f : Fault} :
    g.checkPayload kind payload = .error (.fault f)
      ↔ f = .wrongType ∧ (kind = .arithmetic ∨ kind = .comparison)
        ∧ ∃ op left right, g.field payload "op" = .ok op ∧ g.isKey op = false
          ∧ g.Holds payload "left" left ∧ g.Holds payload "right" right := by
  constructor
  · intro h
    cases kind with
    | number | lookup | print => exact absurd h demand_ne_fault
    | conditional | alternative =>
      rcases except_bind_eq_error_iff.mp h with h | ⟨fields, -, h⟩
      · exact absurd h requireFields_ne_fault
      · cases h
    | assignment | loop =>
      rcases except_bind_eq_error_iff.mp h with h | ⟨fields, -, h⟩
      · exact absurd h requireFields_ne_fault
      · exact absurd h demand_ne_fault
    | arithmetic | comparison =>
      rcases except_bind_eq_error_iff.mp h with h | ⟨fields, hfields, h⟩
      · exact absurd h requireFields_ne_fault
      · obtain ⟨rfl, hkey⟩ := requireOperator_eq_fault_iff.mp h
        obtain ⟨hrec, hkeys⟩ := requireFields_eq_ok_iff.mp hfields
        exact ⟨rfl, by simp, _, _, _, (holds_held hrec (hkeys "op" (by simp))).1, hkey,
          holds_held hrec (hkeys "left" (by simp)), holds_held hrec (hkeys "right" (by simp))⟩
    | definition =>
      rcases except_bind_eq_error_iff.mp h with h | ⟨fields, -, h⟩
      · exact absurd h requireFields_ne_fault
      rcases except_bind_eq_error_iff.mp h with h | ⟨⟨⟩, hparams, h⟩
      · exact absurd h demand_ne_fault
      rcases except_bind_eq_error_iff.mp h with h | ⟨-, -, h⟩
      · exact absurd h demand_ne_fault
      rcases except_bind_eq_error_iff.mp h with h | ⟨-, -, h⟩
      · exact absurd h demand_ne_fault
      · exact absurd h (requireParameters_ne_fault (requireSequence_eq_ok_iff.mp hparams))
    | function =>
      rcases except_bind_eq_error_iff.mp h with h | ⟨fields, -, h⟩
      · exact absurd h requireFields_ne_fault
      rcases except_bind_eq_error_iff.mp h with h | ⟨⟨⟩, hparams, h⟩
      · exact absurd h demand_ne_fault
      rcases except_bind_eq_error_iff.mp h with h | ⟨-, -, h⟩
      · exact absurd h demand_ne_fault
      · exact absurd h (requireParameters_ne_fault (requireSequence_eq_ok_iff.mp hparams))
    | call =>
      rcases except_bind_eq_error_iff.mp h with h | ⟨fields, -, h⟩
      · exact absurd h requireFields_ne_fault
      rcases except_bind_eq_error_iff.mp h with h | ⟨-, -, h⟩
      · exact absurd h demand_ne_fault
      · exact absurd h demand_ne_fault
  · rintro ⟨rfl, hkind, op, left, right, hop, hkey, hleft, hright⟩
    obtain ⟨fields, hrec, -⟩ := record?_of_field_eq_ok hop
    have ho := held_of_field hrec hop
    have hl := (holds_iff hrec).mp hleft
    have hr := (holds_iff hrec).mp hright
    -- nothing at all can serve as a key, so the operator is there
    have hne : op ≠ .absent := by
      rintro rfl
      rw [isKey_absent] at hkey
      cases hkey
    have hfields : g.requireFields payload ["op", "left", "right"] = .ok fields :=
      requireFields_eq_ok_iff.mpr ⟨hrec, by simp [ho, hne, hl.1, hl.2, hr.1, hr.2]⟩
    rw [← ho] at hkey
    rcases hkind with rfl | rfl
    · exact except_bind_eq_error_iff.mpr
        (.inr ⟨fields, hfields, requireOperator_eq_fault_iff.mpr ⟨rfl, hkey⟩⟩)
    · exact except_bind_eq_error_iff.mpr
        (.inr ⟨fields, hfields, requireOperator_eq_fault_iff.mpr ⟨rfl, hkey⟩⟩)

/-- **The check fails on one question only.** -/
theorem shape_eq_fault_iff {f : Fault} :
    g.shape v = .error (.fault f) ↔ f = .wrongType ∧ g.HasUnkeyedOperator v := by
  constructor
  · intro h
    unfold shape at h
    split at h
    · cases h
    · rename_i tag payload hnode
      split at h
      · cases h
      · rename_i kind hkind
        rw [Kind.ofName?_eq_some_iff.mp hkind] at hnode
        rcases except_bind_eq_error_iff.mp h with h | ⟨u, -, h⟩
        · obtain ⟨rfl, hor, op, left, right, hrest⟩ := checkPayload_eq_fault_iff.mp h
          exact ⟨rfl, kind, payload, op, left, right, hor, hnode, hrest⟩
        · cases h
  · rintro ⟨rfl, kind, payload, op, left, right, hor, hnode, hrest⟩
    have hcheck := checkPayload_eq_fault_iff.mpr ⟨rfl, hor, op, left, right, hrest⟩
    unfold shape
    simp only [hnode, Kind.ofName?_name]
    exact except_bind_eq_error_iff.mpr (.inl hcheck)

end Graph

end Treewalk
