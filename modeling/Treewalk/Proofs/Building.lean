import Treewalk.Proofs.Functions

/-!
## What builders accept and what they build

A `Request` is a builder with its arguments, which are any values at all. `Request.Fits` says which
arguments are accepted, and which label and which children the new node has to have.

* `exists_fits_of_build`: a builder that gives a node has been given arguments that fit.
* `build_of_fits`: with arguments that fit a builder gives a node of the form that is asked for, and
  all older objects stay as they are.
-/

namespace Treewalk

/-! ### Graphs that grow -/

namespace Graph

variable {g g' g'' : Graph}

/-- The second graph has all the objects of the first. -/
def GrowsTo (g g' : Graph) : Prop :=
  ∀ v o, g.object? v = some o → g'.object? v = some o

theorem GrowsTo.refl (g : Graph) : g.GrowsTo g :=
  fun _ _ => id

theorem GrowsTo.trans (h : g.GrowsTo g') (h' : g'.GrowsTo g'') : g.GrowsTo g'' :=
  fun v o ho => h' v o (h v o ho)

theorem growsTo_extend (g : Graph) (o : Object) : g.GrowsTo (g.extend o).2 := by
  intro v o' h
  cases v with
  | ref id =>
    have hid : id < g.objects.size := (Array.getElem?_eq_some_iff.mp h).1
    rw [object?_extend_of_lt g o hid, h]
  | _ => cases h

theorem GrowsTo.isNode {v : Value} (hgrow : g.GrowsTo g') (h : g.isNode v = true) :
    g'.isNode v = true := by
  obtain ⟨⟨tag, payload⟩, hnode⟩ := Option.isSome_iff_exists.mp h
  rw [Graph.isNode, node?_transfer hgrow hnode]
  rfl

/-- The value is a node with the label and the children. -/
def HasParts (g : Graph) (v : Value) (label : Label) (children : List Value) : Prop :=
  ∃ form, g.HasForm v form ∧ form.label = label ∧ form.children = children

/-- The value can be walked through, and gives nodes. -/
def GivesNodes (g : Graph) (v : Value) (nodes : List Value) : Prop :=
  g.items v = .ok nodes ∧ ∀ c ∈ nodes, g.isNode c = true

/-- The value is no text, can be walked through, and gives identifiers. -/
def GivesNames (g : Graph) (v : Value) (names : List String) : Prop :=
  v.text? = none ∧ g.items v = .ok (names.map .text) ∧ ∀ name ∈ names, name ≠ ""

theorem IsSequenceOf.givesNames {v : Value} {names : List String}
    (h : g.IsSequenceOf v (names.map .text)) (hne : ∀ name ∈ names, name ≠ "") :
    g.GivesNames v names := by
  refine ⟨?_, h.2, hne⟩
  cases v with
  | text s => simp [IsSequenceOf, isSequence, object?] at h
  | _ => rfl

theorem isNode_of_hasForm {v : Value} {form : Form} (h : g.HasForm v form) : g.isNode v = true := by
  obtain ⟨payload, hnode, -⟩ := h
  rw [isNode, hnode]
  rfl

/-- A field with a node in it holds the node. -/
theorem holds_of_isNode {payload v : Value} {fields : Table Value} {key : String}
    (hrec : g'.record? payload = some fields) (hheld : held fields key = v)
    (hv : g.isNode v = true) : g'.Holds payload key v := by
  refine (holds_iff hrec).mpr ⟨hheld, ?_⟩
  rintro rfl
  cases hv

end Graph

namespace Build

variable {g g' : Graph} {α β : Type} {x : Build α} {f : α → Build β} {P : α → Graph → Prop}
  {Q : β → Graph → Prop} {a : α} {v : Value} {vs : List Value} {owner role : String}

/-! ### Steps that give something -/

/-- From the graph the computation **gives** a value, all objects stay, and `P` holds of the value
and of the graph that is left. -/
def Gives (x : Build α) (g : Graph) (P : α → Graph → Prop) : Prop :=
  ∃ a g', x g = .ok a g' ∧ g.GrowsTo g' ∧ P a g'

theorem gives_pure (h : P a g) : Gives (pure a) g P :=
  ⟨a, g, rfl, .refl g, h⟩

theorem Gives.bind (hx : Gives x g P)
    (hf : ∀ a g', g.GrowsTo g' → P a g' → Gives (f a) g' Q) : Gives (x >>= f) g Q := by
  obtain ⟨a, g₁, hrun, hgrow, ha⟩ := hx
  obtain ⟨b, g₂, hrun', hgrow', hb⟩ := hf a g₁ hgrow ha
  exact ⟨b, g₂, by rw [Steps.bind_of_ok hrun, hrun'], hgrow.trans hgrow', hb⟩

/-- A step that leaves the graph as it is. -/
theorem gives_bind_of_ok (hx : x g = .ok a g) (hf : Gives (f a) g Q) : Gives (x >>= f) g Q :=
  Gives.bind (P := fun b h => b = a ∧ h = g) ⟨a, g, hx, .refl g, rfl, rfl⟩ (by
    rintro _ _ - ⟨rfl, rfl⟩
    exact hf)

theorem Gives.imp {P' : α → Graph → Prop} (hx : Gives x g P)
    (h : ∀ a g', g.GrowsTo g' → P a g' → P' a g') : Gives x g P' := by
  obtain ⟨a, g', hrun, hgrow, ha⟩ := hx
  exact ⟨a, g', hrun, hgrow, h a g' hgrow ha⟩

/-! ### New objects -/

theorem gives_add (o : Object) : Gives (add o) g fun v g' => g'.object? v = some o :=
  ⟨_, _, rfl, Graph.growsTo_extend g o, Graph.object?_extend_self g o⟩

theorem gives_addSequence {o : Object} {items : List Value}
    (ho : o = .list items ∨ o = .tuple items) :
    Gives (add o) g fun v g' => g'.IsSequenceOf v items := by
  refine (gives_add o).imp fun v g' _ hobject => ?_
  cases v with
  | ref id =>
    rcases ho with rfl | rfl <;>
      simp [Graph.IsSequenceOf, Graph.isSequence, Graph.items, hobject]
  | _ => cases hobject

theorem gives_addNode (kind : Kind) (payload : Value) :
    Gives (addNode kind payload) g fun v g' => g'.node? v = some (kind.name, payload) :=
  (gives_add _).imp fun v g' _ ho =>
    Graph.node?_eq_some_iff.mpr ⟨_, by rw [Graph.record?, ho], rfl, rfl⟩

theorem gives_addCompound (kind : Kind) (fields : List (String × Value)) :
    Gives (addCompound kind fields) g fun v g' => ∃ payload,
      g'.node? v = some (kind.name, payload) ∧ g'.record? payload = some ⟨fields⟩ := by
  refine Gives.bind (gives_add _) fun payload g₁ _ hpayload => ?_
  obtain ⟨v, g₂, hrun, hgrow, hnode⟩ := gives_addNode (g := g₁) kind payload
  exact ⟨v, g₂, hrun, hgrow, payload, hnode, by rw [Graph.record?, hgrow _ _ hpayload]⟩

/-! ### Checks -/

/-- A step that does nothing but check passes the graph on as it is. -/
theorem bind_eq_ok_iff_of_check {p : α → Prop} {b : β}
    (hx : ∀ a g₁, x g = .ok a g₁ ↔ p a ∧ g₁ = g) :
    (x >>= f) g = .ok b g' ↔ ∃ a, p a ∧ f a g = .ok b g' := by
  rw [Steps.bind_eq_ok_iff]
  constructor
  · rintro ⟨a, g₁, hrun, hf⟩
    obtain ⟨ha, rfl⟩ := (hx a g₁).mp hrun
    exact ⟨a, ha, hf⟩
  · rintro ⟨a, ha, hf⟩
    exact ⟨a, g, (hx a g).mpr ⟨ha, rfl⟩, hf⟩

theorem read_eq_ok_iff {reading : Graph → Except Fault α} :
    read reading g = .ok a g' ↔ reading g = .ok a ∧ g' = g := by
  unfold read
  cases reading g with
  | ok b => simp [eq_comm]
  | error f => simp

theorem requireNode_eq_ok_iff :
    requireNode owner role v g = .ok () g' ↔ g.isNode v = true ∧ g' = g := by
  unfold requireNode
  split
  · rename_i habsent
    subst habsent
    constructor
    · intro h
      cases h
    · rintro ⟨h, -⟩
      cases h
  · split
    · rename_i hnode
      simp [hnode, eq_comm]
    · rename_i hnode
      constructor
      · intro h
        cases h
      · rintro ⟨h, -⟩
        exact absurd h hnode

theorem requireIdentifier_eq_ok_iff :
    requireIdentifier owner role v g = .ok () g' ↔ (∃ s, v = .text s ∧ s ≠ "") ∧ g' = g := by
  rw [← Graph.isIdentifier_iff]
  unfold requireIdentifier
  split
  · rename_i h
    rw [Steps.pure_apply]
    simp [h, eq_comm]
  · rename_i hname
    constructor
    · intro h
      cases h
    · rintro ⟨h, -⟩
      exact absurd h hname

/-- A row of checks is passed if all members pass. -/
theorem forM_eq_ok_iff {check : Value → Build Unit} {p : Graph → Value → Prop}
    (hcheck : ∀ v g g', check v g = .ok () g' ↔ p g v ∧ g' = g) :
    vs.forM check g = .ok () g' ↔ (∀ v ∈ vs, p g v) ∧ g' = g := by
  induction vs with
  | nil => simp [Steps.pure_apply, eq_comm]
  | cons v vs ih =>
    show (check v >>= fun _ => vs.forM check) g = .ok () g' ↔ _
    rw [Steps.bind_eq_ok_iff, List.forall_mem_cons, and_assoc, ← ih]
    constructor
    · rintro ⟨⟨⟩, g₁, hv, hvs⟩
      obtain ⟨hp, rfl⟩ := (hcheck _ _ _).mp hv
      exact ⟨hp, hvs⟩
    · rintro ⟨hp, hvs⟩
      exact ⟨(), g, (hcheck _ _ _).mpr ⟨hp, rfl⟩, hvs⟩

theorem requireNodes_eq_ok_iff :
    requireNodes owner role v g = .ok vs g' ↔ g.GivesNodes v vs ∧ g' = g := by
  unfold requireNodes
  split
  · rename_i habsent
    subst habsent
    constructor
    · intro h
      cases h
    · rintro ⟨⟨h, -⟩, -⟩
      cases h
  · simp only [Steps.bind_eq_ok_iff, read_eq_ok_iff]
    constructor
    · rintro ⟨items, g₁, ⟨hitems, rfl⟩, ⟨⟩, g₂, hchecks, hpure⟩
      obtain ⟨hnodes, rfl⟩ :=
        (forM_eq_ok_iff (p := fun g v => g.isNode v = true) fun _ _ _ => requireNode_eq_ok_iff).mp
          hchecks
      cases hpure
      exact ⟨⟨hitems, hnodes⟩, rfl⟩
    · rintro ⟨⟨hitems, hnodes⟩, rfl⟩
      exact ⟨vs, g', ⟨hitems, rfl⟩, (), g',
        (forM_eq_ok_iff (p := fun g v => g.isNode v = true) fun _ _ _ =>
          requireNode_eq_ok_iff).mpr ⟨hnodes, rfl⟩, rfl⟩

theorem requireNames_eq_ok_iff : requireNames owner role v g = .ok vs g'
    ↔ (∃ names : List String, vs = names.map .text ∧ g.GivesNames v names) ∧ g' = g := by
  have hrow : ∀ (items : List Value) g g', items.forM (requireIdentifier owner role) g = .ok () g'
      ↔ (∃ names : List String, items = names.map .text ∧ ∀ name ∈ names, name ≠ "")
        ∧ g' = g := by
    intro items g g'
    rw [← Graph.forall_isIdentifier_iff]
    exact forM_eq_ok_iff (p := fun _ name => name.isIdentifier = true) fun _ _ _ => by
      rw [requireIdentifier_eq_ok_iff, Graph.isIdentifier_iff]
  unfold requireNames
  split
  · rename_i hrefused
    constructor
    · intro h
      cases h
    · rintro ⟨⟨names, -, htext, hitems, -⟩, -⟩
      rcases hrefused with rfl | hsome
      · cases hitems
      · rw [htext] at hsome
        cases hsome
  · rename_i haccepted
    rw [not_or, Bool.not_eq_true, Option.isSome_eq_false_iff, Option.isNone_iff_eq_none]
      at haccepted
    simp only [Steps.bind_eq_ok_iff, read_eq_ok_iff, hrow]
    constructor
    · rintro ⟨_, g₁, ⟨hitems, rfl⟩, ⟨⟩, g₂, ⟨⟨names, rfl, hnames⟩, rfl⟩, hpure⟩
      cases hpure
      exact ⟨⟨names, rfl, haccepted.2, hitems, hnames⟩, rfl⟩
    · rintro ⟨⟨names, rfl, -, hitems, hnames⟩, rfl⟩
      exact ⟨_, g', ⟨hitems, rfl⟩, (), g', ⟨⟨names, rfl, hnames⟩, rfl⟩, rfl⟩

section

variable {b : β}

theorem read_bind_iff {reading : Graph → Except Fault α} :
    (read reading >>= f) g = .ok b g' ↔ ∃ a, reading g = .ok a ∧ f a g = .ok b g' :=
  bind_eq_ok_iff_of_check fun _ _ => read_eq_ok_iff

theorem requireNode_bind_iff {f : Unit → Build β} : (requireNode owner role v >>= f) g = .ok b g'
    ↔ g.isNode v = true ∧ f () g = .ok b g' := by
  rw [bind_eq_ok_iff_of_check (p := fun _ => g.isNode v = true) fun _ _ => requireNode_eq_ok_iff]
  exact ⟨fun ⟨_, h⟩ => h, fun h => ⟨(), h⟩⟩

theorem requireIdentifier_bind_iff {f : Unit → Build β} :
    (requireIdentifier owner role v >>= f) g = .ok b g'
      ↔ (∃ s, v = .text s ∧ s ≠ "") ∧ f () g = .ok b g' := by
  rw [bind_eq_ok_iff_of_check (p := fun _ => ∃ s, v = .text s ∧ s ≠ "")
    fun _ _ => requireIdentifier_eq_ok_iff]
  exact ⟨fun ⟨_, h⟩ => h, fun h => ⟨(), h⟩⟩

theorem requireNodes_bind_iff {f : List Value → Build β} :
    (requireNodes owner role v >>= f) g = .ok b g' ↔ ∃ vs, g.GivesNodes v vs ∧ f vs g = .ok b g' :=
  bind_eq_ok_iff_of_check fun _ _ => requireNodes_eq_ok_iff

theorem requireNames_bind_iff {f : List Value → Build β} :
    (requireNames owner role v >>= f) g = .ok b g'
      ↔ ∃ names : List String, g.GivesNames v names ∧ f (names.map .text) g = .ok b g' := by
  rw [bind_eq_ok_iff_of_check fun _ _ => requireNames_eq_ok_iff]
  constructor
  · rintro ⟨_, ⟨names, rfl, hnames⟩, hf⟩
    exact ⟨names, hnames, hf⟩
  · rintro ⟨names, hnames, hf⟩
    exact ⟨_, ⟨names, rfl, hnames⟩, hf⟩

end

/-- Only texts are found among names. -/
theorem exists_of_lookUp? {find : String → Option α} (h : g.lookUp? find v = .ok (some a)) :
    ∃ s, v = .text s ∧ find s = some a := by
  cases v with
  | text s => exact ⟨s, rfl, by simpa using h⟩
  | _ =>
    unfold Graph.lookUp? Graph.lookUpBy at h
    split at h <;> cases h

theorem kindOfOperator?_arithmetic (op : Arithmetic) :
    kindOfOperator? op.symbol = some .arithmetic := by
  cases op <;> rfl

theorem kindOfOperator?_comparison (op : Comparison) :
    kindOfOperator? op.symbol = some .comparison := by
  cases op <;> rfl

/-- Exactly the symbols of operators have a kind. -/
theorem exists_of_kindOfOperator? {symbol : String} {kind : Kind}
    (h : kindOfOperator? symbol = some kind) :
    (∃ op : Arithmetic, symbol = op.symbol) ∨ ∃ op : Comparison, symbol = op.symbol := by
  unfold kindOfOperator? at h
  split at h
  · rename_i hsome
    obtain ⟨op, hop⟩ := Option.isSome_iff_exists.mp hsome
    exact .inl ⟨op, Arithmetic.ofSymbol?_eq_some_iff.mp hop⟩
  · split at h
    · rename_i hsome
      obtain ⟨op, hop⟩ := Option.isSome_iff_exists.mp hsome
      exact .inr ⟨op, Comparison.ofSymbol?_eq_some_iff.mp hop⟩
    · cases h

end Build

/-! ### Requests -/

/-- A **request**: a builder with its arguments. -/
inductive Request where
  | number (literal : Value)
  | lookup (name : Value)
  | assignment (name expr : Value)
  | arithmeticOrComparison (op left right : Value)
  | arithmetic (op : Arithmetic) (left right : Value)
  | comparison (op : Comparison) (left right : Value)
  | conditional (condition body : Value)
  | alternative (condition body otherwise : Value)
  | loop (condition body : Value)
  | print (expr : Value)
  | function (params body : Value)
  | definition (name params body : Value)
  | call (name args : Value)
deriving DecidableEq, Repr, Inhabited

namespace Request

/-- Carries out a request. -/
def build : Request → Build Value
  | number literal => Build.number literal
  | lookup name => Build.lookup name
  | assignment name expr => Build.assignment name expr
  | arithmeticOrComparison op left right => Build.arithmeticOrComparison op left right
  | arithmetic op left right => Build.arithmetic op left right
  | comparison op left right => Build.comparison op left right
  | conditional condition body => Build.conditional condition body
  | alternative condition body otherwise => Build.alternative condition body otherwise
  | loop condition body => Build.loop condition body
  | print expr => Build.print expr
  | function params body => Build.function params body
  | definition name params body => Build.definition name params body
  | call name args => Build.call name args

end Request

/-- The arguments of the request **fit**, and what is asked for is a node with the given label and
the given children. -/
inductive Request.Fits (g : Graph) : Request → Label → List Value → Prop where
  | number (n : Int) : Fits g (.number (.int n)) (.number n) []
  | lookup {x : String} (hx : x ≠ "") : Fits g (.lookup (.text x)) (.lookup x) []
  | assignment {x : String} {v : Value} (hx : x ≠ "") (hv : g.isNode v = true) :
    Fits g (.assignment (.text x) v) (.assignment x) [v]
  | arithmeticSymbol (op : Arithmetic) {v w : Value} (hv : g.isNode v = true)
    (hw : g.isNode w = true) :
    Fits g (.arithmeticOrComparison (.text op.symbol) v w) (.arithmetic op) [v, w]
  | comparisonSymbol (op : Comparison) {v w : Value} (hv : g.isNode v = true)
    (hw : g.isNode w = true) :
    Fits g (.arithmeticOrComparison (.text op.symbol) v w) (.comparison op) [v, w]
  | arithmetic (op : Arithmetic) {v w : Value} (hv : g.isNode v = true) (hw : g.isNode w = true) :
    Fits g (.arithmetic op v w) (.arithmetic op) [v, w]
  | comparison (op : Comparison) {v w : Value} (hv : g.isNode v = true) (hw : g.isNode w = true) :
    Fits g (.comparison op v w) (.comparison op) [v, w]
  | conditional {v w : Value} (hv : g.isNode v = true) (hw : g.isNode w = true) :
    Fits g (.conditional v w) .conditional [v, w]
  | alternative {u v w : Value} (hu : g.isNode u = true) (hv : g.isNode v = true)
    (hw : g.isNode w = true) : Fits g (.alternative u v w) .alternative [u, v, w]
  | loop {v b : Value} {vs : List Value} (hv : g.isNode v = true) (hb : g.GivesNodes b vs) :
    Fits g (.loop v b) .loop (v :: vs)
  | print {v : Value} (hv : g.isNode v = true) : Fits g (.print v) .print [v]
  | function {p b : Value} {ps : List String} {vs : List Value} (hp : g.GivesNames p ps)
    (hb : g.GivesNodes b vs) : Fits g (.function p b) (.function ps) vs
  | definition {x : String} {p b : Value} {ps : List String} {vs : List Value} (hx : x ≠ "")
    (hp : g.GivesNames p ps) (hb : g.GivesNodes b vs) :
    Fits g (.definition (.text x) p b) (.definition x ps) vs
  | call {x : String} {a : Value} {vs : List Value} (hx : x ≠ "") (ha : g.GivesNodes a vs) :
    Fits g (.call (.text x) a) (.call x) vs

namespace Build

variable {g g' : Graph} {r : Request} {n : Value} {label : Label} {cs : List Value}

theorem isNode_of_arithmeticOrComparison {op v w : Value}
    (h : arithmeticOrComparison op v w g = .ok n g') :
    ∃ s kind, op = .text s ∧ kindOfOperator? s = some kind ∧ g.isNode v = true
      ∧ g.isNode w = true := by
  obtain ⟨found, hfound, hrest⟩ := read_bind_iff.mp h
  cases found with
  | none => cases hrest
  | some kind =>
    obtain ⟨hv, hrest⟩ := requireNode_bind_iff.mp hrest
    obtain ⟨hw, hrest⟩ := requireNode_bind_iff.mp hrest
    obtain ⟨s, rfl, hkind⟩ := exists_of_lookUp? hfound
    exact ⟨s, kind, rfl, hkind, hv, hw⟩

/-- **A builder that gives a node has been given arguments that fit.** -/
theorem exists_fits_of_build (h : r.build g = .ok n g') : ∃ label cs, r.Fits g label cs := by
  cases r with
  | number literal =>
    change (if literal.isIntLiteral = true then addNode .number literal
      else refuse (.notNumber literal) none : Build Value) g = .ok n g' at h
    split at h
    · rename_i hint
      cases literal with
      | int k => exact ⟨_, _, .number k⟩
      | _ => cases hint
    · cases h
  | lookup name =>
    obtain ⟨⟨x, rfl, hx⟩, -⟩ := requireIdentifier_bind_iff.mp h
    exact ⟨_, _, .lookup hx⟩
  | assignment name expr =>
    obtain ⟨⟨x, rfl, hx⟩, hrest⟩ := requireIdentifier_bind_iff.mp h
    obtain ⟨hexpr, -⟩ := requireNode_bind_iff.mp hrest
    exact ⟨_, _, .assignment hx hexpr⟩
  | arithmeticOrComparison op left right =>
    obtain ⟨s, kind, rfl, hkind, hleft, hright⟩ := isNode_of_arithmeticOrComparison h
    rcases exists_of_kindOfOperator? hkind with ⟨op, rfl⟩ | ⟨op, rfl⟩
    · exact ⟨_, _, .arithmeticSymbol op hleft hright⟩
    · exact ⟨_, _, .comparisonSymbol op hleft hright⟩
  | arithmetic op left right =>
    obtain ⟨-, -, -, -, hleft, hright⟩ := isNode_of_arithmeticOrComparison h
    exact ⟨_, _, .arithmetic op hleft hright⟩
  | comparison op left right =>
    obtain ⟨-, -, -, -, hleft, hright⟩ := isNode_of_arithmeticOrComparison h
    exact ⟨_, _, .comparison op hleft hright⟩
  | conditional condition body =>
    obtain ⟨hcondition, hrest⟩ := requireNode_bind_iff.mp h
    obtain ⟨hbody, -⟩ := requireNode_bind_iff.mp hrest
    exact ⟨_, _, .conditional hcondition hbody⟩
  | alternative condition body otherwise =>
    obtain ⟨hcondition, hrest⟩ := requireNode_bind_iff.mp h
    obtain ⟨hbody, hrest⟩ := requireNode_bind_iff.mp hrest
    obtain ⟨hotherwise, -⟩ := requireNode_bind_iff.mp hrest
    exact ⟨_, _, .alternative hcondition hbody hotherwise⟩
  | loop condition body =>
    obtain ⟨hcondition, hrest⟩ := requireNode_bind_iff.mp h
    obtain ⟨vs, hbody, -⟩ := requireNodes_bind_iff.mp hrest
    exact ⟨_, _, .loop hcondition hbody⟩
  | print expr =>
    obtain ⟨hexpr, -⟩ := requireNode_bind_iff.mp h
    exact ⟨_, _, .print hexpr⟩
  | function params body =>
    obtain ⟨names, hparams, hrest⟩ := requireNames_bind_iff.mp h
    obtain ⟨vs, hbody, -⟩ := requireNodes_bind_iff.mp hrest
    exact ⟨_, _, .function hparams hbody⟩
  | definition name params body =>
    obtain ⟨⟨x, rfl, hx⟩, hrest⟩ := requireIdentifier_bind_iff.mp h
    obtain ⟨names, hparams, hrest⟩ := requireNames_bind_iff.mp hrest
    obtain ⟨vs, hbody, -⟩ := requireNodes_bind_iff.mp hrest
    exact ⟨_, _, .definition hx hparams hbody⟩
  | call name args =>
    obtain ⟨⟨x, rfl, hx⟩, hrest⟩ := requireIdentifier_bind_iff.mp h
    obtain ⟨vs, hargs, -⟩ := requireNodes_bind_iff.mp hrest
    exact ⟨_, _, .call hx hargs⟩

/-- A new node with a payload that is no record. -/
theorem gives_nodeOf {kind : Kind} {payload : Value} (form : Form) (hkind : form.kind = kind)
    (hcarries : ∀ g' : Graph, g'.Carries payload form) :
    Gives (addNode kind payload) g fun n g' => g'.HasParts n form.label form.children := by
  refine (gives_addNode kind payload).imp fun n g' _ hnode => ?_
  exact ⟨form, ⟨payload, by rw [hkind, hnode], hcarries g'⟩, rfl, rfl⟩

/-- A new node with a record as its payload. -/
theorem gives_compoundOf {kind : Kind} {fields : List (String × Value)} (form : Form)
    (hkind : form.kind = kind)
    (hcarries : ∀ g' payload, g.GrowsTo g' → g'.record? payload = some ⟨fields⟩ →
      g'.Carries payload form) :
    Gives (addCompound kind fields) g fun n g' => g'.HasParts n form.label form.children := by
  refine (gives_addCompound kind fields).imp fun n g' hgrow ⟨payload, hnode, hrec⟩ => ?_
  exact ⟨form, ⟨payload, by rw [hkind, hnode], hcarries g' payload hgrow hrec⟩, rfl, rfl⟩

theorem gives_bind_of_requireNode {f : Unit → Build β} {Q : β → Graph → Prop}
    (hv : g.isNode v = true) (hf : Gives (f ()) g Q) :
    Gives (requireNode owner role v >>= f) g Q :=
  gives_bind_of_ok (requireNode_eq_ok_iff.mpr ⟨hv, rfl⟩) hf

theorem gives_bind_of_requireIdentifier {f : Unit → Build β} {Q : β → Graph → Prop} {x : String}
    (hx : x ≠ "") (hf : Gives (f ()) g Q) :
    Gives (requireIdentifier owner role (.text x) >>= f) g Q :=
  gives_bind_of_ok (requireIdentifier_eq_ok_iff.mpr ⟨⟨x, rfl, hx⟩, rfl⟩) hf

theorem gives_bind_of_requireNodes {f : List Value → Build β} {Q : β → Graph → Prop}
    (hv : g.GivesNodes v vs) (hf : Gives (f vs) g Q) :
    Gives (requireNodes owner role v >>= f) g Q :=
  gives_bind_of_ok (requireNodes_eq_ok_iff.mpr ⟨hv, rfl⟩) hf

theorem gives_bind_of_requireNames {f : List Value → Build β} {Q : β → Graph → Prop}
    {names : List String} (hv : g.GivesNames v names) (hf : Gives (f (names.map .text)) g Q) :
    Gives (requireNames owner role v >>= f) g Q :=
  gives_bind_of_ok (requireNames_eq_ok_iff.mpr ⟨⟨names, rfl, hv⟩, rfl⟩) hf

theorem gives_arithmeticOrComparison {s : String} {kind : Kind} {v w : Value}
    (hs : kindOfOperator? s = some kind) (form : Form) (hv : g.isNode v = true)
    (hw : g.isNode w = true) (hkind : form.kind = kind)
    (hcarries : ∀ (g' : Graph) payload, g'.field payload "op" = .ok (.text s) →
      g'.Holds payload "left" v → g'.Holds payload "right" w → g'.Carries payload form) :
    Gives (arithmeticOrComparison (.text s) v w) g fun n g' =>
      g'.HasParts n form.label form.children := by
  refine gives_bind_of_ok (a := some kind) ?_ (gives_bind_of_requireNode hv
    (gives_bind_of_requireNode hw (gives_compoundOf form hkind fun g' payload _ hrec => ?_)))
  · exact read_eq_ok_iff.mpr ⟨by rw [Graph.lookUp?_text, hs], rfl⟩
  · exact hcarries g' payload ((Graph.field_eq_ok_iff hrec).mpr rfl)
      (Graph.holds_of_isNode hrec rfl hv) (Graph.holds_of_isNode hrec rfl hw)

/-- **With arguments that fit, a builder gives a node of the form that is asked for.** -/
theorem build_of_fits (h : r.Fits g label cs) :
    Gives r.build g fun n g' => g'.HasParts n label cs := by
  cases h with
  | number k => exact gives_nodeOf (.number k) rfl fun _ => rfl
  | @lookup x hx =>
    exact gives_bind_of_requireIdentifier hx (gives_nodeOf (.lookup x) rfl fun _ => ⟨rfl, hx⟩)
  | @assignment x v hx hv =>
    refine gives_bind_of_requireIdentifier hx (gives_bind_of_requireNode hv
      (gives_compoundOf (.assignment x v) rfl fun g' payload _ hrec => ?_))
    exact ⟨(Graph.holdsName_iff hrec).mpr ⟨rfl, hx⟩, Graph.holds_of_isNode hrec rfl hv⟩
  | @arithmeticSymbol op v w hv hw | @arithmetic op v w hv hw =>
    exact gives_arithmeticOrComparison (kindOfOperator?_arithmetic op) (.arithmetic op v w) hv hw
      rfl fun g' payload hop hleft hright => ⟨hop, hleft, hright⟩
  | @comparisonSymbol op v w hv hw | @comparison op v w hv hw =>
    exact gives_arithmeticOrComparison (kindOfOperator?_comparison op) (.comparison op v w) hv hw
      rfl fun g' payload hop hleft hright => ⟨hop, hleft, hright⟩
  | @conditional v w hv hw =>
    refine gives_bind_of_requireNode hv (gives_bind_of_requireNode hw
      (gives_compoundOf (.conditional v w) rfl fun g' payload _ hrec => ?_))
    exact ⟨Graph.holds_of_isNode hrec rfl hv, Graph.holds_of_isNode hrec rfl hw⟩
  | @alternative u v w hu hv hw =>
    refine gives_bind_of_requireNode hu (gives_bind_of_requireNode hv
      (gives_bind_of_requireNode hw
        (gives_compoundOf (.alternative u v w) rfl fun g' payload _ hrec => ?_)))
    exact ⟨Graph.holds_of_isNode hrec rfl hu, Graph.holds_of_isNode hrec rfl hv,
      Graph.holds_of_isNode hrec rfl hw⟩
  | @loop v b vs hv hb =>
    refine gives_bind_of_requireNode hv (gives_bind_of_requireNodes hb
      (Gives.bind (gives_addSequence (.inr rfl)) fun b' g₁ _ hb' => ?_))
    refine gives_compoundOf (.loop v vs) rfl fun g' payload hgrow hrec => ?_
    exact ⟨Graph.holds_of_isNode hrec rfl hv, b', (Graph.field_eq_ok_iff hrec).mpr rfl,
      hb'.transfer hgrow⟩
  | @print v hv =>
    refine gives_bind_of_requireNode hv (gives_nodeOf (.print v) rfl fun _ => ⟨rfl, ?_⟩)
    rintro rfl
    cases hv
  | @function p b ps _ hp hb =>
    refine gives_bind_of_requireNames hp (gives_bind_of_requireNodes hb
      (Gives.bind (gives_addSequence (.inr rfl)) fun p' g₁ _ hp' =>
        Gives.bind (gives_addSequence (.inr rfl)) fun b' g₂ hgrow hb' => ?_))
    refine gives_compoundOf (.function ps cs) rfl fun g' payload hgrow' hrec => ?_
    exact ⟨⟨⟨p', (Graph.field_eq_ok_iff hrec).mpr rfl, hp'.transfer (hgrow.trans hgrow')⟩,
      hp.2.2⟩, b', (Graph.field_eq_ok_iff hrec).mpr rfl, hb'.transfer hgrow'⟩
  | @definition x p b ps _ hx hp hb =>
    refine gives_bind_of_requireIdentifier hx (gives_bind_of_requireNames hp
      (gives_bind_of_requireNodes hb (Gives.bind (gives_addSequence (.inr rfl)) fun p' g₁ _ hp' =>
        Gives.bind (gives_addSequence (.inr rfl)) fun b' g₂ hgrow hb' => ?_)))
    refine gives_compoundOf (.definition x (.defined p' b') ps cs) rfl
      fun g' payload hgrow' hrec => ?_
    exact ⟨(Graph.holdsName_iff hrec).mpr ⟨rfl, hx⟩,
      ⟨p', b', (Graph.field_eq_ok_iff hrec).mpr rfl, (Graph.field_eq_ok_iff hrec).mpr rfl, rfl⟩,
      Graph.hasSignature_defined_iff.mpr
        ⟨hp'.transfer (hgrow.trans hgrow'), hp.2.2, hb'.transfer hgrow'⟩⟩
  | @call x a _ hx ha =>
    refine gives_bind_of_requireIdentifier hx (gives_bind_of_requireNodes ha
      (Gives.bind (gives_addSequence (.inr rfl)) fun a' g₁ _ ha' => ?_))
    refine gives_compoundOf (.call x cs) rfl fun g' payload hgrow hrec => ?_
    exact ⟨(Graph.holdsName_iff hrec).mpr ⟨rfl, hx⟩, a', (Graph.field_eq_ok_iff hrec).mpr rfl,
      ha'.transfer hgrow⟩

end Build

end Treewalk
