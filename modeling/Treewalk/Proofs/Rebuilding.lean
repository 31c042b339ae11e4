import Treewalk.Proofs.Building
import Treewalk.Proofs.Unfolding

/-!
## Builders and validation speak of the same language

What a builder gives has the shape of a node, and it is accepted if its children are; so whatever
is made by builders alone is accepted. Conversely every node that is accepted could have been made
by builders: `Build.rebuild` makes it anew, children first, by the builder of its tag from its own
fields, and the new node unfolds to the same tree.

* `wellFormed_of_constructed`: what is made by builders alone is well formed.
* `gives_rebuild`: a node that a walk accepts can be made anew.
* `builders_match_validation`: both directions, for validation.
-/

namespace Treewalk

open List (Forall₂)

namespace Build

/-! ### Making nodes anew -/

/-- Makes the members of a row anew, one after the other. -/
def rebuildEach (self : Value → Build Value) : List Value → Build (List Value)
  | [] => pure []
  | v :: vs => do
    let v' ← self v
    let vs' ← rebuildEach self vs
    pure (v' :: vs')

/-- The builder of a kind, applied to the fields of a payload, but for the children, which are
given. -/
def rebuildFrom (kind : Kind) (payload : Value) (children : List Value) : Build Value :=
  match kind, children with
  | .number, _ => number payload
  | .lookup, _ => lookup payload
  | .assignment, [expr] => do
    assignment (← read (·.field payload "name")) expr
  | .arithmetic, [left, right] | .comparison, [left, right] => do
    arithmeticOrComparison (← read (·.field payload "op")) left right
  | .conditional, [condition, body] => conditional condition body
  | .alternative, [condition, body, otherwise] => alternative condition body otherwise
  | .loop, condition :: body => do
    loop condition (← add (.list body))
  | .print, [expr] => print expr
  | .definition, body => do
    let name ← read (·.field payload "name")
    let params ← read (·.field payload "params")
    definition name params (← add (.list body))
  | .function, body => do
    let params ← read (·.field payload "params")
    function params (← add (.list body))
  | .call, args => do
    let name ← read (·.field payload "name")
    call name (← add (.list args))
  | _, _ => throw (.fault .wrongLength)

/-- Makes a node **anew**, at most `depth` nodes on the way down: first its children, and then the
node, by the builder of its tag. What is done with nodes further down is left open. -/
def rebuild (beyond : Value → Build Value) : Nat → Value → Build Value
  | 0, v => beyond v
  | depth + 1, v => do
    let tag ← read (·.field v "type")
    let payload ← read (·.payload v)
    match tag.text?.bind Kind.ofName? with
    | some kind => do
      let children ← read (·.childrenOf kind payload)
      rebuildFrom kind payload (← rebuildEach (rebuild beyond depth) children)
    | none => throw (.fault .wrongType)

variable {g g' : Graph} {r : Request} {n payload v : Value} {vs cs : List Value} {label : Label}
  {form : Form} {t : Tree} {ts : List Tree} {self : Value → Build Value}

/-- A node that is built from nodes that unfold to trees unfolds to a tree above them. -/
theorem gives_unfolds (hfits : r.Fits g label cs) (hcs : Forall₂ g.Unfolds cs ts) :
    Gives r.build g fun n g' => g'.Unfolds n (.node label ts) := by
  refine (build_of_fits hfits).imp fun n g' hgrow ⟨form, hform, hlabel, hchildren⟩ => ?_
  refine Graph.unfolds_node_iff.mpr ⟨form, hform, hlabel, ?_⟩
  rw [hchildren]
  exact hcs.imp fun _ _ => Graph.Unfolds.transfer hgrow

/-- If every member of a row can be made anew in whatever graph there is by then, so can the row. -/
theorem gives_rebuildEach
    (hself : Forall₂ (fun c t => ∀ g₁, g.GrowsTo g₁ →
      Gives (self c) g₁ fun c' g' => g'.Unfolds c' t) cs ts) :
    ∀ g₁, g.GrowsTo g₁ →
      Gives (rebuildEach self cs) g₁ fun cs' g' => Forall₂ g'.Unfolds cs' ts := by
  induction hself with
  | nil => exact fun _ _ => gives_pure .nil
  | cons hc _ ih =>
    intro g₁ hgrow
    refine Gives.bind (hc g₁ hgrow) fun c' g₂ hgrow' hc' => ?_
    refine Gives.bind (ih g₂ (hgrow.trans hgrow')) fun cs' g₃ hgrow'' hcs' => ?_
    exact gives_pure (.cons (hc'.transfer hgrow'') hcs')

theorem isNode_of_unfolds (h : g.Unfolds v t) : g.isNode v = true := by
  obtain ⟨form, hform⟩ := h.wellFormed.hasForm
  exact Graph.isNode_of_hasForm hform

/-- **The builder of a node's kind accepts the node's own fields**, with any children that unfold to
trees in the place of its own. -/
theorem gives_rebuildFrom (hcarries : g.Carries payload form) (hcs : Forall₂ g.Unfolds cs ts)
    (hlength : cs.length = form.children.length) :
    Gives (rebuildFrom form.kind payload cs) g fun n g' => g'.Unfolds n (.node form.label ts) := by
  have hnodes : ∀ c ∈ cs, g.isNode c = true := forall_of_forall₂ hcs fun _ _ => isNode_of_unfolds
  cases form with
  | number k =>
    obtain rfl := List.length_eq_zero_iff.mp hlength
    obtain rfl : payload = .int k := hcarries
    exact gives_unfolds (.number k) hcs
  | lookup x =>
    obtain rfl := List.length_eq_zero_iff.mp hlength
    obtain ⟨rfl, hx⟩ := hcarries
    exact gives_unfolds (.lookup hx) hcs
  | assignment x expr =>
    obtain ⟨c, rfl⟩ := List.length_eq_one_iff.mp hlength
    obtain ⟨⟨hname, hx⟩, -⟩ := hcarries
    refine gives_bind_of_ok (read_eq_ok_iff.mpr ⟨hname, rfl⟩) ?_
    exact gives_unfolds (.assignment hx (hnodes c (by simp))) hcs
  | arithmetic op left right =>
    obtain ⟨c, d, rfl⟩ := List.length_eq_two.mp hlength
    refine gives_bind_of_ok (read_eq_ok_iff.mpr ⟨hcarries.1, rfl⟩) ?_
    exact gives_unfolds (.arithmeticSymbol op (hnodes c (by simp)) (hnodes d (by simp))) hcs
  | comparison op left right =>
    obtain ⟨c, d, rfl⟩ := List.length_eq_two.mp hlength
    refine gives_bind_of_ok (read_eq_ok_iff.mpr ⟨hcarries.1, rfl⟩) ?_
    exact gives_unfolds (.comparisonSymbol op (hnodes c (by simp)) (hnodes d (by simp))) hcs
  | conditional condition body =>
    obtain ⟨c, d, rfl⟩ := List.length_eq_two.mp hlength
    exact gives_unfolds (.conditional (hnodes c (by simp)) (hnodes d (by simp))) hcs
  | alternative condition body otherwise =>
    obtain ⟨c, d, e, rfl⟩ := List.length_eq_three.mp hlength
    exact gives_unfolds
      (.alternative (hnodes c (by simp)) (hnodes d (by simp)) (hnodes e (by simp))) hcs
  | loop condition body =>
    obtain ⟨c, ds, rfl⟩ := List.exists_cons_of_length_eq_add_one hlength
    refine Gives.bind (gives_addSequence (.inl rfl)) fun b g₁ hgrow hb => ?_
    refine gives_unfolds (.loop (hgrow.isNode (hnodes c (by simp))) ⟨hb.2, fun d hd => ?_⟩)
      (hcs.imp fun _ _ => Graph.Unfolds.transfer hgrow)
    exact hgrow.isNode (hnodes d (List.mem_cons_of_mem c hd))
  | print expr =>
    obtain ⟨c, rfl⟩ := List.length_eq_one_iff.mp hlength
    exact gives_unfolds (.print (hnodes c (by simp))) hcs
  | definition x function params body =>
    obtain ⟨⟨hname, hx⟩, ⟨p, b, hp, hb, rfl⟩, hsignature⟩ := hcarries
    obtain ⟨hparams, hne, -⟩ := Graph.hasSignature_defined_iff.mp hsignature
    refine gives_bind_of_ok (read_eq_ok_iff.mpr ⟨hname, rfl⟩)
      (gives_bind_of_ok (read_eq_ok_iff.mpr ⟨hp, rfl⟩) ?_)
    refine Gives.bind (gives_addSequence (.inl rfl)) fun b' g₁ hgrow hb' => ?_
    exact gives_unfolds (.definition hx ((hparams.transfer hgrow).givesNames hne)
      ⟨hb'.2, fun d hd => hgrow.isNode (hnodes d hd)⟩)
      (hcs.imp fun _ _ => Graph.Unfolds.transfer hgrow)
  | function params body =>
    obtain ⟨⟨⟨p, hp, hparams⟩, hne⟩, -⟩ := hcarries
    refine gives_bind_of_ok (read_eq_ok_iff.mpr ⟨hp, rfl⟩) ?_
    refine Gives.bind (gives_addSequence (.inl rfl)) fun b' g₁ hgrow hb' => ?_
    exact gives_unfolds (.function ((hparams.transfer hgrow).givesNames hne)
      ⟨hb'.2, fun d hd => hgrow.isNode (hnodes d hd)⟩)
      (hcs.imp fun _ _ => Graph.Unfolds.transfer hgrow)
  | call x args =>
    obtain ⟨⟨hname, hx⟩, -⟩ := hcarries
    refine gives_bind_of_ok (read_eq_ok_iff.mpr ⟨hname, rfl⟩) ?_
    refine Gives.bind (gives_addSequence (.inl rfl)) fun a g₁ hgrow ha => ?_
    exact gives_unfolds (.call hx ⟨ha.2, fun d hd => hgrow.isNode (hnodes d hd)⟩)
      (hcs.imp fun _ _ => Graph.Unfolds.transfer hgrow)

/-- **A node that a walk accepts can be made anew**, with as much room as the walk had, and whatever
would be done with nodes further down. The new node unfolds to the same tree. -/
theorem gives_rebuild {tracing : Bool} {depth : Nat} {ancestors : List Value} {location : Location}
    {s s' : Survey} (hwalk : g.walkNode tracing depth ancestors location v s = .ok () s')
    (ht : g.Unfolds v t) (beyond : Value → Build Value) :
    ∀ g₁, g.GrowsTo g₁ → Gives (rebuild beyond depth v) g₁ fun v' g' => g'.Unfolds v' t := by
  induction depth generalizing ancestors location v s s' t with
  | zero => cases hwalk
  | succ depth ih =>
    obtain ⟨label, ts⟩ := t
    obtain ⟨form, ⟨payload, hnode, hcarries⟩, rfl, hchildren⟩ := Graph.unfolds_node_iff.mp ht
    rw [Graph.walkNode_of_carries hnode hcarries] at hwalk
    split at hwalk
    · cases hwalk
    -- the walk has accepted every child, with a room less
    have hself : Forall₂ (fun c t => ∀ g₁, g.GrowsTo g₁ →
        Gives (rebuild beyond depth c) g₁ fun c' g' => g'.Unfolds c' t) form.children ts := by
      have hwalked : ∀ c ∈ form.children, ∃ index s s',
          g.walkNode tracing depth (v :: ancestors) (location.child form.kind index) c s
            = .ok () s' := by
        intro c hc
        obtain ⟨i, hi⟩ := List.mem_iff_getElem?.mp hc
        exact ⟨_, Graph.getElem?_of_walkEach hwalk i c hi⟩
      refine ((List.forall₂_and_left _ _).mpr ⟨hwalked, hchildren⟩).imp ?_
      rintro c t ⟨⟨index, s, s', hc⟩, ht⟩
      exact ih hc ht
    intro g₁ hgrow
    have hnode' := Graph.node?_transfer hgrow hnode
    have hcarries' : g₁.Carries payload form := hcarries.transfer
      (fun _ => Graph.record?_transfer hgrow) fun _ _ => Graph.IsSequenceOf.transfer hgrow
    obtain ⟨fields, hrec, htag, hpayload⟩ := Graph.node?_eq_some_iff.mp hnode'
    refine gives_bind_of_ok (read_eq_ok_iff.mpr
      ⟨(Graph.field_eq_ok_iff hrec).mpr htag, rfl⟩) ?_
    refine gives_bind_of_ok (read_eq_ok_iff.mpr
      ⟨(Graph.field_eq_ok_iff hrec).mpr hpayload, rfl⟩) ?_
    simp only [Value.text?, Option.bind_some, Kind.ofName?_name]
    refine gives_bind_of_ok (read_eq_ok_iff.mpr ⟨Graph.childrenOf_of_carries hcarries', rfl⟩) ?_
    refine Gives.bind (gives_rebuildEach hself g₁ hgrow) fun cs' g₂ hgrow' hcs' => ?_
    refine gives_rebuildFrom (hcarries'.transfer (fun _ => Graph.record?_transfer hgrow')
      fun _ _ => Graph.IsSequenceOf.transfer hgrow') hcs' ?_
    rw [hcs'.length_eq, hchildren.length_eq]

/-! ### What builders make -/

/-- The nodes have been **constructed** by builders alone: each of them was built when all its
children had been built before. Other objects, such as the sequences that are passed to builders,
may be added at any time. -/
inductive Constructed : Graph → List Value → Prop where
  | start (g : Graph) : Constructed g []
  | add {g : Graph} {built : List Value} (o : Object) (h : Constructed g built) :
    Constructed (g.extend o).2 built
  | build {g g' : Graph} {built : List Value} {n : Value} (r : Request) (h : Constructed g built)
    (hbuild : r.build g = .ok n g') (hchildren : ∀ c, g'.IsChild n c → c ∈ built) :
    Constructed g' (n :: built)

/-- **What a builder gives is a node with a form**, and all older objects stay. -/
theorem exists_hasForm_of_build (h : r.build g = .ok n g') :
    g.GrowsTo g' ∧ ∃ form, g'.HasForm n form := by
  obtain ⟨label, cs, hfits⟩ := exists_fits_of_build h
  obtain ⟨n', g'', hrun, hgrow, form, hform, -⟩ := build_of_fits hfits
  rw [h] at hrun
  cases hrun
  exact ⟨hgrow, form, hform⟩

theorem wellFormed_iff_of_build (h : r.build g = .ok n g') :
    g'.WellFormed n ↔ ∀ c, g'.IsChild n c → g'.WellFormed c := by
  obtain ⟨-, form, hform⟩ := exists_hasForm_of_build h
  refine ⟨fun hn c hc => hn.of_isChild hc, fun hc => ?_⟩
  exact .node hform fun c hmem => hc c ((Graph.isChild_iff hform).mpr hmem)

/-- **What is made by builders alone is well formed.** -/
theorem wellFormed_of_constructed {built : List Value} (h : Constructed g built) :
    ∀ v ∈ built, g.WellFormed v := by
  induction h with
  | start g => simp
  | @add g built o _ ih => exact fun v hv => (ih v hv).transfer (Graph.growsTo_extend g o)
  | @build g g' built n r _ hbuild hchildren ih =>
    obtain ⟨hgrow, -⟩ := exists_hasForm_of_build hbuild
    intro v hv
    rcases List.mem_cons.mp hv with rfl | hv
    · exact (wellFormed_iff_of_build hbuild).mpr fun c hc => (ih c (hchildren c hc)).transfer hgrow
    · exact (ih v hv).transfer hgrow

/-- **Builders and validation speak of the same language.** What a builder gives, whatever it was
given, has the shape of a node, and with room enough it is accepted if and only if all its children
are; so what is made by builders alone is accepted. Conversely a node that is accepted can be made
anew, children first, by the builder of its tag from its own fields: no builder refuses, whatever
else there may be in the graph by then, all older objects stay, and the new node unfolds to the
same tree. -/
theorem builders_match_validation :
    (∀ (r : Request) (g g' : Graph) (n : Value), r.build g = .ok n g' →
      (∃ s, g'.shape n = .ok s)
      ∧ ∀ tracing depth location start, g'.objects.size < depth →
        ((g'.validateNode tracing depth location n start).1 = .ok ()
          ↔ ∃ children, g'.children n = .ok children ∧ ∀ c ∈ children,
            ∀ tracing location start,
              (g'.validateNode tracing depth location c start).1 = .ok ()))
    ∧ (∀ g built, Constructed g built → ∀ v ∈ built, ∀ tracing depth location start,
      g.objects.size < depth → (g.validateNode tracing depth location v start).1 = .ok ())
    ∧ ∀ (g : Graph) (v : Value) tracing depth location start,
      (g.validateNode tracing depth location v start).1 = .ok () →
      ∃ t, g.Unfolds v t ∧ ∀ beyond g₁, g.GrowsTo g₁ →
        ∃ v' g', rebuild beyond depth v g₁ = .ok v' g' ∧ g₁.GrowsTo g' ∧ g'.Unfolds v' t := by
  refine ⟨fun r g g' n hbuild => ⟨?_, fun tracing depth location start hdepth => ?_⟩, ?_, ?_⟩
  · exact Graph.shape_iff_hasForm.mpr (exists_hasForm_of_build hbuild).2
  · obtain ⟨-, form, hform⟩ := exists_hasForm_of_build hbuild
    rw [Graph.validateNode_eq_ok_iff hdepth, wellFormed_iff_of_build hbuild]
    simp only [Graph.validateNode_eq_ok_iff hdepth, Graph.IsChild]
    rw [Graph.children_of_hasForm hform]
    simp
  · intro g built hbuilt v hv tracing depth location start hdepth
    exact (Graph.validateNode_eq_ok_iff hdepth).mpr (wellFormed_of_constructed hbuilt v hv)
  · intro g v tracing depth location start hvalid
    obtain ⟨s', hwalk⟩ := Graph.validateNode_eq_ok_iff_walkNode.mp hvalid
    obtain ⟨t, ht⟩ :=
      Graph.wellFormed_iff_exists_unfolds.mp (Graph.wellFormed_of_validateNode hvalid)
    exact ⟨t, ht, gives_rebuild hwalk ht⟩

/-- A number, a list with the number in it, and what the builder of loops adds for a loop with the
number as its condition and the list as its body. -/
def loopOfFour : Graph where
  objects := #[
    .record ⟨[("type", .text "NUMBER"), ("value", .int 4)]⟩, .list [.ref 0],
    .tuple [.ref 0], .record ⟨[("condition", .ref 0), ("body", .ref 2)]⟩,
    .record ⟨[("type", .text "WHILE"), ("value", .ref 3)]⟩]

theorem constructed_loopOfFour : Constructed loopOfFour [.ref 4, .ref 0] := by
  have hnumber : Constructed ⟨#[.record ⟨[("type", .text "NUMBER"), ("value", .int 4)]⟩]⟩
      [.ref 0] := by
    refine .build (.number (.int 4)) (.start ⟨#[]⟩) rfl ?_
    rintro c ⟨children, hchildren, hc⟩
    cases hchildren
    cases hc
  refine .build (.loop (.ref 0) (.ref 1)) (.add (.list [.ref 0]) hnumber) rfl ?_
  rintro c ⟨children, hchildren, hc⟩
  have hboth : loopOfFour.children (.ref 4) = .ok [.ref 0, .ref 0] := rfl
  obtain rfl := Except.ok.inj (hboth.symm.trans hchildren)
  simpa using hc

/-- The loop is accepted, and it can be made anew. -/
theorem loopOfFour_match :
    Constructed loopOfFour [.ref 4, .ref 0]
      ∧ (loopOfFour.validateNode false 6 ⟨"node", []⟩ (.ref 4) {}).1 = .ok ()
      ∧ ∃ t, loopOfFour.Unfolds (.ref 4) t ∧ ∃ v' g',
        rebuild (fun _ => throw (.fault .wrongType)) 6 (.ref 4) loopOfFour = .ok v' g'
          ∧ g'.Unfolds v' t := by
  obtain ⟨-, haccepted, hrebuilt⟩ := builders_match_validation
  have hvalid := haccepted loopOfFour _ constructed_loopOfFour (.ref 4) (by simp) false 6
    ⟨"node", []⟩ {} (by decide)
  obtain ⟨t, ht, hanew⟩ := hrebuilt loopOfFour (.ref 4) false 6 ⟨"node", []⟩ {} hvalid
  obtain ⟨v', g', hrun, -, ht'⟩ := hanew (fun _ => throw (.fault .wrongType)) loopOfFour (.refl _)
  exact ⟨constructed_loopOfFour, hvalid, t, ht, v', g', hrun, ht'⟩

end Build

end Treewalk
