import Treewalk.Proofs.Rebuilding
import Treewalk.Proofs.Sharing

/-!
## Which trees nodes unfold to

A tree is proper if its names are not empty and every label has as many trees below it as nodes
with the label have children. Exactly the proper trees are unfoldings of nodes: `Build.fromTree`
builds a node for a proper tree, in any graph and without touching what is there.

* `Unfolds.isProper`: a node unfolds to a proper tree.
* `gives_fromTree`: the node that is built for a proper tree unfolds to it.
* `exists_functionTrees`: the functions of an environment unfold to finitely many proper trees.
-/

namespace Treewalk

open List (Forall₂)

/-! ### Proper trees -/

/-- The label has names that are not empty, and nodes with it have `n` children. -/
def Label.Admits : Label → Nat → Prop
  | .number _, n => n = 0
  | .lookup x, n => x ≠ "" ∧ n = 0
  | .assignment x, n => x ≠ "" ∧ n = 1
  | .arithmetic _, n | .comparison _, n | .conditional, n => n = 2
  | .alternative, n => n = 3
  | .loop, n => 0 < n
  | .print, n => n = 1
  | .definition x ps, _ => x ≠ "" ∧ ∀ p ∈ ps, p ≠ ""
  | .function ps, _ => ∀ p ∈ ps, p ≠ ""
  | .call x, _ => x ≠ ""

/-- **Proper** trees: every label admits the trees below it. -/
inductive Tree.IsProper : Tree → Prop where
  | node {label : Label} {ts : List Tree} (hlabel : label.Admits ts.length)
    (hts : ∀ t ∈ ts, t.IsProper) : (Tree.node label ts).IsProper

theorem Tree.isProper_node_iff {label : Label} {ts : List Tree} :
    (Tree.node label ts).IsProper ↔ label.Admits ts.length ∧ ∀ t ∈ ts, t.IsProper := by
  constructor
  · intro h
    cases h with
    | node hlabel hts => exact ⟨hlabel, hts⟩
  · exact fun ⟨hlabel, hts⟩ => .node hlabel hts

namespace Graph

variable {g g' : Graph} {v : Value} {form : Form} {t : Tree} {ps : List String} {ts : List Tree}
  {F : Callable} {env : Env}

theorem admits_of_hasForm (hform : g.HasForm v form) :
    form.label.Admits form.children.length := by
  obtain ⟨payload, -, hcarries⟩ := hform
  cases form with
  | number | arithmetic | comparison | conditional | alternative | print => exact rfl
  | lookup => exact ⟨hcarries.2, rfl⟩
  | assignment => exact ⟨hcarries.1.2, rfl⟩
  | loop => exact Nat.succ_pos _
  | definition => exact ⟨hcarries.1.2, hcarries.2.2.2.1⟩
  | function => exact hcarries.1.2
  | call => exact hcarries.1.2

/-- **A node unfolds to a proper tree.** -/
theorem Unfolds.isProper (h : g.Unfolds v t) : t.IsProper := by
  induction h using Unfolds.induction with
  | node v form ts hform hchildren ih =>
    have hlabel := admits_of_hasForm hform
    rw [hchildren.length_eq] at hlabel
    exact .node hlabel (forall_of_forall₂ (Forall₂.flip ih) fun t c ⟨_, ht⟩ => ht)

theorem FunctionUnfolds.isProper (h : g.FunctionUnfolds ps ts F) :
    (Tree.node (.function ps) ts).IsProper := by
  obtain ⟨body, ⟨-, hne, -⟩, hbody⟩ := h.signature
  exact .node hne (forall_of_forall₂ (Forall₂.flip hbody) fun t c hc => Unfolds.isProper hc)

/-- A function unfolds to the same trees in a graph that has all the objects. -/
theorem FunctionUnfolds.transfer (hgrow : g.GrowsTo g') (h : g.FunctionUnfolds ps ts F) :
    g'.FunctionUnfolds ps ts F := by
  cases F with
  | given v => exact Unfolds.transfer hgrow h
  | defined p b =>
    obtain ⟨body, hsignature, hbody⟩ := h
    obtain ⟨hparams, hne, hitems⟩ := hasSignature_defined_iff.mp hsignature
    exact ⟨body, hasSignature_defined_iff.mpr
      ⟨hparams.transfer hgrow, hne, hitems.transfer hgrow⟩,
      hbody.imp fun _ _ => Unfolds.transfer hgrow⟩

/-- A function that passes validation unfolds to trees. -/
theorem AcceptsFunction.exists_functionUnfolds (h : g.AcceptsFunction F) :
    ∃ ps ts, g.FunctionUnfolds ps ts F := by
  cases F with
  | given v =>
    obtain ⟨ps, body, hform, hbody⟩ :=
      (acceptsFunction_iff_of_node (show (Callable.given v).node g = .ok v g from rfl)).mp h
    obtain ⟨ts, hts⟩ := exists_forall₂ fun s hs => wellFormed_iff_exists_unfolds.mp (hbody s hs)
    exact ⟨ps, ts, .node hform hts⟩
  | defined p b =>
    obtain ⟨ps, body, hsignature, hbody⟩ := acceptsFunction_defined_iff.mp h
    obtain ⟨ts, hts⟩ := exists_forall₂ fun s hs => wellFormed_iff_exists_unfolds.mp (hbody s hs)
    exact ⟨ps, ts, body, hsignature, hts⟩

/-- An environment is the same in a graph that has all the objects. -/
theorem AcceptsFunctions.sameEnv (henv : g.AcceptsFunctions env) (hgrow : g.GrowsTo g') :
    SameEnv g g' env env where
  values _ := rfl
  functions x := by
    cases hF : env.function? x with
    | none => exact .none
    | some F =>
      obtain ⟨ps, ts, hunfolds⟩ := (henv x F hF).exists_functionUnfolds
      exact .some ⟨ps, ts, hunfolds, hunfolds.transfer hgrow⟩

/-- **The functions of an environment** unfold to finitely many proper trees. -/
theorem exists_functionTrees (henv : g.AcceptsFunctions env) :
    ∃ us : List Tree, (∀ u ∈ us, u.IsProper) ∧ ∀ x F, env.function? x = some F →
      ∃ ps ts, g.FunctionUnfolds ps ts F ∧ Tree.node (.function ps) ts ∈ us := by
  have hkeys : ∀ x ∈ env.functions.keys, ∃ u, ∃ F ps ts, env.function? x = some F
      ∧ g.FunctionUnfolds ps ts F ∧ u = Tree.node (.function ps) ts := by
    intro x hx
    obtain ⟨F, hF⟩ := (Env.hasFunction_iff env x).mp ((Table.contains_iff_mem_keys _ x).mpr hx)
    obtain ⟨ps, ts, hunfolds⟩ := (henv x F hF).exists_functionUnfolds
    exact ⟨_, F, ps, ts, hF, hunfolds, rfl⟩
  obtain ⟨us, hus⟩ := exists_forall₂ hkeys
  refine ⟨us, forall_of_forall₂ (Forall₂.flip hus) ?_, fun x F hF => ?_⟩
  · rintro u x ⟨F, ps, ts, -, hunfolds, rfl⟩
    exact hunfolds.isProper
  · have hx : x ∈ env.functions.keys :=
      (Table.contains_iff_mem_keys _ x).mp ((Env.hasFunction_iff env x).mpr ⟨F, hF⟩)
    obtain ⟨u, hu, F', ps, ts, hF', hunfolds, rfl⟩ := exists_mem_of_forall₂ hus x hx
    rw [hF] at hF'
    cases hF'
    exact ⟨ps, ts, hunfolds, hu⟩

end Graph

/-! ### Nodes for trees -/

namespace Build

/-- Builds a node with the label from its children, by the builder for the label. -/
def fromLabel : Label → List Value → Build Value
  | .number n, [] => number (.int n)
  | .lookup x, [] => lookup (.text x)
  | .assignment x, [expr] => assignment (.text x) expr
  | .arithmetic op, [left, right] => arithmetic op left right
  | .comparison op, [left, right] => comparison op left right
  | .conditional, [condition, body] => conditional condition body
  | .alternative, [condition, body, otherwise] => alternative condition body otherwise
  | .loop, condition :: body => do loop condition (← add (.list body))
  | .print, [expr] => print expr
  | .definition x ps, body => do
    let params ← add (.list (ps.map .text))
    definition (.text x) params (← add (.list body))
  | .function ps, body => do
    let params ← add (.list (ps.map .text))
    function params (← add (.list body))
  | .call x, args => do call (.text x) (← add (.list args))
  | _, _ => throw (.fault .wrongLength)

mutual

/-- **Builds a node for a tree**, from nodes for the trees below it. -/
def fromTree : Tree → Build Value
  | .node label ts => do fromLabel label (← fromTrees ts)

/-- Builds a node for every tree. -/
def fromTrees : List Tree → Build (List Value)
  | [] => pure []
  | t :: ts => do
    let v ← fromTree t
    let vs ← fromTrees ts
    pure (v :: vs)

end

variable {g g' : Graph} {label : Label} {cs : List Value} {t : Tree} {ts : List Tree}

/-- With children that unfold to trees, a node with a label that admits them unfolds to the tree
above them. -/
theorem gives_fromLabel (hlabel : label.Admits cs.length) (hcs : Forall₂ g.Unfolds cs ts) :
    Gives (fromLabel label cs) g fun n g' => g'.Unfolds n (.node label ts) := by
  have hnodes : ∀ c ∈ cs, g.isNode c = true := forall_of_forall₂ hcs fun _ _ => isNode_of_unfolds
  -- sequences are added before the builder is called, and all nodes stay
  have hgiven : ∀ {b g₁}, g.GrowsTo g₁ → g₁.IsSequenceOf b cs → g₁.GivesNodes b cs :=
    fun hgrow hb => ⟨hb.2, fun c hc => hgrow.isNode (hnodes c hc)⟩
  have hkept : ∀ {g₁}, g.GrowsTo g₁ → Forall₂ g₁.Unfolds cs ts :=
    fun hgrow => hcs.imp fun _ _ => Graph.Unfolds.transfer hgrow
  cases label with
  | number n =>
    obtain rfl := List.length_eq_zero_iff.mp hlabel
    exact gives_unfolds (.number n) hcs
  | lookup x =>
    obtain ⟨hx, hzero⟩ := hlabel
    obtain rfl := List.length_eq_zero_iff.mp hzero
    exact gives_unfolds (.lookup hx) hcs
  | assignment x =>
    obtain ⟨hx, hone⟩ := hlabel
    obtain ⟨c, rfl⟩ := List.length_eq_one_iff.mp hone
    exact gives_unfolds (.assignment hx (hnodes c (by simp))) hcs
  | arithmetic op =>
    obtain ⟨c, d, rfl⟩ := List.length_eq_two.mp hlabel
    exact gives_unfolds (.arithmetic op (hnodes c (by simp)) (hnodes d (by simp))) hcs
  | comparison op =>
    obtain ⟨c, d, rfl⟩ := List.length_eq_two.mp hlabel
    exact gives_unfolds (.comparison op (hnodes c (by simp)) (hnodes d (by simp))) hcs
  | conditional =>
    obtain ⟨c, d, rfl⟩ := List.length_eq_two.mp hlabel
    exact gives_unfolds (.conditional (hnodes c (by simp)) (hnodes d (by simp))) hcs
  | alternative =>
    obtain ⟨c, d, e, rfl⟩ := List.length_eq_three.mp hlabel
    exact gives_unfolds
      (.alternative (hnodes c (by simp)) (hnodes d (by simp)) (hnodes e (by simp))) hcs
  | loop =>
    obtain ⟨c, ds, rfl⟩ := List.exists_cons_of_length_pos hlabel
    refine Gives.bind (gives_addSequence (.inl rfl)) fun b g₁ hgrow hb => ?_
    exact gives_unfolds (.loop (hgrow.isNode (hnodes c (by simp))) ⟨hb.2, fun d hd =>
      hgrow.isNode (hnodes d (List.mem_cons_of_mem c hd))⟩) (hkept hgrow)
  | print =>
    obtain ⟨c, rfl⟩ := List.length_eq_one_iff.mp hlabel
    exact gives_unfolds (.print (hnodes c (by simp))) hcs
  | definition x ps =>
    obtain ⟨hx, hps⟩ := hlabel
    refine Gives.bind (gives_addSequence (.inl rfl)) fun p g₁ hgrow hp => ?_
    refine Gives.bind (gives_addSequence (.inl rfl)) fun b g₂ hgrow' hb => ?_
    have hall := hgrow.trans hgrow'
    exact gives_unfolds (.definition hx ((hp.transfer hgrow').givesNames hps) (hgiven hall hb))
      (hkept hall)
  | function ps =>
    refine Gives.bind (gives_addSequence (.inl rfl)) fun p g₁ hgrow hp => ?_
    refine Gives.bind (gives_addSequence (.inl rfl)) fun b g₂ hgrow' hb => ?_
    have hall := hgrow.trans hgrow'
    exact gives_unfolds (.function ((hp.transfer hgrow').givesNames hlabel) (hgiven hall hb))
      (hkept hall)
  | call x =>
    refine Gives.bind (gives_addSequence (.inl rfl)) fun a g₁ hgrow ha => ?_
    exact gives_unfolds (.call hlabel (hgiven hgrow ha)) (hkept hgrow)

/-- If there are nodes for the trees of a row, they can be built one after the other. -/
theorem gives_fromTrees
    (hts : ∀ t ∈ ts, ∀ g, Gives (fromTree t) g fun v g' => g'.Unfolds v t) (g : Graph) :
    Gives (fromTrees ts) g fun vs g' => Forall₂ g'.Unfolds vs ts := by
  induction ts generalizing g with
  | nil => exact gives_pure .nil
  | cons t ts ih =>
    refine Gives.bind (hts t (List.mem_cons_self ..) g) fun v g₁ _ hv => ?_
    refine Gives.bind (ih (fun u hu => hts u (List.mem_cons_of_mem t hu)) g₁) fun vs g₂ hgrow hvs =>
      ?_
    exact gives_pure (.cons (hv.transfer hgrow) hvs)

/-- **For a proper tree a node is built that unfolds to it**, in any graph. -/
theorem gives_fromTree (ht : t.IsProper) (g : Graph) :
    Gives (fromTree t) g fun v g' => g'.Unfolds v t := by
  induction ht generalizing g with
  | @node label ts hlabel _ ih =>
    refine Gives.bind (gives_fromTrees ih g) fun cs g₁ _ hcs => ?_
    rw [← hcs.length_eq] at hlabel
    exact gives_fromLabel hlabel hcs

/-- In some graph with all objects of the given one, all of the given proper trees are
unfoldings. -/
theorem exists_unfolds_of_isProper (hts : ∀ t ∈ ts, t.IsProper) (g : Graph) :
    ∃ g', g.GrowsTo g' ∧ ∀ t ∈ ts, ∃ v, g'.Unfolds v t := by
  obtain ⟨vs, g', -, hgrow, hvs⟩ := gives_fromTrees (fun t ht => gives_fromTree (hts t ht)) g
  refine ⟨g', hgrow, fun t ht => ?_⟩
  obtain ⟨v, -, hv⟩ := exists_mem_of_forall₂ (Forall₂.flip hvs) t ht
  exact ⟨v, hv⟩

/-- In some graph with all objects of the given one there is a program of statements that unfold to
the given proper trees. -/
theorem exists_program_of_isProper (hts : ∀ t ∈ ts, t.IsProper) (g : Graph) :
    ∃ g' p vs, g.GrowsTo g' ∧ g'.items p = .ok vs ∧ Forall₂ g'.Unfolds vs ts := by
  obtain ⟨vs, g₁, -, hgrow, hvs⟩ := gives_fromTrees (fun t ht => gives_fromTree (hts t ht)) g
  obtain ⟨p, g', -, hgrow', hp⟩ := gives_addSequence (g := g₁) (o := .list vs) (.inl rfl)
  exact ⟨g', p, vs, hgrow.trans hgrow', hp.2, hvs.imp fun _ _ => Graph.Unfolds.transfer hgrow'⟩

end Build

end Treewalk
