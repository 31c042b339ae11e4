import Mathlib.Data.List.Forall2
import Treewalk.Proofs.Coverage
import Treewalk.Proofs.Functions

/-!
## Unfoldings

The unfolding of a node is the tree that is left when one forgets which objects the node is made
of: a shared object stands at each of its occurrences, lists and tuples are rows of trees, and a
field that no form has is dropped.

* `wellFormed_iff_exists_unfolds`: exactly the well-formed nodes unfold to a tree.
* `Unfolds.eq`: no node unfolds to two trees.
* `FollowsVisits.walkNode`: a walk meets the labels of the tree that a node unfolds to.
* `summary_of_validateProgram`: the summary of an accepted program is made of the labels of the
  trees that its statements unfold to, those of a node before those below it.
-/

namespace Treewalk

open List (Forall₂)

/-! ### Rows that correspond -/

/-- Where every member of a row has a counterpart, there is a row of counterparts. -/
theorem exists_forall₂ {α β : Type} {P : α → β → Prop} {xs : List α}
    (h : ∀ x ∈ xs, ∃ y, P x y) : ∃ ys, Forall₂ P xs ys := by
  induction xs with
  | nil => exact ⟨[], .nil⟩
  | cons x xs ih =>
    obtain ⟨y, hy⟩ := h x (List.mem_cons_self ..)
    obtain ⟨ys, hys⟩ := ih fun z hz => h z (List.mem_cons_of_mem x hz)
    exact ⟨y :: ys, .cons hy hys⟩

/-- Rows correspond, member by member, by what both correspond to, exactly if there is a row that
both correspond to. -/
theorem forall₂_exists_iff {α β γ : Type} {P : α → γ → Prop} {Q : β → γ → Prop} {xs : List α}
    {ys : List β} :
    Forall₂ (fun x y => ∃ z, P x z ∧ Q y z) xs ys ↔ ∃ zs, Forall₂ P xs zs ∧ Forall₂ Q ys zs := by
  constructor
  · intro h
    induction h with
    | nil => exact ⟨[], .nil, .nil⟩
    | cons hxy _ ih =>
      obtain ⟨z, hx, hy⟩ := hxy
      obtain ⟨zs, hxs, hys⟩ := ih
      exact ⟨z :: zs, .cons hx hxs, .cons hy hys⟩
  · rintro ⟨zs, hxs, hys⟩
    induction hxs generalizing ys with
    | nil =>
      cases hys
      exact .nil
    | @cons x z xs zs hx _ ih =>
      cases hys with
      | cons hy hys => exact .cons ⟨z, hx, hy⟩ (ih hys)

/-- Every member of a row has its counterpart among those of the other. -/
theorem exists_mem_of_forall₂ {α β : Type} {P : α → β → Prop} {xs : List α} {ys : List β}
    (h : Forall₂ P xs ys) : ∀ x ∈ xs, ∃ y ∈ ys, P x y := by
  induction h with
  | nil => simp
  | @cons x y _ ys hxy _ ih =>
    intro z hz
    rcases List.mem_cons.mp hz with rfl | hz
    · exact ⟨y, List.mem_cons_self .., hxy⟩
    · obtain ⟨w, hw, hzw⟩ := ih z hz
      exact ⟨w, List.mem_cons_of_mem y hw, hzw⟩

/-- What having a counterpart implies holds of all members of a row that corresponds to another. -/
theorem forall_of_forall₂ {α β : Type} {P : α → β → Prop} {p : α → Prop} {xs : List α}
    {ys : List β} (h : Forall₂ P xs ys) (hP : ∀ x y, P x y → p x) : ∀ x ∈ xs, p x :=
  ((List.forall₂_and_left xs ys).mp (h.imp fun x y hxy => ⟨hP x y hxy, hxy⟩)).1

/-! ### Trees -/

/-- A **tree** of labels. -/
inductive Tree where
  | node (label : Label) (children : List Tree)

namespace Tree

mutual

/-- The **labels** of a tree, that of a node before those below it. -/
def labels : Tree → List Label
  | node label children => label :: labelsOfAll children

/-- The labels of trees, one tree after the other. -/
def labelsOfAll : List Tree → List Label
  | [] => []
  | t :: ts => t.labels ++ labelsOfAll ts

end

/-- Labels of a row of trees are labels of one of them. -/
theorem mem_labelsOfAll {label : Label} {ts : List Tree} :
    label ∈ labelsOfAll ts ↔ ∃ t ∈ ts, label ∈ t.labels := by
  induction ts with
  | nil => simp [labelsOfAll]
  | cons t ts ih => simp [labelsOfAll, ih]

theorem mem_labels_node {label label' : Label} {ts : List Tree} :
    label' ∈ (node label ts).labels ↔ label' = label ∨ label' ∈ labelsOfAll ts := by
  rw [labels, List.mem_cons]

end Tree

namespace Graph

variable {g g' : Graph} {v : Value} {vs : List Value} {label : Label} {t t' : Tree}
  {ts : List Tree}

/-- **The value unfolds to the tree**: it is a node with the label of the tree, and its children
unfold to the trees right below. -/
inductive Unfolds (g : Graph) : Value → Tree → Prop where
  | node {v : Value} {form : Form} {ts : List Tree} (hform : g.HasForm v form)
    (hchildren : Forall₂ g.Unfolds form.children ts) : g.Unfolds v (.node form.label ts)

theorem unfolds_node_iff : g.Unfolds v (.node label ts)
    ↔ ∃ form, g.HasForm v form ∧ form.label = label ∧ Forall₂ g.Unfolds form.children ts := by
  constructor
  · intro h
    generalize htree : Tree.node label ts = t at h
    cases h with
    | node hform hchildren =>
      cases htree
      exact ⟨_, hform, rfl, hchildren⟩
  · rintro ⟨form, hform, rfl, hchildren⟩
    exact .node hform hchildren

namespace Unfolds

/-- Induction over unfoldings: what holds of the children holds of the node. -/
@[elab_as_elim]
theorem induction {motive : ∀ v t, g.Unfolds v t → Prop}
    (node : ∀ v form ts (hform : g.HasForm v form) (hchildren : Forall₂ g.Unfolds form.children ts),
      Forall₂ (fun c t => ∃ h, motive c t h) form.children ts →
      motive v (.node form.label ts) (.node hform hchildren))
    {v : Value} {t : Tree} (h : g.Unfolds v t) : motive v t h :=
  @Unfolds.rec g motive (fun cs ts _ => Forall₂ (fun c t => ∃ h, motive c t h) cs ts)
    (fun hform hchildren ih => node _ _ _ hform hchildren ih) .nil
    (fun hc _ ih ihs => .cons ⟨hc, ih⟩ ihs) v t h

theorem wellFormed (h : g.Unfolds v t) : g.WellFormed v := by
  induction h using Unfolds.induction with
  | node v form ts hform _ ih =>
    exact .node hform (forall_of_forall₂ ih fun _ _ ⟨_, hwell⟩ => hwell)

/-- **No node unfolds to two trees.** -/
theorem eq (h : g.Unfolds v t) (h' : g.Unfolds v t') : t = t' := by
  induction h using Unfolds.induction generalizing t' with
  | node v form ts hform hchildren ih =>
    cases h' with
    | @node _ form' ts' hform' hchildren' =>
      obtain rfl := hform.eq hform'
      refine congrArg (Tree.node form.label) ?_
      -- the rows below are the same, tree by tree
      generalize form.children = cs at ih hchildren'
      clear hchildren
      induction ih generalizing ts' with
      | nil =>
        cases hchildren'
        rfl
      | cons hc _ ihs =>
        obtain ⟨-, heq⟩ := hc
        cases hchildren' with
        | cons hc' hcs' => rw [heq hc', ihs hcs']

/-- A node unfolds to the same tree in a graph that has all the objects. -/
theorem transfer (hobject : ∀ v o, g.object? v = some o → g'.object? v = some o)
    (h : g.Unfolds v t) : g'.Unfolds v t := by
  induction h using Unfolds.induction with
  | node v form ts hform hchildren ih =>
    exact .node (hform.transfer hobject) (ih.imp fun _ _ ⟨_, hc⟩ => hc)

/-- The tree has the labels of all nodes that are reached. -/
theorem label_mem {w : Value} {form : Form} (h : g.Unfolds v t) (hreaches : g.Reaches v w)
    (hform : g.HasForm w form) : form.label ∈ t.labels := by
  induction h using Unfolds.induction with
  | node v form' ts hform' _ ih =>
    rw [Tree.mem_labels_node, Tree.mem_labelsOfAll]
    rcases Relation.ReflTransGen.cases_head hreaches with rfl | ⟨c, hchild, hreaches⟩
    · rw [hform.eq hform']
      exact .inl rfl
    · obtain ⟨t, ht, -, hlabel⟩ := exists_mem_of_forall₂ ih c ((isChild_iff hform').mp hchild)
      exact .inr ⟨t, ht, hlabel hreaches⟩

end Unfolds

/-- **Exactly the well-formed nodes unfold to a tree.** -/
theorem wellFormed_iff_exists_unfolds : g.WellFormed v ↔ ∃ t, g.Unfolds v t := by
  refine ⟨fun h => ?_, fun ⟨t, ht⟩ => ht.wellFormed⟩
  induction h with
  | node hform _ ih =>
    obtain ⟨ts, hts⟩ := exists_forall₂ ih
    exact ⟨_, .node hform hts⟩

/-- The statements of an accepted program unfold to trees. -/
theorem exists_unfolds_of_validateProgram {tracing : Bool} {depth : Nat} {program : Value}
    (hvalid : (g.validateProgram tracing depth program).1 = .ok ()) :
    ∃ vs ts, g.items program = .ok vs ∧ Forall₂ g.Unfolds vs ts := by
  obtain ⟨vs, hitems, hwell⟩ := exists_wellFormed_of_validateProgram hvalid
  obtain ⟨ts, hts⟩ := exists_forall₂ fun v hv => wellFormed_iff_exists_unfolds.mp (hwell v hv)
  exact ⟨vs, ts, hitems, hts⟩

/-! ### What a walk meets -/

variable {tracing : Bool} {depth start : Nat} {ancestors : List Value} {location : Location}
  {program : Value} {s s' : Survey} {self : Nat → Value → Walk Unit}
  {P : Survey → List Label → Survey → Prop}

/-- A relation between a survey, the labels that a walk then meets, and the survey after it, which
holds of one visit and can be continued. -/
structure FollowsVisits (g : Graph) (tracing : Bool) (P : Survey → List Label → Survey → Prop) :
    Prop where
  nil (s : Survey) : P s [] s
  append {s s₁ s' : Survey} {labels labels' : List Label} :
    P s labels s₁ → P s₁ labels' s' → P s (labels ++ labels') s'
  recorded {payload : Value} {form : Form} (location : Location) (s : Survey) :
    g.Carries payload form → P s [form.label] (g.recorded tracing location form.kind payload s)

/-- If each walk of a row meets the labels of a tree, the row meets the labels of all of them. -/
theorem FollowsVisits.walkEach (hP : g.FollowsVisits tracing P)
    (hself : ∀ index c t s s', self index c s = .ok () s' → g.Unfolds c t → P s t.labels s')
    (hrow : Graph.walkEach self start vs s = .ok () s') (hvs : Forall₂ g.Unfolds vs ts) :
    P s (Tree.labelsOfAll ts) s' := by
  induction hvs generalizing start s with
  | nil =>
    cases hrow
    exact hP.nil _
  | cons hv _ ih =>
    obtain ⟨s₁, hfirst, hrest⟩ := walkEach_cons_eq_ok_iff.mp hrow
    exact hP.append (hself _ _ _ _ _ hfirst hv) (ih hrest)

/-- **A walk that comes to its end meets the labels of the tree.** -/
theorem FollowsVisits.walkNode (hP : g.FollowsVisits tracing P)
    (hwalk : g.walkNode tracing depth ancestors location v s = .ok () s') (hv : g.Unfolds v t) :
    P s t.labels s' := by
  induction depth generalizing ancestors location v s s' t with
  | zero => cases hwalk
  | succ depth ih =>
    cases hv with
    | @node _ form ts hform hchildren =>
      obtain ⟨payload, hnode, hcarries⟩ := hform
      rw [walkNode_of_carries hnode hcarries] at hwalk
      split at hwalk
      · cases hwalk
      · -- the node is entered first, and then the rows below it
        exact hP.append (hP.recorded location s hcarries)
          (hP.walkEach (fun _ _ _ _ _ => ih) hwalk hchildren)

/-! ### Summaries -/

theorem followsVisits_summary (g : Graph) (tracing : Bool) : g.FollowsVisits tracing
    fun s labels s' => s'.summary = labels.foldl Summary.enter s.summary where
  nil _ := rfl
  append h h' := by rw [List.foldl_append, ← h, h']
  recorded _ _ hcarries := summary_recorded hcarries

/-- **The summary of an accepted program** depends only on what its statements unfold to. -/
theorem summary_of_validateProgram (hvalid : (g.validateProgram tracing depth program).1 = .ok ())
    (hitems : g.items program = .ok vs) (hvs : Forall₂ g.Unfolds vs ts) :
    (g.validateProgram tracing depth program).2.summary
      = (Tree.labelsOfAll ts).foldl Summary.enter .empty := by
  obtain ⟨statements, hitems', hwalk⟩ := exists_walkEach_of_validateProgram hvalid
  obtain rfl := Except.ok.inj (hitems.symm.trans hitems')
  have hsummary := g.followsVisits_summary tracing
  exact hsummary.walkEach (fun _ _ _ _ _ => hsummary.walkNode) hwalk hvs

end Graph

end Treewalk
