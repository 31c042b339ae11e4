import Mathlib.Data.List.Perm.Subperm
import Treewalk.Proofs.Offence
import Treewalk.Validation.Basic

/-!
## What validation decides

A walk through a node meets the occurrences below it from left to right, parents before their
children, and stops at the first one that offends (`Treewalk.Proofs.Offence`).

* `not_offends_of_walkNode`: a walk that comes to its end has met no offence.
* `firstOffence_of_walkNode`: a walk that is rejected has met its first offence, and the
  rejection is the answer to that offence (`Answers`).
* `walkNode_ne_tooDeep`: the ancestors of a node are different objects, so there are no more of
  them than objects, and a walk with more room than that never runs out of it.
-/

namespace Treewalk.Graph

variable {g : Graph} {tracing : Bool} {depth : Nat} {ancestors : List Value}
  {location : Location} {v w : Value} {form : Form} {s s' : Survey} {e : Rejection}

/-! ### One node -/

theorem accept_of_shape_error {m : Misshape} (hshape : g.shape v = .error m) :
    g.accept ancestors location v = .error (m.at location) := by
  rw [accept, checkShape, hshape]
  rfl

theorem accept_of_shape {kind : Kind} {payload : Value} (hshape : g.shape v = .ok (kind, payload)) :
    g.accept ancestors location v = if v ∈ ancestors
      then .error (.violation (.cycle kind) (some location)) else .ok (kind, payload) := by
  rw [accept, checkShape, hshape]
  show (if ancestors.contains v = true then _ else _) = _
  simp only [List.contains_iff_mem]
  rfl

theorem accept_eq_ok_iff {kind : Kind} {payload : Value} :
    g.accept ancestors location v = .ok (kind, payload)
      ↔ g.shape v = .ok (kind, payload) ∧ v ∉ ancestors := by
  cases hshape : g.shape v with
  | error m => simp [accept_of_shape_error hshape]
  | ok node =>
    rw [accept_of_shape hshape]
    by_cases hmem : v ∈ ancestors <;> simp [hmem, Prod.ext_iff]

/-- A value is refused for its shape or because it is one of its own ancestors. -/
theorem accept_eq_error (h : g.accept ancestors location v = .error e) :
    (∃ m, g.shape v = .error m ∧ e = m.at location)
      ∨ ∃ kind payload, g.shape v = .ok (kind, payload) ∧ v ∈ ancestors
        ∧ e = .violation (.cycle kind) (some location) := by
  cases hshape : g.shape v with
  | error m =>
    rw [accept_of_shape_error hshape] at h
    cases h
    exact .inl ⟨m, rfl, rfl⟩
  | ok node =>
    rw [accept_of_shape hshape] at h
    by_cases hmem : v ∈ ancestors
    · rw [if_pos hmem] at h
      cases h
      exact .inr ⟨node.1, node.2, rfl, hmem, rfl⟩
    · rw [if_neg hmem] at h
      cases h

theorem walkNode_of_accept_error (haccept : g.accept ancestors location v = .error e)
    (tracing : Bool) (depth : Nat) (s : Survey) :
    g.walkNode tracing (depth + 1) ancestors location v s = .error e s := by
  have henter : g.enter tracing ancestors location v s = .error e s := by
    rw [enter, haccept]
  rw [walkNode, Steps.bind_of_error henter]

/-- **A walk through a node of a given form** finds it among its own ancestors, or it records the
node and goes on to the children of the form. -/
theorem walkNode_of_carries {payload : Value} (hnode : g.node? v = some (form.kind.name, payload))
    (hcarries : g.Carries payload form) (tracing : Bool) (depth : Nat) (s : Survey) :
    g.walkNode tracing (depth + 1) ancestors location v s = if v ∈ ancestors
      then .error (.violation (.cycle form.kind) (some location)) s
      else walkEach (fun index =>
          g.walkNode tracing depth (v :: ancestors) (location.child form.kind index))
        0 form.children (g.recorded tracing location form.kind payload s) := by
  have haccept : g.accept ancestors location v = if v ∈ ancestors
      then .error (.violation (.cycle form.kind) (some location))
      else .ok (form.kind, payload) :=
    accept_of_shape (shape_of_node? hnode hcarries)
  by_cases hmem : v ∈ ancestors
  · rw [if_pos hmem] at haccept ⊢
    exact walkNode_of_accept_error haccept tracing depth s
  · rw [if_neg hmem] at haccept ⊢
    have henter : g.enter tracing ancestors location v s
        = .ok (form.kind, payload) (g.recorded tracing location form.kind payload s) := by
      rw [enter, haccept]
    -- the payload has been checked, so reading the children cannot fail any more
    rw [walkNode, Steps.bind_of_ok henter]
    simp only [walkChildren, childrenOf_of_carries hcarries, pure_bind]

/-- A walk that accepts a node records it, and goes on to the children of its form. -/
theorem walkNode_of_accept {kind : Kind} {payload : Value}
    (haccept : g.accept ancestors location v = .ok (kind, payload)) (tracing : Bool) :
    ∃ form, g.node? v = some (form.kind.name, payload) ∧ g.Carries payload form ∧ v ∉ ancestors
      ∧ ∀ depth s, g.walkNode tracing (depth + 1) ancestors location v s
        = walkEach (fun index =>
            g.walkNode tracing depth (v :: ancestors) (location.child form.kind index))
          0 form.children (g.recorded tracing location form.kind payload s) := by
  obtain ⟨hshape, hfresh⟩ := accept_eq_ok_iff.mp haccept
  obtain ⟨form, rfl, hnode, hcarries⟩ := hasForm_of_shape hshape
  refine ⟨form, hnode, hcarries, hfresh, fun depth s => ?_⟩
  rw [walkNode_of_carries hnode hcarries, if_neg hfresh]

/-- **A walk refuses a node, or it goes on to the children of its form.** -/
theorem walkNode_cases (g : Graph) (tracing : Bool) (ancestors : List Value) (location : Location)
    (v : Value) :
    (∃ e, g.accept ancestors location v = .error e
      ∧ ∀ depth s, g.walkNode tracing (depth + 1) ancestors location v s = .error e s)
    ∨ ∃ form payload, g.HasForm v form ∧ v ∉ ancestors
      ∧ ∀ depth s, g.walkNode tracing (depth + 1) ancestors location v s
        = walkEach (fun index =>
            g.walkNode tracing depth (v :: ancestors) (location.child form.kind index))
          0 form.children (g.recorded tracing location form.kind payload s) := by
  cases haccept : g.accept ancestors location v with
  | error e => exact .inl ⟨e, rfl, walkNode_of_accept_error haccept tracing⟩
  | ok node =>
    obtain ⟨form, hnode, hcarries, hfresh, hwalk⟩ := walkNode_of_accept haccept tracing
    exact .inr ⟨form, node.2, ⟨node.2, hnode, hcarries⟩, hfresh, hwalk⟩

/-! ### A row of nodes -/

variable {self : Nat → Value → Walk Unit} {start : Nat} {vs : List Value}

theorem walkEach_cons_eq_ok_iff :
    walkEach self start (v :: vs) s = .ok () s'
      ↔ ∃ t, self start v s = .ok () t ∧ walkEach self (start + 1) vs t = .ok () s' := by
  rw [walkEach, Steps.bind_eq_ok_iff]
  constructor
  · rintro ⟨⟨⟩, t, hv, hvs⟩
    exact ⟨t, hv, hvs⟩
  · rintro ⟨t, hv, hvs⟩
    exact ⟨(), t, hv, hvs⟩

theorem getElem?_of_walkEach (h : walkEach self start vs s = .ok () s') :
    ∀ j c, vs[j]? = some c → ∃ t t', self (start + j) c t = .ok () t' := by
  induction vs generalizing start s with
  | nil => simp
  | cons v vs ih =>
    obtain ⟨t, hv, hvs⟩ := walkEach_cons_eq_ok_iff.mp h
    intro j c hc
    cases j with
    | zero =>
      obtain rfl : v = c := by simpa using hc
      exact ⟨s, t, hv⟩
    | succ j =>
      rw [show start + (j + 1) = start + 1 + j by omega]
      exact ih hvs j c (by simpa using hc)

/-- A row is rejected at its first member that is rejected. -/
theorem exists_of_walkEach_error (h : walkEach self start vs s = .error e s') :
    ∃ i c, vs[i]? = some c ∧ (∃ t t', self (start + i) c t = .error e t')
      ∧ ∀ j < i, ∀ d, vs[j]? = some d → ∃ t t', self (start + j) d t = .ok () t' := by
  induction vs generalizing start s with
  | nil => cases h
  | cons v vs ih =>
    rw [walkEach, Steps.bind_apply] at h
    cases hv : self start v s with
    | error e' t =>
      rw [hv] at h
      cases h
      exact ⟨0, v, rfl, ⟨s, s', hv⟩, by simp⟩
    | ok u t =>
      rw [hv] at h
      obtain ⟨i, c, hc, ⟨t₁, t₂, herror⟩, hearlier⟩ := ih h
      refine ⟨i + 1, c, hc, ⟨t₁, t₂, ?_⟩, ?_⟩
      · rw [show start + (i + 1) = start + 1 + i by omega, herror]
      · intro j hj d hd
        cases j with
        | zero =>
          obtain rfl : v = d := by simpa using hd
          exact ⟨s, t, hv⟩
        | succ j =>
          rw [show start + (j + 1) = start + 1 + j by omega]
          exact hearlier j (by omega) d (by simpa using hd)

/-- Where two walks agree unless the first runs out of room, so do the walks through a row. -/
theorem walkEach_congr {self' : Nat → Value → Walk Unit}
    (hself : ∀ index c t, (∀ t', self index c t ≠ .error .tooDeep t') →
      self' index c t = self index c t)
    (h : ∀ s', walkEach self start vs s ≠ .error .tooDeep s') :
    walkEach self' start vs s = walkEach self start vs s := by
  induction vs generalizing start s with
  | nil => rfl
  | cons v vs ih =>
    rw [walkEach, Steps.bind_apply] at h
    have hv : self' start v s = self start v s := by
      refine hself start v s fun t' heq => ?_
      rw [heq] at h
      exact h t' rfl
    rw [walkEach, walkEach, Steps.bind_apply, Steps.bind_apply, hv]
    cases hs : self start v s with
    | error e' t => rfl
    | ok u t =>
      rw [hs] at h
      exact ih h

/-! ### Walks that come to their end -/

/-- **A walk that comes to its end has met no offence.** -/
theorem not_offends_of_walkNode
    (h : g.walkNode tracing depth ancestors location v s = .ok () s') :
    ∀ path w, ¬ g.Offends ancestors v path w := by
  induction depth generalizing ancestors location v s s' with
  | zero => cases h
  | succ depth ih =>
    rcases g.walkNode_cases tracing ancestors location v with
      ⟨e, -, hwalk⟩ | ⟨form, payload, hform, hfresh, hwalk⟩
    · rw [hwalk] at h
      cases h
    · rw [hwalk] at h
      intro path w hoffends
      cases path with
      | nil =>
        obtain ⟨-, hshape | hmem⟩ := offends_nil.mp hoffends
        · exact hshape (shape_iff_hasForm.mpr ⟨form, hform⟩)
        · exact hfresh hmem
      | cons i path =>
        obtain ⟨c, hc, hbelow⟩ := (offends_cons hform).mp hoffends
        obtain ⟨t, t', hok⟩ := getElem?_of_walkEach h i c hc
        exact ih hok path w hbelow

/-! ### Walks that are rejected -/

/-- The rejection **answers** to an offence at `w`: it is a fault if the operator of `w` cannot
be looked up, and otherwise a violation with a location. -/
def Answers (g : Graph) (w : Value) (e : Rejection) : Prop :=
  (e = .fault .wrongType ∧ g.HasUnkeyedOperator w)
    ∨ (∃ violation location, e = .violation violation (some location))
      ∧ ¬ g.HasUnkeyedOperator w

theorem answers_of_accept (h : g.accept ancestors location v = .error e) :
    g.FirstOffence ancestors v [] v ∧ g.Answers v e := by
  rcases accept_eq_error h with ⟨m, hshape, rfl⟩ | ⟨kind, payload, hshape, hmem, rfl⟩
  · refine ⟨firstOffence_nil (.inl (by simp [hshape])), ?_⟩
    cases m with
    | violation violation =>
      refine .inr ⟨⟨violation, location, rfl⟩, fun hop => ?_⟩
      rw [shape_eq_fault_iff.mpr ⟨rfl, hop⟩] at hshape
      cases hshape
    | fault f =>
      obtain ⟨rfl, hop⟩ := shape_eq_fault_iff.mp hshape
      exact .inl ⟨rfl, hop⟩
  · refine ⟨firstOffence_nil (.inr hmem), .inr ⟨⟨_, _, rfl⟩, fun hop => ?_⟩⟩
    rw [shape_eq_fault_iff.mpr ⟨rfl, hop⟩] at hshape
    cases hshape

/-- **A walk that is rejected has met its first offence**, and the rejection answers to it. -/
theorem firstOffence_of_walkNode
    (h : g.walkNode tracing depth ancestors location v s = .error e s') (hroom : e ≠ .tooDeep) :
    ∃ path w, g.FirstOffence ancestors v path w ∧ g.Answers w e := by
  induction depth generalizing ancestors location v s s' with
  | zero =>
    cases h
    exact absurd rfl hroom
  | succ depth ih =>
    rcases g.walkNode_cases tracing ancestors location v with
      ⟨e', haccept, hwalk⟩ | ⟨form, payload, hform, hfresh, hwalk⟩
    · rw [hwalk] at h
      cases h
      exact ⟨[], v, answers_of_accept haccept⟩
    · rw [hwalk] at h
      obtain ⟨i, c, hc, ⟨t, t', herror⟩, hearlier⟩ := exists_of_walkEach_error h
      obtain ⟨path, w, hfirst, hanswers⟩ := ih herror
      refine ⟨i :: path, w, firstOffence_cons hform hfresh hc hfirst ?_, hanswers⟩
      -- the walks through the earlier children have come to their ends
      intro j hj d hd
      obtain ⟨t, t', hok⟩ := hearlier j hj d hd
      exact not_offends_of_walkNode hok

/-! ### Room -/

theorem isSome_object?_of_hasForm (hform : g.HasForm v form) : (g.object? v).isSome = true := by
  obtain ⟨payload, hnode, -⟩ := hform
  obtain ⟨fields, hrec, -⟩ := node?_eq_some_iff.mp hnode
  unfold record? at hrec
  cases ho : g.object? v with
  | none => rw [ho] at hrec; cases hrec
  | some o => rfl

/-- Different objects are at most as many as there are objects. -/
theorem length_le_of_nodup (hnodup : ancestors.Nodup)
    (hobjects : ∀ a ∈ ancestors, (g.object? a).isSome = true) :
    ancestors.length ≤ g.objects.size := by
  have hsub : ancestors ⊆ (List.range g.objects.size).map Value.ref := by
    intro a ha
    have hsome := hobjects a ha
    cases a with
    | ref id =>
      simpa [object?] using hsome
    | _ => simp [object?] at hsome
  simpa using (List.subperm_of_subset hnodup hsub).length_le

/-- **A walk with more room than there are objects does not run out of it.** -/
theorem walkNode_ne_tooDeep (hnodup : ancestors.Nodup)
    (hobjects : ∀ a ∈ ancestors, (g.object? a).isSome = true)
    (hroom : g.objects.size < depth + ancestors.length) (s' : Survey) :
    g.walkNode tracing depth ancestors location v s ≠ .error .tooDeep s' := by
  induction depth generalizing ancestors location v s s' with
  | zero =>
    -- the ancestors are different objects, and there are not that many
    have := length_le_of_nodup hnodup hobjects
    omega
  | succ depth ih =>
    rcases g.walkNode_cases tracing ancestors location v with
      ⟨e', haccept, hwalk⟩ | ⟨form, payload, hform, hfresh, hwalk⟩
    · rw [hwalk]
      rcases (answers_of_accept haccept).2 with ⟨rfl, -⟩ | ⟨⟨violation, location, rfl⟩, -⟩ <;> simp
    · rw [hwalk]
      intro hdeep
      obtain ⟨i, c, -, ⟨t, t', herror⟩, -⟩ := exists_of_walkEach_error hdeep
      -- the node becomes an ancestor of its children, and it was none of its own
      refine ih (List.nodup_cons.mpr ⟨hfresh, hnodup⟩) ?_ ?_ t' herror
      · intro a ha
        rcases List.mem_cons.mp ha with rfl | ha
        · exact isSome_object?_of_hasForm hform
        · exact hobjects a ha
      · rw [List.length_cons]
        omega

/-- A walk that does not run out of room goes the same way with more of it. -/
theorem walkNode_succ (h : ∀ s', g.walkNode tracing depth ancestors location v s
      ≠ .error .tooDeep s') :
    g.walkNode tracing (depth + 1) ancestors location v s
      = g.walkNode tracing depth ancestors location v s := by
  induction depth generalizing ancestors location v s with
  | zero => exact absurd rfl (h s)
  | succ depth ih =>
    rcases g.walkNode_cases tracing ancestors location v with
      ⟨e, -, hwalk⟩ | ⟨form, payload, hform, hfresh, hwalk⟩
    · rw [hwalk, hwalk]
    · rw [hwalk] at h
      rw [hwalk, hwalk]
      exact walkEach_congr (fun index c t hdeep => ih hdeep) h

end Treewalk.Graph
