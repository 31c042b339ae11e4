import Treewalk.Proofs.Decision

/-!
## What a summary covers

A walk that comes to its end has noted the names that the nodes below its root assign, define and
call. `Summary.Covers` says that the name of a form is noted, and `Graph.Occurs` that a value
occurs in a program.

* `covers_of_walkNode`: so it is for one node, with the names that were noted before.
* `covers_of_validateProgram`: the summary of a program that is accepted covers all nodes that
  occur in it.
-/

namespace Treewalk

/-! ### Summaries -/

namespace Summary

/-- The name that a node of the form has noted. -/
def Covers (s : Summary) : Form → Prop
  | .assignment name _ => name ∈ s.assigned
  | .definition name _ _ _ => name ∈ s.defined
  | .call name _ => name ∈ s.called
  | _ => True

/-- The summary with one more node, which has the given label. -/
def enter (s : Summary) (label : Label) : Summary :=
  (s.count label.kind).note label.kind label.name

/-- All names of the first summary are in the second. -/
structure Within (s t : Summary) : Prop where
  assigned : s.assigned ⊆ t.assigned
  defined : s.defined ⊆ t.defined
  called : s.called ⊆ t.called

variable {s t u : Summary} {form : Form}

theorem Within.refl (s : Summary) : s.Within s :=
  ⟨fun _ => id, fun _ => id, fun _ => id⟩

theorem Within.trans (hst : s.Within t) (htu : t.Within u) : s.Within u :=
  ⟨List.Subset.trans hst.assigned htu.assigned, List.Subset.trans hst.defined htu.defined,
    List.Subset.trans hst.called htu.called⟩

theorem Covers.mono (hst : s.Within t) (h : s.Covers form) : t.Covers form := by
  cases form with
  | assignment => exact hst.assigned h
  | definition => exact hst.defined h
  | call => exact hst.called h
  | _ => trivial

theorem subset_noteName (names : List String) (name : String) : names ⊆ noteName names name :=
  fun _ hmem => mem_noteName.mpr (.inl hmem)

/-- The names that are called are those that labels of calls have. -/
theorem mem_called_foldl_enter {name : String} {labels : List Label} :
    name ∈ (labels.foldl enter s).called ↔ name ∈ s.called ∨ .call name ∈ labels := by
  induction labels generalizing s with
  | nil => simp
  | cons label labels ih =>
    rw [List.foldl_cons, ih, List.mem_cons, ← or_assoc]
    refine or_congr_left ?_
    cases label with
    | call other =>
      show name ∈ noteName s.called other ↔ _
      simp [mem_noteName]
    | _ => simp [enter, Label.kind, note, count]

/-- Counting a node and noting its name forgets no other name. -/
theorem within_note_count (s : Summary) (kind : Kind) (name : String) :
    s.Within ((s.count kind).note kind name) := by
  cases kind with
  | assignment => exact ⟨subset_noteName _ _, fun _ => id, fun _ => id⟩
  | definition => exact ⟨fun _ => id, subset_noteName _ _, fun _ => id⟩
  | call => exact ⟨fun _ => id, fun _ => id, subset_noteName _ _⟩
  | _ => exact ⟨fun _ => id, fun _ => id, fun _ => id⟩

end Summary

/-! ### Occurrences -/

/-- The value occurs in the program: it is reached from a statement. -/
def Graph.Occurs (g : Graph) (program w : Value) : Prop :=
  ∃ statements, g.items program = .ok statements ∧ ∃ s ∈ statements, g.Reaches s w

namespace Graph

open Relation

variable {g : Graph} {tracing : Bool} {depth start : Nat} {ancestors vs : List Value}
  {location : Location} {program v w c : Value} {form : Form} {s s' : Survey}
  {self : Nat → Value → Walk Unit}

theorem Occurs.of_isChild (hw : g.Occurs program w) (hchild : g.IsChild w c) :
    g.Occurs program c := by
  obtain ⟨statements, hitems, s, hs, hreaches⟩ := hw
  exact ⟨statements, hitems, s, hs, hreaches.tail hchild⟩

/-! ### Walks -/

/-- **What a visit adds to a summary** is said by the label of the node. -/
theorem summary_recorded {payload : Value} (hcarries : g.Carries payload form) :
    (g.recorded tracing location form.kind payload s).summary = s.summary.enter form.label := by
  have hname : ∀ name, g.HoldsName payload "name" name → g.nameIn payload = name := by
    rintro name ⟨hfield, -⟩
    rw [nameIn, hfield]
  cases form with
  | assignment name expr =>
    rw [recorded, hname name hcarries.1]
    rfl
  | definition name function params body =>
    rw [recorded, hname name hcarries.1]
    rfl
  | call name args =>
    rw [recorded, hname name hcarries.1]
    rfl
  | _ => rfl

/-- A visit notes the name of the node. -/
theorem covers_recorded {payload : Value} (hcarries : g.Carries payload form) :
    (g.recorded tracing location form.kind payload s).summary.Covers form := by
  rw [summary_recorded hcarries]
  cases form with
  | assignment name expr => exact Summary.mem_noteName.mpr (.inr rfl)
  | definition name function params body => exact Summary.mem_noteName.mpr (.inr rfl)
  | call name args => exact Summary.mem_noteName.mpr (.inr rfl)
  | _ => trivial

/-- What each walk of a row covers is covered by the last survey. -/
theorem covers_of_walkEach
    (hself : ∀ index c t t', self index c t = .ok () t' → t.summary.Within t'.summary
      ∧ ∀ w form, g.Reaches c w → g.HasForm w form → t'.summary.Covers form)
    (hrow : walkEach self start vs s = .ok () s') :
    s.summary.Within s'.summary
      ∧ ∀ c ∈ vs, ∀ w form, g.Reaches c w → g.HasForm w form → s'.summary.Covers form := by
  induction vs generalizing start s with
  | nil =>
    cases hrow
    exact ⟨.refl _, by simp⟩
  | cons v vs ih =>
    obtain ⟨t, hv, hvs⟩ := walkEach_cons_eq_ok_iff.mp hrow
    obtain ⟨hwithin, hcovers⟩ := hself start v s t hv
    obtain ⟨hwithin', hcovers'⟩ := ih hvs
    refine ⟨hwithin.trans hwithin', fun c hc w form hreaches hform => ?_⟩
    rcases List.mem_cons.mp hc with rfl | hc
    · exact (hcovers w form hreaches hform).mono hwithin'
    · exact hcovers' c hc w form hreaches hform

/-- **A walk that comes to its end covers what is reached**, and forgets nothing. -/
theorem covers_of_walkNode
    (hwalk : g.walkNode tracing depth ancestors location v s = .ok () s') :
    s.summary.Within s'.summary
      ∧ ∀ w form, g.Reaches v w → g.HasForm w form → s'.summary.Covers form := by
  induction depth generalizing ancestors location v s s' with
  | zero => cases hwalk
  | succ depth ih =>
    cases haccept : g.accept ancestors location v with
    | error e =>
      rw [walkNode_of_accept_error haccept] at hwalk
      cases hwalk
    | ok node =>
      obtain ⟨form, hnode, hcarries, -, hchildren⟩ := walkNode_of_accept haccept tracing
      rw [hchildren] at hwalk
      obtain ⟨hwithin, hcovers⟩ := covers_of_walkEach (fun index c t t' => ih) hwalk
      refine ⟨(Summary.within_note_count _ _ _).trans hwithin, fun w form' hreaches hform' => ?_⟩
      -- the root itself has been noted, and all else is reached from a child
      rcases ReflTransGen.cases_head hreaches with rfl | ⟨c, hchild, hreaches⟩
      · obtain ⟨payload, hnode', hcarries'⟩ := hform'
        obtain ⟨hname, rfl⟩ : form.kind.name = form'.kind.name ∧ node.2 = payload := by
          rw [hnode] at hnode'
          exact Prod.mk.inj (Option.some.inj hnode')
        rw [Kind.name_injective hname] at hwithin
        exact (covers_recorded hcarries').mono hwithin
      · exact hcovers c ((isChild_iff ⟨node.2, hnode, hcarries⟩).mp hchild) w form' hreaches hform'

/-- **The summary of an accepted program covers all that occurs in it.** -/
theorem covers_of_validateProgram
    (hvalid : (g.validateProgram tracing depth program).1 = .ok ())
    (hw : g.Occurs program w) (hform : g.HasForm w form) :
    (g.validateProgram tracing depth program).2.summary.Covers form := by
  obtain ⟨statements, hitems, s, hs, hreaches⟩ := hw
  obtain ⟨statements', hitems', hwalk⟩ := exists_walkEach_of_validateProgram hvalid
  obtain rfl : statements = statements' := Except.ok.inj (hitems.symm.trans hitems')
  exact (covers_of_walkEach (fun index c t t' => covers_of_walkNode) hwalk).2 s hs w form
    hreaches hform

end Graph

end Treewalk
