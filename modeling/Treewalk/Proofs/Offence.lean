import Mathlib.Tactic.ByContra
import Mathlib.Tactic.Tauto
import Treewalk.Proofs.Reach

/-!
## Offending occurrences

An occurrence below a value offends if the value there does not have the shape of a node, or if
it is one of its own ancestors. `Graph.Offends` says so for a given list of ancestors from
which one starts, and `Graph.FirstOffence` picks the offending occurrence that a walk from left
to right, parents before children, meets first.

* `forall_not_offends_iff`: no occurrence offends exactly when all that is reached has the
  shape of a node and nothing that is reached is reached again strictly below itself.
* `firstOffence_cons`: the first offence below a node is the first offence below the first of
  its children that has one.
-/

namespace Treewalk.Graph

variable {g : Graph} {ancestors : List Value} {v w c : Value} {form : Form} {i : Nat}
  {path : List Nat}

/-- The occurrence at `path` below `v`, which is `w`, **offends**. -/
def Offends (g : Graph) (ancestors : List Value) (v : Value) (path : List Nat) (w : Value) :
    Prop :=
  g.descend? v path = some w
    ∧ ((¬ ∃ s, g.shape w = .ok s) ∨ w ∈ ancestors
      ∨ ∃ above, above <+: path ∧ above ≠ path ∧ g.descend? v above = some w)

/-- The occurrence at `path` below `v`, which is `w`, offends, and none before it does. -/
def FirstOffence (g : Graph) (ancestors : List Value) (v : Value) (path : List Nat)
    (w : Value) : Prop :=
  g.Offends ancestors v path w ∧ ∀ path' w', path' < path → ¬ g.Offends ancestors v path' w'

/-! ### Offences below a value and below its children -/

theorem offends_nil :
    g.Offends ancestors v [] w ↔ w = v ∧ ((¬ ∃ s, g.shape v = .ok s) ∨ v ∈ ancestors) := by
  constructor
  · rintro ⟨hpath, hwhy⟩
    obtain rfl : v = w := by simpa using hpath
    rcases hwhy with hshape | hmem | ⟨above, hprefix, hne, -⟩
    · exact ⟨rfl, .inl hshape⟩
    · exact ⟨rfl, .inr hmem⟩
    · exact absurd (List.prefix_nil.mp hprefix) hne
  · rintro ⟨rfl, hshape | hmem⟩
    · exact ⟨rfl, .inl hshape⟩
    · exact ⟨rfl, .inr (.inl hmem)⟩

/-- The part of a path above a place is nothing, or it goes the same way. -/
theorem exists_above_cons_iff (hform : g.HasForm v form) (hc : form.children[i]? = some c) :
    (∃ above, above <+: i :: path ∧ above ≠ i :: path ∧ g.descend? v above = some w)
      ↔ w = v ∨ ∃ above, above <+: path ∧ above ≠ path ∧ g.descend? c above = some w := by
  constructor
  · rintro ⟨above, hprefix, hne, hw⟩
    cases above with
    | nil => exact .inl (by simpa using hw.symm)
    | cons j above =>
      obtain ⟨rfl, hrest⟩ := List.cons_prefix_cons.mp hprefix
      rw [descend?_cons hform, hc, Option.bind_some] at hw
      exact .inr ⟨above, hrest, fun heq => hne (by rw [heq]), hw⟩
  · rintro (rfl | ⟨above, hprefix, hne, hw⟩)
    · exact ⟨[], List.nil_prefix, by simp, rfl⟩
    · refine ⟨i :: above, List.cons_prefix_cons.mpr ⟨rfl, hprefix⟩, by simpa using hne, ?_⟩
      rw [descend?_cons hform, hc, Option.bind_some, hw]

theorem offends_cons (hform : g.HasForm v form) :
    g.Offends ancestors v (i :: path) w
      ↔ ∃ c, form.children[i]? = some c ∧ g.Offends (v :: ancestors) c path w := by
  unfold Offends
  rw [descend?_cons hform]
  constructor
  · rintro ⟨hpath, hwhy⟩
    obtain ⟨c, hc, hpath⟩ := Option.bind_eq_some_iff.mp hpath
    rw [exists_above_cons_iff hform hc] at hwhy
    refine ⟨c, hc, hpath, ?_⟩
    rw [List.mem_cons]
    tauto
  · rintro ⟨c, hc, hpath, hwhy⟩
    rw [List.mem_cons] at hwhy
    rw [exists_above_cons_iff hform hc]
    refine ⟨by rw [hc, Option.bind_some, hpath], ?_⟩
    tauto

/-! ### First offences -/

theorem firstOffence_nil (h : (¬ ∃ s, g.shape v = .ok s) ∨ v ∈ ancestors) :
    g.FirstOffence ancestors v [] v :=
  ⟨offends_nil.mpr ⟨rfl, h⟩, fun path' _ hlt => absurd hlt (List.not_lt_nil path')⟩

/-- **The first offence below a node** is the first one below the first child that has one. -/
theorem firstOffence_cons (hform : g.HasForm v form) (hfresh : v ∉ ancestors)
    (hc : form.children[i]? = some c) (hfirst : g.FirstOffence (v :: ancestors) c path w)
    (hearlier : ∀ j < i, ∀ d, form.children[j]? = some d →
      ∀ path' w', ¬ g.Offends (v :: ancestors) d path' w') :
    g.FirstOffence ancestors v (i :: path) w := by
  refine ⟨(offends_cons hform).mpr ⟨c, hc, hfirst.1⟩, ?_⟩
  intro path' w' hlt hoffends
  cases path' with
  | nil =>
    obtain ⟨-, hshape | hmem⟩ := offends_nil.mp hoffends
    · exact hshape (shape_iff_hasForm.mpr ⟨form, hform⟩)
    · exact hfresh hmem
  | cons j path' =>
    obtain ⟨d, hd, hoffends⟩ := (offends_cons hform).mp hoffends
    -- an earlier occurrence is below an earlier child, or earlier below the same one
    rcases List.cons_lt_cons_iff.mp hlt with hji | ⟨rfl, hrest⟩
    · exact hearlier j hji d hd path' w' hoffends
    · obtain rfl : c = d := Option.some.inj (hc.symm.trans hd)
      exact hfirst.2 path' w' hrest hoffends

/-! ### No offence at all -/

/-- **No occurrence offends exactly when all that is reached is a node in shape and no node is
reached again strictly below itself.** -/
theorem forall_not_offends_iff :
    (∀ path w, ¬ g.Offends [] v path w)
      ↔ ∀ w, g.Reaches v w → (∃ s, g.shape w = .ok s) ∧ ¬ g.StrictlyReaches w w := by
  constructor
  · intro h w hreaches
    obtain ⟨path, hpath⟩ := reaches_iff_descend?.mp hreaches
    constructor
    · by_contra hshape
      exact h path w ⟨hpath, .inl hshape⟩
    · intro hcycle
      obtain ⟨round, hne, hround⟩ := strictlyReaches_iff_descend?.mp hcycle
      refine h (path ++ round) w ⟨?_, .inr (.inr ⟨path, List.prefix_append _ _, ?_, hpath⟩)⟩
      · rw [descend?_append, hpath, Option.bind_some, hround]
      · simpa using hne.symm
  · -- what is repeated below one of its occurrences is reached again below itself
    rintro h path w ⟨hpath, hshape | hmem | ⟨above, ⟨round, rfl⟩, hne, habove⟩⟩
    · exact hshape (h w (reaches_iff_descend?.mpr ⟨path, hpath⟩)).1
    · exact List.not_mem_nil hmem
    · rw [descend?_append, habove, Option.bind_some] at hpath
      refine (h w (reaches_iff_descend?.mpr ⟨above, habove⟩)).2
        (strictlyReaches_iff_descend?.mpr ⟨round, ?_, hpath⟩)
      rintro rfl
      exact hne (by simp)

end Treewalk.Graph
