import Mathlib.Logic.Relation
import Treewalk.Proofs.ShapeCheck

/-!
## What is reached from a node

`Graph.Reaches` is the relation between a value and everything that is reached from it through
children, and `Graph.StrictlyReaches` asks for at least one step. `Graph.descend?` follows a
list of child indices, so an occurrence below a value is such a list, and the order in which a
walk from left to right meets the occurrences is the lexicographic order of the lists, in which
a list comes before all that begin with it.

* `reaches_iff_descend?`: what is reached is what some list of indices leads to.
* `WellFormed.not_strictlyReaches_self`: a well-formed node, one that has a form and whose
  children are well formed in turn, is not reached again below itself.
-/

namespace Treewalk.Graph

open Relation

variable {g : Graph} {v w c : Value} {form : Form}

/-! ### Relations -/

/-- The second value is a child of the first. -/
def IsChild (g : Graph) (v c : Value) : Prop :=
  ∃ children, g.children v = .ok children ∧ c ∈ children

/-- The second value is **reached** from the first by taking children any number of times. -/
def Reaches (g : Graph) : Value → Value → Prop :=
  ReflTransGen g.IsChild

/-- The second value is reached from the first by taking children at least once. -/
def StrictlyReaches (g : Graph) : Value → Value → Prop :=
  TransGen g.IsChild

theorem isChild_iff (hform : g.HasForm v form) : g.IsChild v c ↔ c ∈ form.children := by
  unfold IsChild
  rw [children_of_hasForm hform]
  simp

/-! ### Occurrences -/

/-- The value that a list of child indices leads to. -/
def descend? (g : Graph) : Value → List Nat → Option Value
  | v, [] => some v
  | v, i :: path =>
    match g.children v with
    | .ok children => children[i]?.bind fun c => g.descend? c path
    | .error _ => none

@[simp]
theorem descend?_nil (g : Graph) (v : Value) : g.descend? v [] = some v := rfl

theorem descend?_cons (hform : g.HasForm v form) (i : Nat) (path : List Nat) :
    g.descend? v (i :: path) = form.children[i]?.bind fun c => g.descend? c path := by
  rw [descend?, children_of_hasForm hform]

theorem descend?_append (g : Graph) (p q : List Nat) :
    ∀ v, g.descend? v (p ++ q) = (g.descend? v p).bind fun w => g.descend? w q := by
  induction p with
  | nil => intro v; rfl
  | cons i p ih =>
    intro v
    rw [List.cons_append, descend?, descend?]
    cases g.children v with
    | error f => rfl
    | ok children =>
      show (children[i]?.bind fun c => g.descend? c (p ++ q)) = _
      rw [Option.bind_assoc]
      exact Option.bind_congr fun c _ => ih c

theorem isChild_iff_descend? : g.IsChild v c ↔ ∃ i, g.descend? v [i] = some c := by
  unfold IsChild
  simp only [descend?]
  cases g.children v with
  | error f => simp
  | ok children => simp [List.mem_iff_getElem?]

/-- **What is reached is what some list of indices leads to.** -/
theorem reaches_iff_descend? : g.Reaches v w ↔ ∃ path, g.descend? v path = some w := by
  constructor
  · intro h
    induction h with
    | refl => exact ⟨[], rfl⟩
    | tail _ hchild ih =>
      obtain ⟨path, hpath⟩ := ih
      obtain ⟨i, hi⟩ := isChild_iff_descend?.mp hchild
      exact ⟨path ++ [i], by rw [descend?_append, hpath, Option.bind_some, hi]⟩
  · rintro ⟨path, hpath⟩
    induction path generalizing v with
    | nil =>
      obtain rfl : v = w := by simpa using hpath
      exact ReflTransGen.refl
    | cons i path ih =>
      rw [← List.singleton_append, descend?_append, Option.bind_eq_some_iff] at hpath
      obtain ⟨c, hc, hpath⟩ := hpath
      exact ReflTransGen.head (isChild_iff_descend?.mpr ⟨i, hc⟩) (ih hpath)

theorem strictlyReaches_iff_descend? :
    g.StrictlyReaches v w ↔ ∃ path, path ≠ [] ∧ g.descend? v path = some w := by
  constructor
  · intro h
    obtain ⟨c, hc, hcw⟩ := TransGen.head'_iff.mp h
    obtain ⟨i, hi⟩ := isChild_iff_descend?.mp hc
    obtain ⟨path, hpath⟩ := reaches_iff_descend?.mp hcw
    refine ⟨[i] ++ path, by simp, ?_⟩
    rw [descend?_append, hi, Option.bind_some, hpath]
  · rintro ⟨path, hne, hpath⟩
    cases path with
    | nil => exact absurd rfl hne
    | cons i path =>
      rw [← List.singleton_append, descend?_append, Option.bind_eq_some_iff] at hpath
      obtain ⟨c, hc, hpath⟩ := hpath
      exact TransGen.head' (isChild_iff_descend?.mpr ⟨i, hc⟩)
        (reaches_iff_descend?.mpr ⟨path, hpath⟩)

/-! ### Well-formed nodes -/

/-- A **well-formed** node has a form, and its children are well formed. Being inductive, the
definition leaves no room for a node that is reached again below itself. -/
inductive WellFormed (g : Graph) : Value → Prop where
  | node {v : Value} {form : Form} (hform : g.HasForm v form)
    (hchildren : ∀ c ∈ form.children, g.WellFormed c) : g.WellFormed v

namespace WellFormed

theorem hasForm (h : g.WellFormed v) : ∃ form, g.HasForm v form := by
  cases h with
  | node hform _ => exact ⟨_, hform⟩

theorem of_isChild (h : g.WellFormed v) (hchild : g.IsChild v c) : g.WellFormed c := by
  cases h with
  | node hform hchildren => exact hchildren c ((isChild_iff hform).mp hchild)

theorem of_reaches (h : g.WellFormed v) (hreaches : g.Reaches v w) : g.WellFormed w := by
  induction hreaches with
  | refl => exact h
  | tail _ hchild ih => exact ih.of_isChild hchild

/-- **A well-formed node is not reached again below itself.** A cycle through a node is a cycle
through one of its children. -/
theorem not_strictlyReaches_self (h : g.WellFormed v) : ¬ g.StrictlyReaches v v := by
  induction h with
  | node hform _ ih =>
    intro hcycle
    -- turned by one step, the cycle goes through a child
    obtain ⟨c, hc, hback⟩ := TransGen.head'_iff.mp hcycle
    exact ih c ((isChild_iff hform).mp hc) (TransGen.tail' hback hc)

end WellFormed

end Treewalk.Graph
