import Treewalk.Table
import Treewalk.Node.Kind

/-!
## Summaries of programs

A summary tells what a program touches: how many nodes it has, how many of each kind, and
the names that are assigned, defined and called, each once and in the order in which they
are first seen.

* `mem_noteName`: noting a name adds that name and no other.
* `nodup_noteName`: no name is noted twice.
-/

namespace Treewalk

/-- A **summary** of the nodes that have been visited. -/
structure Summary where
  /-- The number of nodes. -/
  nodeCount : Nat := 0
  /-- The number of nodes with each tag, in the order in which the tags are first seen. -/
  nodeKinds : Table Nat := .empty
  /-- The variables that are assigned. -/
  assigned : List String := []
  /-- The functions that are defined. -/
  defined : List String := []
  /-- The functions that are called. -/
  called : List String := []
deriving DecidableEq, Repr, Inhabited

namespace Summary

/-- The summary of no node at all. -/
def empty : Summary := {}

/-- A list of names with one more name, unless it is there already. -/
def noteName (names : List String) (name : String) : List String :=
  if names.contains name then names else names ++ [name]

/-- The summary with one more node of the given kind. -/
def count (s : Summary) (kind : Kind) : Summary :=
  { s with
    nodeCount := s.nodeCount + 1
    nodeKinds := s.nodeKinds.insert kind.name ((s.nodeKinds.get? kind.name).getD 0 + 1) }

/-- The summary with the name of a node noted, if nodes of its kind have one to note. -/
def note (s : Summary) (kind : Kind) (name : String) : Summary :=
  match kind with
  | .assignment => { s with assigned := noteName s.assigned name }
  | .definition => { s with defined := noteName s.defined name }
  | .call => { s with called := noteName s.called name }
  | _ => s

/-! ### Laws -/

theorem mem_noteName {names : List String} {name other : String} :
    other ∈ noteName names name ↔ other ∈ names ∨ other = name := by
  unfold noteName
  by_cases h : name ∈ names
  · simp only [List.contains_iff_mem, h, if_true]
    constructor
    · exact Or.inl
    · rintro (hmem | rfl)
      · exact hmem
      · exact h
  · simp [h]

/-- **A name is noted once.** -/
theorem nodup_noteName {names : List String} (h : names.Nodup) (name : String) :
    (noteName names name).Nodup := by
  unfold noteName
  by_cases hmem : name ∈ names
  · simpa [List.contains_iff_mem, hmem] using h
  · simp only [List.contains_iff_mem, hmem, if_false]
    exact List.nodup_append.mpr
      ⟨h, by simp, fun a ha b hb => by
        rw [List.mem_singleton.mp hb]
        rintro rfl
        exact hmem ha⟩

theorem nodeCount_count (s : Summary) (kind : Kind) :
    (s.count kind).nodeCount = s.nodeCount + 1 := rfl

@[simp]
theorem nodeCount_note (s : Summary) (kind : Kind) (name : String) :
    (s.note kind name).nodeCount = s.nodeCount := by
  cases kind <;> rfl

end Summary

end Treewalk
