import Mathlib.Data.List.MinMax
import Mathlib.Order.Lattice.Nat
import Treewalk.Proofs.Functions

/-!
## Heights

The height of a node is the number of nodes on the longest way down from it. A well-formed node
has only finitely many ways down, and its children are less high than it is. A function has the
height of its node.

* `height_lt_of_isChild`: children are less high.
* `exists_signature_height_lt`: the statements of a function that passes validation are less
  high than the function.
-/

namespace Treewalk.Graph

variable {g g' : Graph} {v w c p b : Value} {form : Form} {function : Callable} {n : Nat}

/-! ### Nodes -/

/-- The **height** of a node: the number of nodes on the longest way down. -/
noncomputable def height (g : Graph) (v : Value) : Nat :=
  sSup {n | ∃ path w, g.descend? v path = some w ∧ n = path.length + 1}

/-- The ways down from a well-formed node are bounded, as those from its children are. -/
theorem WellFormed.exists_bound (h : g.WellFormed v) :
    ∃ n, ∀ path w, g.descend? v path = some w → path.length + 1 ≤ n := by
  induction h with
  | @node v form hform _ ih =>
    -- one more than the greatest of the bounds for the children
    choose bound hbound using ih
    refine ⟨(form.children.attach.map fun c => bound c.1 c.2).foldr max 0 + 1, ?_⟩
    intro path w hpath
    cases path with
    | nil => exact Nat.succ_le_succ (Nat.zero_le _)
    | cons i path =>
      rw [descend?_cons hform, Option.bind_eq_some_iff] at hpath
      obtain ⟨c, hi, hpath⟩ := hpath
      have hc : c ∈ form.children := List.mem_of_getElem? hi
      have hle := hbound c hc path w hpath
      have hmem : bound c hc ∈ form.children.attach.map fun c => bound c.1 c.2 :=
        List.mem_map.mpr ⟨⟨c, hc⟩, List.mem_attach _ _, rfl⟩
      have hmax := List.le_max_of_le' 0 hmem (Nat.le_refl _)
      rw [List.length_cons]
      omega

theorem length_lt_height (h : g.WellFormed v) {path : List Nat}
    (hpath : g.descend? v path = some w) : path.length < g.height v := by
  obtain ⟨n, hn⟩ := h.exists_bound
  refine le_csSup ⟨n, ?_⟩ ⟨path, w, hpath, rfl⟩
  rintro _ ⟨path', w', hpath', rfl⟩
  exact hn path' w' hpath'

theorem height_le (h : ∀ path w, g.descend? v path = some w → path.length < n) :
    g.height v ≤ n := by
  refine csSup_le ⟨1, [], v, rfl, rfl⟩ ?_
  rintro _ ⟨path, w, hpath, rfl⟩
  exact h path w hpath

theorem height_pos (h : g.WellFormed v) : 0 < g.height v :=
  length_lt_height h (descend?_nil g v)

/-- **Children are less high.** -/
theorem height_lt_of_isChild (h : g.WellFormed v) (hchild : g.IsChild v c) :
    g.height c < g.height v := by
  obtain ⟨i, hi⟩ := isChild_iff_descend?.mp hchild
  have hpos := height_pos h
  -- a way down from the child is one from the node with a step before it
  have hle : g.height c ≤ g.height v - 1 := by
    refine height_le fun path w hpath => ?_
    have hbelow : g.descend? v ([i] ++ path) = some w := by
      rw [descend?_append, hi, Option.bind_some, hpath]
    have hlt := length_lt_height h hbelow
    rw [List.length_append, List.length_singleton] at hlt
    omega
  omega

/-! ### Functions -/

theorem descend?_transfer (hobject : ∀ v o, g.object? v = some o → g'.object? v = some o)
    (h : g.WellFormed v) {path : List Nat} (hpath : g.descend? v path = some w) :
    g'.descend? v path = some w := by
  induction path generalizing v with
  | nil => exact hpath
  | cons i path ih =>
    obtain ⟨form, hform⟩ := h.hasForm
    rw [descend?_cons hform, Option.bind_eq_some_iff] at hpath
    obtain ⟨c, hi, hpath⟩ := hpath
    have hc : g.IsChild v c := (isChild_iff hform).mpr (List.mem_of_getElem? hi)
    rw [descend?_cons (hform.transfer hobject), hi, Option.bind_some]
    exact ih (h.of_isChild hc) hpath

/-- A well-formed node is at least as high in a graph that has all the objects. -/
theorem height_le_of_transfer (hobject : ∀ v o, g.object? v = some o → g'.object? v = some o)
    (h : g.WellFormed v) : g.height v ≤ g'.height v :=
  height_le fun _ _ hpath =>
    length_lt_height (h.transfer hobject) (descend?_transfer hobject h hpath)

/-- The height of a function is that of its node. -/
noncomputable def functionHeight (g : Graph) (function : Callable) : Nat :=
  match function.node g with
  | .ok v g' => g'.height v
  | .error _ _ => 0

/-- **The statements of a function that passes are less high than the function.** -/
theorem exists_signature_height_lt (h : g.AcceptsFunction function) :
    ∃ names statements, g.HasSignature function names statements
      ∧ ∀ s ∈ statements, g.WellFormed s ∧ g.height s < g.functionHeight function := by
  cases function with
  | given v =>
    obtain ⟨names, statements, hform, hstatements⟩ :=
      (acceptsFunction_iff_of_node (show (Callable.given v).node g = .ok v g from rfl)).mp h
    refine ⟨names, statements, hasSignature_given hform, fun s hs => ⟨hstatements s hs, ?_⟩⟩
    exact height_lt_of_isChild (.node hform hstatements) ((isChild_iff hform).mpr hs)
  | defined p b =>
    obtain ⟨names, statements, hsignature, hstatements⟩ := acceptsFunction_defined_iff.mp h
    -- the node is made in a larger graph, where the statements are no less high
    have hform := hasForm_withFunction hsignature
    have hobject : ∀ v o, g.object? v = some o → (g.withFunction p b).object? v = some o :=
      fun v o => object?_withFunction
    have hnode : (g.withFunction p b).WellFormed (.ref (g.objects.size + 1)) :=
      .node hform fun s hs => (hstatements s hs).transfer hobject
    refine ⟨names, statements, hsignature, fun s hs => ⟨hstatements s hs, ?_⟩⟩
    have hheight : g.functionHeight (.defined p b)
        = (g.withFunction p b).height (.ref (g.objects.size + 1)) := by
      rw [functionHeight, node_defined]
    rw [hheight]
    exact Nat.lt_of_le_of_lt (height_le_of_transfer hobject (hstatements s hs))
      (height_lt_of_isChild hnode ((isChild_iff hform).mpr hs))

/-! ### Programs -/

/-- The greatest height among the statements of a program and the functions in an environment. -/
noncomputable def greatestHeight (g : Graph) (program : Value) (env : Env) : Nat :=
  (((g.items program).toOption.getD []).map g.height
    ++ env.functions.entries.map fun entry => g.functionHeight entry.2).foldr max 0

theorem height_le_greatestHeight {program : Value} {statements : List Value} (env : Env)
    (hitems : g.items program = .ok statements) (hv : v ∈ statements) :
    g.height v ≤ g.greatestHeight program env := by
  refine List.le_max_of_le' 0 (List.mem_append_left _ (List.mem_map_of_mem ?_)) (Nat.le_refl _)
  rw [hitems]
  exact hv

theorem mem_of_findEntry {α : Type} {key : String} {value : α} {entries : List (String × α)}
    (h : Table.findEntry key entries = some value) : (key, value) ∈ entries := by
  induction entries with
  | nil => cases h
  | cons entry entries ih =>
    rw [Table.findEntry] at h
    split at h
    · rename_i heq
      cases h
      exact heq ▸ List.mem_cons_self ..
    · exact List.mem_cons_of_mem _ (ih h)

theorem functionHeight_le_greatestHeight (program : Value) {env : Env} {name : String}
    (h : env.function? name = some function) :
    g.functionHeight function ≤ g.greatestHeight program env := by
  refine List.le_max_of_le' 0 (List.mem_append_right _ ?_) (Nat.le_refl _)
  exact List.mem_map.mpr ⟨(name, function), mem_of_findEntry h, rfl⟩

end Treewalk.Graph
