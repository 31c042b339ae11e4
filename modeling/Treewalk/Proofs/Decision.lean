import Treewalk.Proofs.Validator

/-!
## Validation as a decision

With more room than there are objects, the answer of a validation depends on the graph and on
the node alone.

* `validateNode_eq_ok_iff`: a node is accepted if and only if it is well formed.
* `wellFormed_iff`: well-formed nodes are those from which only shaped nodes are reached, none
  of them again strictly below itself.
* `exists_wellFormed_of_validateProgram`: so are the statements of a program that is accepted.
* `validateNode_decides`: both together, with the reason for every rejection.
-/

namespace Treewalk.Graph

variable {g : Graph} {tracing : Bool} {depth depth' : Nat} {location : Location} {v : Value}
  {s s' start : Survey}

/-! ### More room -/

theorem walkNode_of_le (hle : depth ≤ depth')
    (h : ∀ s', g.walkNode tracing depth [] location v s ≠ .error .tooDeep s') :
    g.walkNode tracing depth' [] location v s = g.walkNode tracing depth [] location v s := by
  induction hle with
  | refl => rfl
  | step _ ih => rw [walkNode_succ (by rwa [ih]), ih]

/-- **Beyond the number of objects the room for a walk does not matter.** -/
theorem walkNode_eq_of_lt (hdepth : g.objects.size < depth) :
    g.walkNode tracing depth [] location v s
      = g.walkNode tracing (g.objects.size + 1) [] location v s := by
  refine walkNode_of_le hdepth fun s' => ?_
  exact walkNode_ne_tooDeep List.nodup_nil (by simp) (by simp) s'

/-! ### Acceptance -/

/-- A walk that comes to its end has met well-formed nodes only. -/
theorem wellFormed_of_walkNode {ancestors : List Value}
    (h : g.walkNode tracing depth ancestors location v s = .ok () s') : g.WellFormed v := by
  induction depth generalizing ancestors location v s s' with
  | zero => cases h
  | succ depth ih =>
    rcases g.walkNode_cases tracing ancestors location v with
      ⟨e, -, hwalk⟩ | ⟨form, payload, hform, -, hwalk⟩
    · rw [hwalk] at h
      cases h
    · rw [hwalk] at h
      refine .node hform fun c hc => ?_
      obtain ⟨i, hi⟩ := List.mem_iff_getElem?.mp hc
      obtain ⟨t, t', hok⟩ := getElem?_of_walkEach h i c hi
      exact ih hok

/-- A walk with room enough comes to its end if there is no offence to be met. -/
theorem exists_walkNode_eq_ok (tracing : Bool) (location : Location) (s : Survey)
    (hdepth : g.objects.size < depth) (h : ∀ path w, ¬ g.Offends [] v path w) :
    ∃ s', g.walkNode tracing depth [] location v s = .ok () s' := by
  cases hwalk : g.walkNode tracing depth [] location v s with
  | ok u s' => exact ⟨s', rfl⟩
  | error e s' =>
    have hroom : e ≠ .tooDeep := by
      rintro rfl
      exact walkNode_ne_tooDeep List.nodup_nil (by simp) (by simpa using hdepth) s' hwalk
    -- a rejection would be about an offence
    obtain ⟨path, w, hfirst, -⟩ := firstOffence_of_walkNode hwalk hroom
    exact absurd hfirst.1 (h path w)

/-- **Well-formed nodes** reach nothing but shaped nodes, none of them again below itself. -/
theorem wellFormed_iff :
    g.WellFormed v
      ↔ ∀ w, g.Reaches v w → (∃ s, g.shape w = .ok s) ∧ ¬ g.StrictlyReaches w w := by
  constructor
  · intro h w hreaches
    have hw := h.of_reaches hreaches
    exact ⟨shape_iff_hasForm.mpr hw.hasForm, hw.not_strictlyReaches_self⟩
  · -- the walk that comes to its end is the induction that the other side lacks
    intro h
    obtain ⟨s', hwalk⟩ := exists_walkNode_eq_ok false (.statement 0) {} (Nat.lt_succ_self _)
      (forall_not_offends_iff.mpr h)
    exact wellFormed_of_walkNode hwalk

theorem validateNode_eq_ok_iff_walkNode :
    (g.validateNode tracing depth location v start).1 = .ok ()
      ↔ ∃ s', g.walkNode tracing depth [] location v start = .ok () s' := by
  unfold validateNode outcome
  cases g.walkNode tracing depth [] location v start with
  | ok u s' => simp
  | error e s' => simp

theorem wellFormed_of_validateNode
    (h : (g.validateNode tracing depth location v start).1 = .ok ()) : g.WellFormed v := by
  obtain ⟨s', hwalk⟩ := validateNode_eq_ok_iff_walkNode.mp h
  exact wellFormed_of_walkNode hwalk

/-- **With room enough a node is accepted if and only if it is well formed.** -/
theorem validateNode_eq_ok_iff (hdepth : g.objects.size < depth) :
    (g.validateNode tracing depth location v start).1 = .ok () ↔ g.WellFormed v := by
  refine ⟨wellFormed_of_validateNode, fun h => ?_⟩
  exact validateNode_eq_ok_iff_walkNode.mpr
    (exists_walkNode_eq_ok tracing location start hdepth
      (forall_not_offends_iff.mpr (wellFormed_iff.mp h)))

/-- A program that is accepted has been walked through, statement by statement. -/
theorem exists_walkEach_of_validateProgram {program : Value}
    (h : (g.validateProgram tracing depth program).1 = .ok ()) :
    ∃ statements, g.items program = .ok statements
      ∧ walkEach (fun index => g.walkNode tracing depth [] (.statement index)) 0 statements {}
        = .ok () (g.validateProgram tracing depth program).2 := by
  unfold validateProgram outcome at h ⊢
  cases hwalk : g.walkProgram tracing depth program {} with
  | error e s' =>
    rw [hwalk] at h
    cases h
  | ok u s' =>
    unfold walkProgram at hwalk
    split at hwalk
    · cases hwalk
    cases hitems : g.items program with
    | error f =>
      rw [hitems] at hwalk
      cases hwalk
    | ok statements =>
      rw [hitems] at hwalk
      exact ⟨statements, rfl, hwalk⟩

/-- The statements of a program that is accepted are well formed. -/
theorem exists_wellFormed_of_validateProgram {program : Value}
    (h : (g.validateProgram tracing depth program).1 = .ok ()) :
    ∃ statements, g.items program = .ok statements ∧ ∀ s ∈ statements, g.WellFormed s := by
  obtain ⟨statements, hitems, hwalk⟩ := exists_walkEach_of_validateProgram h
  refine ⟨statements, hitems, fun s hs => ?_⟩
  obtain ⟨i, hi⟩ := List.mem_iff_getElem?.mp hs
  obtain ⟨t, t', hok⟩ := getElem?_of_walkEach hwalk i s hi
  exact wellFormed_of_walkNode hok

/-! ### The decision -/

/-- A walk that is rejected for another reason than its room has met its first offence. -/
theorem firstOffence_of_validateNode {e : Rejection} (hdepth : g.objects.size < depth)
    (h : (g.validateNode tracing depth location v start).1 = .error e) :
    ∃ path w, g.FirstOffence [] v path w ∧ g.Answers w e := by
  unfold validateNode outcome at h
  cases hwalk : g.walkNode tracing depth [] location v start with
  | ok u s' =>
    rw [hwalk] at h
    cases h
  | error e' s' =>
    rw [hwalk] at h
    cases h
    refine firstOffence_of_walkNode hwalk ?_
    rintro rfl
    exact walkNode_ne_tooDeep List.nodup_nil (by simp) (by simpa using hdepth) s' hwalk

/-- **Validation decides well-formedness and the absence of cycles.** Any room beyond the number
of objects gives the same answer, whatever the graph; the node is accepted if and only if all
that is reached from it has the shape of a node and nothing reached is reached again strictly
below itself; and otherwise the rejection is about the first offence, from left to right and
parents before children. It is a fault of type if that is an arithmetic node or a comparison
that has all its fields and an operator that cannot be looked up, and otherwise a violation
with its location. -/
theorem validateNode_decides (g : Graph) (tracing : Bool) (location : Location) (v : Value)
    (start : Survey) :
    ∃ decision : Except Rejection Unit × Survey,
      (∀ depth, g.objects.size < depth →
        g.validateNode tracing depth location v start = decision)
      ∧ (decision.1 = .ok ()
        ↔ ∀ w, g.Reaches v w → (∃ s, g.shape w = .ok s) ∧ ¬ g.StrictlyReaches w w)
      ∧ ∀ e, decision.1 = .error e → ∃ path w, g.FirstOffence [] v path w
        ∧ ((e = .fault .wrongType ∧ g.HasUnkeyedOperator w)
          ∨ (∃ violation place, e = .violation violation (some place))
            ∧ ¬ g.HasUnkeyedOperator w) := by
  refine ⟨g.validateNode tracing (g.objects.size + 1) location v start, ?_, ?_, ?_⟩
  · intro depth hdepth
    unfold validateNode outcome
    rw [walkNode_eq_of_lt hdepth]
  · rw [validateNode_eq_ok_iff (Nat.lt_succ_self _), wellFormed_iff]
  · intro e he
    exact firstOffence_of_validateNode (Nat.lt_succ_self _) he

/-! ### An operator beside a missing field -/

/-- An arithmetic node whose operator is a list and whose operands are missing. -/
def bareOperation : Graph where
  objects := #[.list [], .record ⟨[("op", .ref 0), ("left", .absent), ("right", .absent)]⟩,
    .record ⟨[("type", .text "OPERATION"), ("value", .ref 1)]⟩]

/-- An operator that cannot be looked up does not make the rejection a fault by itself: that the
fields are there is asked first. -/
theorem not_forall_unkeyed_operator_fault :
    ¬ ∀ (g : Graph) (v w payload op : Value) (path : List Nat),
      g.FirstOffence [] v path w → g.node? w = some (Kind.arithmetic.name, payload) →
      g.field payload "op" = .ok op → g.isKey op = false →
      ∀ depth, g.objects.size < depth →
        (g.validateNode false depth ⟨"node", []⟩ v {}).1 = .error (.fault .wrongType) := by
  intro h
  have hshape : bareOperation.shape (.ref 2) = .error (.violation (.missingField "left")) := by
    decide
  have hoffence : bareOperation.FirstOffence [] (.ref 2) [] (.ref 2) :=
    firstOffence_nil (.inl (by simp [hshape]))
  have hfault := h bareOperation (.ref 2) (.ref 2) (.ref 1) (.ref 0) [] hoffence (by decide)
    (by decide) (by decide) 4 (by decide)
  exact absurd hfault (by decide)

end Treewalk.Graph
