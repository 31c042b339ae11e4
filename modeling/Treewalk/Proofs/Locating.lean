import Treewalk.Proofs.Preorder

/-!
## Where a rejection points

A violation is reported with its location. The location is written as a path, and whoever reads
the path finds the occurrence that has been rejected.

* `path_statement_injective`: a path below a statement is the text of one location only.
* `exists_faulty_of_stops`: the steps to the place where a walk stops lead to a value that does not
  have the shape of a node, or to a node that has been passed on the way.
* `validateProgram_locates`: both together for a program, and that nothing before the place is
  wrong in any statement.
-/

namespace Treewalk

/-! ### Paths as texts -/

/-- What stands before the first separator of a text. -/
theorem takeWhile_append_cons {sep : Char} {xs : List Char} (hxs : sep ∉ xs) (ys : List Char) :
    (xs ++ sep :: ys).takeWhile (· != sep) = xs := by
  have hpos : ∀ c ∈ xs, (c != sep) = true := by
    intro c hc
    rw [bne_iff_ne]
    rintro rfl
    exact hxs hc
  rw [List.takeWhile_append_of_pos hpos, List.takeWhile_cons_of_neg (by simp), List.append_nil]

/-- A text is cut at its first separator in one way only. -/
theorem append_cons_inj {sep : Char} {xs xs' ys ys' : List Char} (hxs : sep ∉ xs) (hxs' : sep ∉ xs')
    (h : xs ++ sep :: ys = xs' ++ sep :: ys') : xs = xs' ∧ ys = ys' := by
  have hfirst : xs = xs' := by
    rw [← takeWhile_append_cons hxs ys, h, takeWhile_append_cons hxs' ys']
  subst hfirst
  exact ⟨rfl, (List.cons.inj (List.append_cancel_left h)).2⟩

theorem bracket_notMem_name (kind : Kind) : '[' ∉ kind.name.toList := by
  cases kind <;> decide

theorem bracket_notMem_toString (n : Nat) : ']' ∉ (toString n).toList := by
  intro hmem
  rw [Nat.toString_eq_repr, Nat.toList_repr] at hmem
  have hdigit : Char.isDigit ']' = true :=
    Nat.isDigit_of_mem_toDigits (by decide) (by decide) hmem
  exact absurd hdigit (by decide)

/-- Numbers that are written alike are equal. -/
theorem eq_of_toString_eq {m n : Nat} (h : (toString m).toList = (toString n).toList) : m = n := by
  rw [Nat.toString_eq_repr, Nat.toString_eq_repr, Nat.toList_repr, Nat.toList_repr] at h
  rw [← Nat.ofDigitChars_ten_toDigits (n := m), h, Nat.ofDigitChars_ten_toDigits]

namespace Location

theorem toList_join_stepText_cons (kind : Kind) (i : Nat) (steps : List (Kind × Nat)) :
    (String.join (((kind, i) :: steps).map stepText)).toList
      = '/' :: (kind.name.toList ++ '[' :: ((toString i).toList
        ++ ']' :: (String.join (steps.map stepText)).toList)) := by
  simp [stepText]

theorem toList_path_statement (i : Nat) (steps : List (Kind × Nat)) :
    ((statement i).extend steps).path.toList
      = "statement[".toList ++ ((toString i).toList
        ++ ']' :: (String.join (steps.map stepText)).toList) := by
  simp [statement, extend, path]

/-- Steps that are written alike are the same steps: kinds are written without brackets, and
numbers in digits. -/
theorem eq_of_join_stepText_eq {steps steps' : List (Kind × Nat)}
    (h : (String.join (steps.map stepText)).toList = (String.join (steps'.map stepText)).toList) :
    steps = steps' := by
  induction steps generalizing steps' with
  | nil =>
    cases steps' with
    | nil => rfl
    | cons step' steps' =>
      rw [toList_join_stepText_cons] at h
      cases h
  | cons step steps ih =>
    obtain ⟨kind, i⟩ := step
    cases steps' with
    | nil =>
      rw [toList_join_stepText_cons] at h
      cases h
    | cons step' steps' =>
      obtain ⟨kind', i'⟩ := step'
      rw [toList_join_stepText_cons, toList_join_stepText_cons] at h
      obtain ⟨hname, hrest⟩ := append_cons_inj (bracket_notMem_name kind)
        (bracket_notMem_name kind') (List.cons.inj h).2
      obtain ⟨hindex, hsteps⟩ := append_cons_inj (bracket_notMem_toString i)
        (bracket_notMem_toString i') hrest
      rw [Kind.name_injective (String.toList_inj.mp hname), eq_of_toString_eq hindex, ih hsteps]

/-- **A path below a statement is the text of one location only.** -/
theorem path_statement_injective {i i' : Nat} {steps steps' : List (Kind × Nat)}
    (h : ((statement i).extend steps).path = ((statement i').extend steps').path) :
    i = i' ∧ steps = steps' := by
  have htext := congrArg String.toList h
  rw [toList_path_statement, toList_path_statement] at htext
  obtain ⟨hindex, hsteps⟩ := append_cons_inj (bracket_notMem_toString i)
    (bracket_notMem_toString i') (List.append_cancel_left htext)
  exact ⟨eq_of_toString_eq hindex, eq_of_join_stepText_eq hsteps⟩

end Location

namespace Graph

variable {g : Graph} {tracing : Bool} {depth start : Nat} {ancestors vs : List Value}
  {location : Location} {v w : Value} {steps : List (Kind × Nat)} {violation : Violation}
  {place : Option Location}

/-! ### Steps -/

theorem follow?_append (g : Graph) (p q : List (Kind × Nat)) :
    ∀ v, g.follow? v (p ++ q) = (g.follow? v p).bind fun w => g.follow? w q := by
  induction p with
  | nil => intro v; rfl
  | cons step p ih =>
    intro v
    obtain ⟨kind, i⟩ := step
    rw [List.cons_append, follow?, follow?]
    cases g.node? v with
    | none => rfl
    | some node =>
      cases g.children v with
      | error f => rfl
      | ok children =>
        by_cases htag : node.1 = kind.name
        · simp only [htag, if_true]
          rw [Option.bind_assoc]
          exact Option.bind_congr fun c _ => ih c
        · simp only [htag, if_false]
          rfl

/-- What is passed on the way down is what the steps lead to that have been made. -/
theorem follow?_of_descend?_above {above : List Nat} {u : Value}
    (h : g.follow? v steps = some w) (habove : above <+: steps.map Prod.snd)
    (hne : above ≠ steps.map Prod.snd) (hu : g.descend? v above = some u) :
    ∃ passed, passed <+: steps ∧ passed ≠ steps ∧ g.follow? v passed = some u := by
  obtain ⟨passed, hpassed, rfl⟩ := List.prefix_map_iff.mp habove
  obtain ⟨rest, rfl⟩ := hpassed
  rw [follow?_append] at h
  obtain ⟨u', hu', -⟩ := Option.bind_eq_some_iff.mp h
  -- the same indices lead to the same value
  obtain rfl : u' = u := Option.some.inj ((descend?_of_follow? hu').symm.trans hu)
  refine ⟨passed, List.prefix_append passed rest, ?_, hu'⟩
  intro heq
  exact hne (by rw [← heq])

/-! ### The place of a violation -/

/-- The value at the end of the steps is **at fault** for the violation: it does not have the shape
of a node, or it is a node that has been passed on the way. -/
def AtFault (g : Graph) (v : Value) (steps : List (Kind × Nat)) (w : Value)
    (violation : Violation) : Prop :=
  g.shape w = .error (.violation violation)
    ∨ (∃ kind payload, g.shape w = .ok (kind, payload) ∧ violation = .cycle kind)
      ∧ ∃ passed, passed <+: steps ∧ passed ≠ steps ∧ g.follow? v passed = some w

/-- **Where a walk stops for a violation**, the value is at fault for it. -/
theorem exists_faulty_of_stops
    (h : g.Stops depth [] location v steps (.violation violation place)) :
    ∃ w, g.follow? v steps = some w ∧ place = some (location.extend steps)
      ∧ g.AtFault v steps w violation := by
  obtain ⟨w, hw, hwhy⟩ := h
  rcases hwhy with ⟨hdeep, -⟩ | ⟨⟨-, hoffends⟩, above, haccept⟩
  · cases hdeep
  refine ⟨w, hw, ?_⟩
  rcases accept_eq_error haccept with ⟨m, hshape, he⟩ | ⟨kind, payload, hshape, -, he⟩
  · cases m with
    | violation violation' =>
      cases he
      exact ⟨rfl, .inl hshape⟩
    | fault f => cases he
  · cases he
    refine ⟨rfl, .inr ⟨⟨kind, payload, hshape, rfl⟩, ?_⟩⟩
    rcases hoffends with hnone | hmem | ⟨above, hprefix, hne, habove⟩
    · exact absurd ⟨(kind, payload), hshape⟩ hnone
    · exact absurd hmem List.not_mem_nil
    · exact follow?_of_descend?_above hw hprefix hne habove

/-- **An occurrence in order** has the shape of a node and repeats none of its own ancestors. -/
def InOrder (g : Graph) (v : Value) (path : List Nat) : Prop :=
  ∀ w, g.descend? v path = some w → (∃ shape, g.shape w = .ok shape)
    ∧ ∀ above, above <+: path → above ≠ path → g.descend? v above ≠ some w

theorem inOrder_of_not_offends {path : List Nat} (h : ∀ w, ¬ g.Offends [] v path w) :
    g.InOrder v path := by
  intro w hw
  constructor
  · by_contra hshape
    exact h w ⟨hw, .inl hshape⟩
  · intro above hprefix hne habove
    exact h w ⟨hw, .inr (.inr ⟨above, hprefix, hne, habove⟩)⟩

/-- **What a rejected statement is rejected for**: the rejection is located at the value that is at
fault for it, and all occurrences before are in order. -/
theorem exists_faulty_of_walkNode {s s' : Survey}
    (h : g.walkNode tracing depth [] location v s = .error (.violation violation place) s') :
    ∃ steps w, g.follow? v steps = some w ∧ place = some (location.extend steps)
      ∧ g.AtFault v steps w violation
      ∧ ∀ path, path < steps.map Prod.snd → g.InOrder v path := by
  obtain ⟨visits, stop, hjourney⟩ := g.exists_journey tracing depth [] location v
  rw [hjourney.walk] at h
  cases stop with
  | none => cases h
  | some stop =>
    obtain ⟨steps, e⟩ := stop
    cases h
    obtain ⟨w, hw, hplace, hfault⟩ := exists_faulty_of_stops (hjourney.stops steps _ rfl)
    refine ⟨steps, w, hw, hplace, hfault, fun path hlt => ?_⟩
    exact inOrder_of_not_offends fun w' => hjourney.lists.clean path w' (before_some.mpr hlt)

/-! ### Programs -/

/-- **The path of a violation locates the first fault.** A program that is a sequence of values is
rejected for a violation with a location. Its path names a statement and the steps from there,
which lead to a value that does not have the shape of a node or that has been passed on the way.
Every occurrence that comes before, in the same statement or in an earlier one, has the shape of a
node and repeats none of its own ancestors. No other statement or steps have the same path. -/
theorem validateProgram_locates (g : Graph) (tracing : Bool) (depth : Nat) (program : Value)
    (violation : Violation) (place : Option Location) (hsequence : g.record? program = none)
    (hrejected : (g.validateProgram tracing depth program).1
      = .error (.violation violation place)) :
    ∃ statements i s steps w location, g.items program = .ok statements
      ∧ statements[i]? = some s
      ∧ place = some location
      ∧ location.path = "statement[" ++ toString i ++ "]" ++ String.join (steps.map fun step =>
          "/" ++ step.1.name ++ "[" ++ toString step.2 ++ "]")
      ∧ g.follow? s steps = some w
      ∧ (g.shape w = .error (.violation violation)
        ∨ (∃ kind payload, g.shape w = .ok (kind, payload) ∧ violation = .cycle kind)
          ∧ ∃ passed, passed <+: steps ∧ passed ≠ steps ∧ g.follow? s passed = some w)
      ∧ (∀ j t path u, statements[j]? = some t → j :: path < i :: steps.map Prod.snd →
        g.descend? t path = some u → (∃ shape, g.shape u = .ok shape)
          ∧ ∀ above, above <+: path → above ≠ path → g.descend? t above ≠ some u)
      ∧ ∀ j steps', ((Location.statement j).extend steps').path = location.path →
        j = i ∧ steps' = steps := by
  unfold validateProgram outcome walkProgram at hrejected
  simp only [hsequence, Option.isSome_none, Bool.false_eq_true, if_false] at hrejected
  cases hitems : g.items program with
  | error f =>
    rw [hitems] at hrejected
    cases hrejected
  | ok statements =>
    simp only [hitems] at hrejected
    cases hwalk : walkEach (fun index => g.walkNode tracing depth [] (.statement index)) 0
        statements {} with
    | ok u s' =>
      rw [hwalk] at hrejected
      cases hrejected
    | error e s' =>
      rw [hwalk] at hrejected
      cases hrejected
      obtain ⟨i, s, hs, ⟨t, t', herror⟩, hearlier⟩ := exists_of_walkEach_error hwalk
      rw [Nat.zero_add] at herror
      obtain ⟨steps, w, hw, hplace, hfault, hbefore⟩ := exists_faulty_of_walkNode herror
      refine ⟨statements, i, s, steps, w, (Location.statement i).extend steps, rfl, hs, hplace, rfl,
        hw, hfault, ?_, fun j steps' hpath => Location.path_statement_injective hpath⟩
      intro j d path u hd hlt hu
      rcases List.cons_lt_cons_iff.mp hlt with hji | ⟨rfl, hpath⟩
      · -- an earlier statement has been walked through to its end
        obtain ⟨t, t', hok⟩ := hearlier j hji d hd
        exact inOrder_of_not_offends (fun w' => not_offends_of_walkNode hok path w') u hu
      · obtain rfl : s = d := Option.some.inj (hs.symm.trans hd)
        exact hbefore path hpath u hu

/-- A literal and a loop, whose body has an integer where a statement should be. -/
def numberInBody : Graph where
  objects := #[
    .record ⟨[("type", .text "NUMBER"), ("value", .int 1)]⟩,
    .record ⟨[("type", .text "PRINT"), ("value", .ref 0)]⟩, .list [.ref 1, .int 3],
    .record ⟨[("condition", .ref 0), ("body", .ref 2)]⟩,
    .record ⟨[("type", .text "WHILE"), ("value", .ref 3)]⟩, .list [.ref 0, .ref 4]]

/-- The path leads to the integer, which is the child behind the condition and the print. -/
theorem numberInBody_locates :
    (numberInBody.record? (.ref 5) = none
      ∧ (numberInBody.validateProgram false 9 (.ref 5)).1
        = .error (.violation (.notNode (.int 3)) (some ⟨"statement[1]", [(.loop, 2)]⟩)))
    ∧ ∃ statements s, numberInBody.items (.ref 5) = .ok statements ∧ statements[1]? = some s
      ∧ numberInBody.follow? s [(.loop, 2)] = some (.int 3)
      ∧ numberInBody.shape (.int 3) = .error (.violation (.notNode (.int 3))) := by
  have hsequence : numberInBody.record? (.ref 5) = none := rfl
  have hrejected : (numberInBody.validateProgram false 9 (.ref 5)).1
      = .error (.violation (.notNode (.int 3)) (some ⟨"statement[1]", [(.loop, 2)]⟩)) := by decide
  refine ⟨⟨hsequence, hrejected⟩, ?_⟩
  obtain ⟨statements, i, s, steps, w, location, hitems, hs, hplace, -, hw, hfault, -, hunique⟩ :=
    validateProgram_locates numberInBody false 9 (.ref 5) _ _ hsequence hrejected
  obtain rfl := Option.some.inj hplace
  -- the path that has been reported is that of the second statement and one step
  obtain ⟨rfl, rfl⟩ := hunique 1 [(.loop, 2)] (by decide)
  cases hitems
  cases hs
  cases hw
  refine ⟨_, _, rfl, rfl, rfl, ?_⟩
  rcases hfault with hshape | ⟨⟨kind, payload, -, hcycle⟩, -⟩
  · exact hshape
  · cases hcycle

end Graph

end Treewalk
