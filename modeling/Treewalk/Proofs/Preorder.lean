import Treewalk.Proofs.Tallies

/-!
## The order of a walk

A walk visits the nodes below its root from left to right, a node before its children, and a
node that is shared once for each of its occurrences. `Graph.Lists` says of a list of visits that
it has exactly the occurrences that come before a place where the walk stops, or all of them, in
this order. `Graph.follow?` follows the steps of a location, which name the kind of each node that
is left beside the index of the child.

* `lists_of_row`: what is listed below a node is the node and then what is listed below its
  children.
* `exists_journey`: whatever has been found before, a walk makes the visits on such a list, and it
  then comes to its end or is refused.
-/

namespace Treewalk

/-! ### Visits -/

/-- The location that is reached by more steps. -/
def Location.extend (l : Location) (steps : List (Kind × Nat)) : Location :=
  { l with steps := l.steps ++ steps }

theorem Location.extend_nil (l : Location) : l.extend [] = l := by
  simp [extend]

theorem Location.extend_cons (l : Location) (kind : Kind) (i : Nat) (steps : List (Kind × Nat)) :
    l.extend ((kind, i) :: steps) = (l.child kind i).extend steps := by
  simp [extend, child]

/-- A **visit**: the steps that lead to a node, and the form that the node has. -/
structure Visit where
  /-- The steps down. -/
  steps : List (Kind × Nat)
  /-- What the node is. -/
  form : Form

namespace Visit

/-- The indices of the children that the steps take. -/
def path (visit : Visit) : List Nat :=
  visit.steps.map Prod.snd

/-- The visit, seen from one step further up. -/
def under (kind : Kind) (i : Nat) (visit : Visit) : Visit :=
  { visit with steps := (kind, i) :: visit.steps }

/-- The record of the visit in a walk that starts at the location. -/
def entry (location : Location) (visit : Visit) : Location × Kind :=
  (location.extend visit.steps, visit.form.kind)

@[simp]
theorem path_under (kind : Kind) (i : Nat) (visit : Visit) :
    (visit.under kind i).path = i :: visit.path := rfl

theorem entry_under (location : Location) (kind : Kind) (i : Nat) (visit : Visit) :
    (visit.under kind i).entry location = visit.entry (location.child kind i) := by
  rw [entry, under, Location.extend_cons]
  rfl

end Visit

/-- The survey with visits made in a walk that starts at the location. -/
def Survey.visited (s : Survey) (tracing : Bool) (location : Location) (visits : List Visit) :
    Survey where
  summary := (visits.map (·.form.label)).foldl Summary.enter s.summary
  visits := if tracing then s.visits ++ (visits.map (Visit.entry location)).toArray else s.visits

namespace Survey

variable {s : Survey} {tracing : Bool} {location : Location} {visits later : List Visit}

theorem visited_nil : s.visited tracing location [] = s := by
  cases tracing <;> simp [visited]

theorem visited_append : s.visited tracing location (visits ++ later)
    = (s.visited tracing location visits).visited tracing location later := by
  cases tracing <;> simp [visited]

theorem visited_under (kind : Kind) (i : Nat) :
    s.visited tracing location (visits.map (Visit.under kind i))
      = s.visited tracing (location.child kind i) visits := by
  have hentry : Visit.entry location ∘ Visit.under kind i = Visit.entry (location.child kind i) :=
    funext fun visit => Visit.entry_under location kind i visit
  have hlabel : (fun visit : Visit => visit.form.label) ∘ Visit.under kind i
      = fun visit => visit.form.label := rfl
  rw [visited, visited, List.map_map, List.map_map, hentry, hlabel]

end Survey

namespace Graph

variable {g : Graph} {tracing : Bool} {depth start i : Nat} {ancestors vs : List Value}
  {location : Location} {v w c : Value} {form : Form} {kind : Kind} {path : List Nat}
  {steps : List (Kind × Nat)} {visits later : List Visit} {stop : Option (List Nat)}

/-! ### Steps -/

/-- The value that steps lead to, if each node that is left has the kind of its step. -/
def follow? (g : Graph) : Value → List (Kind × Nat) → Option Value
  | v, [] => some v
  | v, (kind, i) :: steps =>
    match g.node? v, g.children v with
    | some (tag, _), .ok children =>
      if tag = kind.name then children[i]?.bind fun c => g.follow? c steps else none
    | _, _ => none

theorem follow?_cons (hform : g.HasForm v form) (i : Nat) (steps : List (Kind × Nat)) :
    g.follow? v ((form.kind, i) :: steps)
      = form.children[i]?.bind fun c => g.follow? c steps := by
  have hchildren := children_of_hasForm hform
  obtain ⟨payload, hnode, -⟩ := hform
  simp only [follow?, hnode, hchildren, if_true]

/-- What steps lead to is what their indices lead to. -/
theorem descend?_of_follow? (h : g.follow? v steps = some w) :
    g.descend? v (steps.map Prod.snd) = some w := by
  induction steps generalizing v with
  | nil => exact h
  | cons step steps ih =>
    obtain ⟨kind, i⟩ := step
    rw [follow?] at h
    split at h
    · rename_i tag payload children hnode hchildren
      split at h
      · obtain ⟨c, hc, hrest⟩ := Option.bind_eq_some_iff.mp h
        rw [List.map_cons, descend?, hchildren]
        exact Option.bind_eq_some_iff.mpr ⟨c, hc, ih hrest⟩
      · cases h
    · cases h

/-! ### Lists of visits -/

/-- The path comes before the place where a walk stops, if it stops. -/
def Before (stop : Option (List Nat)) (path : List Nat) : Prop :=
  ∀ last, stop = some last → path < last

theorem before_none : Before none path := by
  intro last h
  cases h

theorem before_some {last : List Nat} : Before (some last) path ↔ path < last := by
  constructor
  · intro h
    exact h last rfl
  · rintro h _ ⟨⟩
    exact h

/-- **The visits before a place where a walk stops**: they are in order, each one is at a node of
its form, none is left out, and nothing before the place offends. -/
structure Lists (g : Graph) (ancestors : List Value) (v : Value) (stop : Option (List Nat))
    (visits : List Visit) : Prop where
  sorted : visits.Pairwise fun a b => a.path < b.path
  sound : ∀ visit ∈ visits, Before stop visit.path
    ∧ ∃ w, g.follow? v visit.steps = some w ∧ g.HasForm w visit.form
  complete : ∀ path w, Before stop path → g.descend? v path = some w →
    ∃ visit ∈ visits, visit.path = path
  clean : ∀ path w, Before stop path → ¬ g.Offends ancestors v path w

/-- The visits below the members of a row, the first of which is the child with the given index
of a node of the given kind. -/
structure ListsRow (g : Graph) (ancestors : List Value) (kind : Kind) (start : Nat)
    (vs : List Value) (stop : Option (List Nat)) (visits : List Visit) : Prop where
  sorted : visits.Pairwise fun a b => a.path < b.path
  sound : ∀ visit ∈ visits, Before stop visit.path ∧ ∃ i c steps w, vs[i]? = some c
    ∧ visit.steps = (kind, start + i) :: steps ∧ g.follow? c steps = some w
    ∧ g.HasForm w visit.form
  complete : ∀ i c path w, vs[i]? = some c → Before stop ((start + i) :: path) →
    g.descend? c path = some w → ∃ visit ∈ visits, visit.path = (start + i) :: path
  clean : ∀ i c path w, vs[i]? = some c → Before stop ((start + i) :: path) →
    ¬ g.Offends ancestors c path w

/-- Nothing comes before the place where a walk starts. -/
theorem lists_stop_nil (g : Graph) (ancestors : List Value) (v : Value) :
    g.Lists ancestors v (some []) [] where
  sorted := .nil
  sound := by simp
  complete path _ hbefore := absurd (before_some.mp hbefore) (List.not_lt_nil path)
  clean path _ hbefore := absurd (before_some.mp hbefore) (List.not_lt_nil path)

theorem listsRow_nil (g : Graph) (ancestors : List Value) (kind : Kind) (start : Nat) :
    g.ListsRow ancestors kind start [] none [] where
  sorted := .nil
  sound := by simp
  complete := by simp
  clean := by simp

theorem pairwise_under (kind : Kind) (i : Nat)
    (h : visits.Pairwise fun a b => a.path < b.path) :
    (visits.map (Visit.under kind i)).Pairwise fun a b => a.path < b.path :=
  List.pairwise_map.mpr (h.imp fun hlt => List.cons_lt_cons_iff.mpr (.inr ⟨rfl, hlt⟩))

/-- A row in which the walk stops below its first member. -/
theorem listsRow_of_stopped {last : List Nat} (h : g.Lists ancestors c (some last) visits)
    (kind : Kind) (start : Nat) (vs : List Value) :
    g.ListsRow ancestors kind start (c :: vs) (some (start :: last))
      (visits.map (Visit.under kind start)) where
  sorted := pairwise_under kind start h.sorted
  sound := by
    rintro _ hvisit
    obtain ⟨visit, hmem, rfl⟩ := List.mem_map.mp hvisit
    obtain ⟨hbefore, w, hw, hform⟩ := h.sound visit hmem
    refine ⟨before_some.mpr ?_, 0, c, visit.steps, w, rfl, rfl, hw, hform⟩
    exact List.cons_lt_cons_iff.mpr (.inr ⟨rfl, before_some.mp hbefore⟩)
  complete := by
    intro i d path w hd hbefore hw
    -- only what is below the first member can come before the place
    rcases List.cons_lt_cons_iff.mp (before_some.mp hbefore) with hlt | ⟨heq, hlt⟩
    · omega
    · obtain rfl : i = 0 := by omega
      obtain rfl : c = d := by simpa using hd
      obtain ⟨visit, hmem, hpath⟩ := h.complete path w (before_some.mpr hlt) hw
      exact ⟨visit.under kind start, List.mem_map_of_mem hmem, by rw [Visit.path_under, hpath]; rfl⟩
  clean := by
    intro i d path w hd hbefore
    rcases List.cons_lt_cons_iff.mp (before_some.mp hbefore) with hlt | ⟨heq, hlt⟩
    · omega
    · obtain rfl : i = 0 := by omega
      obtain rfl : c = d := by simpa using hd
      exact h.clean path w (before_some.mpr hlt)

/-- A row in which the walk goes on behind its first member. -/
theorem listsRow_of_passed (h : g.Lists ancestors c none visits)
    (hstop : ∀ path, Before stop (start :: path))
    (hrow : g.ListsRow ancestors kind (start + 1) vs stop later) :
    g.ListsRow ancestors kind start (c :: vs) stop
      (visits.map (Visit.under kind start) ++ later) := by
  -- the later members have their places in the row one further back
  have hshift : ∀ i, start + (i + 1) = start + 1 + i := by
    intro i
    omega
  refine ⟨?_, ?_, ?_, ?_⟩
  · refine List.pairwise_append.mpr ⟨pairwise_under kind start h.sorted, hrow.sorted, ?_⟩
    rintro _ hvisit other hother
    obtain ⟨visit, -, rfl⟩ := List.mem_map.mp hvisit
    obtain ⟨-, i, d, steps, w, -, hsteps, -⟩ := hrow.sound other hother
    have hpath : other.path = (start + 1 + i) :: steps.map Prod.snd := by
      rw [Visit.path, hsteps]
      rfl
    rw [Visit.path_under, hpath]
    exact List.cons_lt_cons_iff.mpr (.inl (by omega))
  · intro visit hvisit
    rcases List.mem_append.mp hvisit with hfirst | hlater
    · obtain ⟨visit, hmem, rfl⟩ := List.mem_map.mp hfirst
      obtain ⟨-, w, hw, hform⟩ := h.sound visit hmem
      exact ⟨hstop visit.path, 0, c, visit.steps, w, rfl, rfl, hw, hform⟩
    · obtain ⟨hbefore, i, d, steps, w, hd, hsteps, hw, hform⟩ := hrow.sound visit hlater
      exact ⟨hbefore, i + 1, d, steps, w, hd, by rw [hsteps, hshift i], hw, hform⟩
  · intro i d path w hd hbefore hw
    cases i with
    | zero =>
      obtain rfl : c = d := by simpa using hd
      obtain ⟨visit, hmem, hpath⟩ := h.complete path w before_none hw
      refine ⟨visit.under kind start, List.mem_append_left _ (List.mem_map_of_mem hmem), ?_⟩
      rw [Visit.path_under, hpath]
      rfl
    | succ i =>
      rw [hshift] at hbefore ⊢
      obtain ⟨visit, hmem, hpath⟩ := hrow.complete i d path w hd hbefore hw
      exact ⟨visit, List.mem_append_right _ hmem, hpath⟩
  · intro i d path w hd hbefore
    cases i with
    | zero =>
      obtain rfl : c = d := by simpa using hd
      exact h.clean path w before_none
    | succ i =>
      rw [hshift] at hbefore
      exact hrow.clean i d path w hd hbefore

/-- **What is listed below a node** is the node and then what is listed below its children. -/
theorem lists_of_row (hform : g.HasForm v form) (hfresh : v ∉ ancestors)
    (hstop : Before stop [])
    (hrow : g.ListsRow (v :: ancestors) form.kind 0 form.children stop visits) :
    g.Lists ancestors v stop (⟨[], form⟩ :: visits) where
  sorted := by
    refine List.pairwise_cons.mpr ⟨fun visit hmem => ?_, hrow.sorted⟩
    obtain ⟨-, i, c, steps, w, -, hsteps, -⟩ := hrow.sound visit hmem
    have hpath : visit.path = (0 + i) :: steps.map Prod.snd := by
      rw [Visit.path, hsteps]
      rfl
    rw [hpath]
    exact List.nil_lt_cons _ _
  sound := by
    intro visit hvisit
    rcases List.mem_cons.mp hvisit with rfl | hmem
    · exact ⟨hstop, v, rfl, hform⟩
    · obtain ⟨hbefore, i, c, steps, w, hc, hsteps, hw, hwform⟩ := hrow.sound visit hmem
      refine ⟨hbefore, w, ?_, hwform⟩
      rw [hsteps, Nat.zero_add, follow?_cons hform, hc, Option.bind_some, hw]
  complete := by
    intro path w hbefore hw
    cases path with
    | nil => exact ⟨⟨[], form⟩, List.mem_cons_self, rfl⟩
    | cons i path =>
      rw [descend?_cons hform] at hw
      obtain ⟨c, hc, hw⟩ := Option.bind_eq_some_iff.mp hw
      rw [← Nat.zero_add i] at hbefore ⊢
      obtain ⟨visit, hmem, hpath⟩ := hrow.complete i c path w hc hbefore hw
      exact ⟨visit, List.mem_cons_of_mem _ hmem, hpath⟩
  clean := by
    intro path w hbefore hoffends
    cases path with
    | nil =>
      obtain ⟨-, hshape | hmem⟩ := offends_nil.mp hoffends
      · exact hshape (shape_iff_hasForm.mpr ⟨form, hform⟩)
      · exact hfresh hmem
    | cons i path =>
      obtain ⟨c, hc, hbelow⟩ := (offends_cons hform).mp hoffends
      rw [← Nat.zero_add i] at hbefore
      exact hrow.clean i c path w hc hbefore hbelow

/-! ### Walks -/

/-- The end of a walk: it has come through, or it has been refused. -/
def close (refusal : Option Rejection) (s : Survey) : EStateM.Result Rejection Survey Unit :=
  match refusal with
  | none => .ok () s
  | some e => .error e s

/-- **Why a walk stops** at the end of the steps: it has gone down as far as it may, or what is
there offends and is not accepted. -/
def Stops (g : Graph) (depth : Nat) (ancestors : List Value) (location : Location) (v : Value)
    (steps : List (Kind × Nat)) (e : Rejection) : Prop :=
  ∃ w, g.follow? v steps = some w
    ∧ (e = .tooDeep ∧ steps.length = depth
      ∨ g.Offends ancestors v (steps.map Prod.snd) w
        ∧ ∃ above, g.accept above (location.extend steps) w = .error e)

theorem Stops.cons {e : Rejection} (hform : g.HasForm v form) (hc : form.children[i]? = some c)
    (h : g.Stops depth (v :: ancestors) (location.child form.kind i) c steps e) :
    g.Stops (depth + 1) ancestors location v ((form.kind, i) :: steps) e := by
  obtain ⟨w, hw, hwhy⟩ := h
  refine ⟨w, by rw [follow?_cons hform, hc, Option.bind_some, hw], ?_⟩
  rcases hwhy with ⟨he, hlength⟩ | ⟨hoffends, above, haccept⟩
  · exact .inl ⟨he, by rw [List.length_cons, hlength]⟩
  · refine .inr ⟨(offends_cons hform).mpr ⟨c, hc, hoffends⟩, above, ?_⟩
    rw [Location.extend_cons, haccept]

/-- **What a walk does**, whatever has been found before: it makes the visits that are listed
before the place where it stops, and then it stops there, if it does. -/
structure Journey (g : Graph) (tracing : Bool) (depth : Nat) (ancestors : List Value)
    (location : Location) (v : Value) (visits : List Visit)
    (stop : Option (List (Kind × Nat) × Rejection)) : Prop where
  walk : ∀ s, g.walkNode tracing depth ancestors location v s
    = close (stop.map Prod.snd) (s.visited tracing location visits)
  lists : g.Lists ancestors v (stop.map fun place => place.1.map Prod.snd) visits
  stops : ∀ steps e, stop = some (steps, e) → g.Stops depth ancestors location v steps e

/-- What the walks through a row do, one after the other. -/
structure JourneyRow (g : Graph) (tracing : Bool) (depth : Nat) (ancestors : List Value)
    (location : Location) (kind : Kind) (start : Nat) (vs : List Value) (visits : List Visit)
    (stop : Option (List (Kind × Nat) × Rejection)) : Prop where
  walk : ∀ s, walkEach
      (fun index => g.walkNode tracing depth ancestors (location.child kind index)) start vs s
    = close (stop.map Prod.snd) (s.visited tracing location visits)
  lists : g.ListsRow ancestors kind start vs (stop.map fun place => place.1.map Prod.snd) visits
  stops : ∀ steps e, stop = some (steps, e) → ∃ i c rest, vs[i]? = some c
    ∧ steps = (kind, start + i) :: rest
    ∧ g.Stops depth ancestors (location.child kind (start + i)) c rest e

variable {place : Option (List (Kind × Nat) × Rejection)}

/-- The walk through a row stops behind all that begins with an earlier index. -/
theorem JourneyRow.before
    (h : g.JourneyRow tracing depth ancestors location kind start vs visits place) {j : Nat}
    (hj : j < start) (path : List Nat) :
    Before (place.map fun place => place.1.map Prod.snd) (j :: path) := by
  intro last hlast
  obtain ⟨⟨steps, e⟩, hplace, rfl⟩ := Option.map_eq_some_iff.mp hlast
  obtain ⟨i, c, rest, -, rfl, -⟩ := h.stops steps e hplace
  exact List.cons_lt_cons_iff.mpr (.inl (by simp only; omega))

theorem JourneyRow.before_nil
    (h : g.JourneyRow tracing depth ancestors location kind start vs visits place) :
    Before (place.map fun place => place.1.map Prod.snd) [] := by
  intro last hlast
  obtain ⟨⟨steps, e⟩, hplace, rfl⟩ := Option.map_eq_some_iff.mp hlast
  obtain ⟨i, c, rest, -, rfl, -⟩ := h.stops steps e hplace
  exact List.nil_lt_cons _ _

/-- **A row is walked through member by member**, up to the first one at which the walk stops. -/
theorem exists_journeyRow
    (hself : ∀ index c, ∃ visits stop,
      g.Journey tracing depth ancestors (location.child kind index) c visits stop)
    (start : Nat) (vs : List Value) :
    ∃ visits stop, g.JourneyRow tracing depth ancestors location kind start vs visits stop := by
  induction vs generalizing start with
  | nil =>
    refine ⟨[], none, fun s => ?_, listsRow_nil g ancestors kind start, fun _ _ h => nomatch h⟩
    rw [Survey.visited_nil]
    rfl
  | cons c vs ih =>
    obtain ⟨visits, stop, hfirst⟩ := hself start c
    cases stop with
    | some place =>
      obtain ⟨steps, e⟩ := place
      refine ⟨visits.map (Visit.under kind start), some ((kind, start) :: steps, e), fun s => ?_,
        listsRow_of_stopped hfirst.lists kind start vs, ?_⟩
      · rw [walkEach, Steps.bind_of_error (hfirst.walk s), Survey.visited_under]
        rfl
      · rintro _ _ ⟨⟩
        exact ⟨0, c, steps, rfl, rfl, hfirst.stops steps e rfl⟩
    | none =>
      obtain ⟨later, stop, hrow⟩ := ih (start + 1)
      refine ⟨visits.map (Visit.under kind start) ++ later, stop, fun s => ?_,
        listsRow_of_passed hfirst.lists (hrow.before (Nat.lt_succ_self start)) hrow.lists, ?_⟩
      · rw [walkEach, Steps.bind_of_ok (hfirst.walk s), hrow.walk, Survey.visited_append,
          Survey.visited_under]
      · intro steps e hstop
        obtain ⟨i, d, rest, hd, hsteps, hwhy⟩ := hrow.stops steps e hstop
        refine ⟨i + 1, d, rest, hd, ?_, ?_⟩
        · rw [hsteps, show start + (i + 1) = start + 1 + i by omega]
        · rw [show start + (i + 1) = start + 1 + i by omega]
          exact hwhy

theorem visited_root {payload : Value} {s : Survey} (hcarries : g.Carries payload form) :
    g.recorded tracing location form.kind payload s = s.visited tracing location [⟨[], form⟩] := by
  have hsummary : (g.recorded tracing location form.kind payload s).summary
      = s.summary.enter form.label := summary_recorded hcarries
  cases tracing with
  | false => exact Survey.mk.injEq .. |>.mpr ⟨hsummary, rfl⟩
  | true =>
    refine Survey.mk.injEq .. |>.mpr ⟨hsummary, ?_⟩
    simp [Visit.entry, Location.extend_nil]

/-- **Every walk makes the visits of a list**: those before the first place that is too deep or
that offends. -/
theorem exists_journey (g : Graph) (tracing : Bool) (depth : Nat) (ancestors : List Value)
    (location : Location) (v : Value) :
    ∃ visits stop, g.Journey tracing depth ancestors location v visits stop := by
  induction depth generalizing ancestors location v with
  | zero =>
    refine ⟨[], some ([], .tooDeep), fun s => ?_, lists_stop_nil g ancestors v, ?_⟩
    · rw [Survey.visited_nil]
      rfl
    · rintro _ _ ⟨⟩
      exact ⟨v, rfl, .inl ⟨rfl, rfl⟩⟩
  | succ depth ih =>
    cases haccept : g.accept ancestors location v with
    | error e =>
      refine ⟨[], some ([], e), fun s => ?_, lists_stop_nil g ancestors v, ?_⟩
      · rw [walkNode_of_accept_error haccept, Survey.visited_nil]
        rfl
      · rintro _ _ ⟨⟩
        refine ⟨v, rfl, .inr ⟨(answers_of_accept haccept).1.1, ancestors, ?_⟩⟩
        rw [Location.extend_nil, haccept]
    | ok node =>
      obtain ⟨form, hnode, hcarries, hfresh, hwalk⟩ := walkNode_of_accept haccept tracing
      have hform : g.HasForm v form := ⟨node.2, hnode, hcarries⟩
      -- the root is visited, and the rest of the walk is one through the row of its children
      obtain ⟨visits, stop, hrow⟩ := exists_journeyRow
        (fun index c => ih (v :: ancestors) (location.child form.kind index) c) 0 form.children
      refine ⟨⟨[], form⟩ :: visits, stop, fun s => ?_,
        lists_of_row hform hfresh hrow.before_nil hrow.lists, ?_⟩
      · rw [hwalk, hrow.walk, visited_root hcarries, ← Survey.visited_append]
        rfl
      · intro steps e hstop
        obtain ⟨i, c, rest, hc, rfl, hwhy⟩ := hrow.stops steps e hstop
        rw [Nat.zero_add] at hwhy ⊢
        exact hwhy.cons hform hc

end Graph

end Treewalk
