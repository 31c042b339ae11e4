import Treewalk.Proofs.Preorder

/-!
## What validation sums up

The summary that a validation leaves is the summary that it started from, extended by the visits
that its walk has made. That is so after a rejection as well: the visits are then those before the
place where the walk has stopped.

* `outcome_of_journey`: the outcome of a walk, from its visits and the place where it stops.
* `outcome_walkEach`, `validateProgram_eq_mergeOutcomes`: the outcome of a row is merged from the
  outcomes that its members have by themselves, and so is that of a program.
* `validation_sums_up`: what a validation of a node leaves, that of a program from those of its
  statements, and the balance of all summaries that begin with none.
-/

namespace Treewalk

/-- A validation of one node, with all that it is given except the survey. -/
structure ValidationCall where
  /-- The objects. -/
  graph : Graph
  /-- Are visits to be recorded? -/
  tracing : Bool
  /-- The number of nodes that there is room for on the way down. -/
  depth : Nat
  /-- The place where the walk starts. -/
  location : Location
  /-- The node. -/
  node : Value

/-- The survey that a validation leaves, whether it accepts the node or not. -/
def ValidationCall.survey (call : ValidationCall) (start : Survey) : Survey :=
  (call.graph.validateNode call.tracing call.depth call.location call.node start).2

namespace Survey

/-- **The survey of two parts** from the surveys of the parts. -/
def merge (s t : Survey) : Survey where
  summary := s.summary.merge t.summary
  visits := s.visits ++ t.visits

/-- Making visits is merging the survey that they leave by themselves. -/
theorem merge_visited (s : Survey) (tracing : Bool) (location : Location) (visits : List Visit) :
    s.merge (({} : Survey).visited tracing location visits)
      = s.visited tracing location visits := by
  have hsummary : s.summary.merge ((visits.map (·.form.label)).foldl Summary.enter .empty)
      = (visits.map (·.form.label)).foldl Summary.enter s.summary := by
    rw [Summary.merge_foldl_enter, Summary.merge_empty]
  refine Survey.mk.injEq .. |>.mpr ⟨hsummary, ?_⟩
  cases tracing <;> simp [visited]

/-- The line of a visit shows the way to the node, from the root of the location where the walk
starts, and the kind of the node. -/
theorem visitLine_entry (location : Location) (visit : Visit) :
    visitLine (visit.entry location)
      = "Validating: " ++ location.root
        ++ String.join ((location.steps ++ visit.steps).map fun step =>
          "/" ++ step.1.name ++ "[" ++ toString step.2 ++ "]")
        ++ " " ++ visit.form.kind.name := by
  rw [visitLine, Location.path, ← String.append_assoc]
  rfl

/-- **The lines of visits**, in a walk that starts at the location. -/
theorem trace_visited (s : Survey) (tracing : Bool) (location : Location) (visits : List Visit) :
    (s.visited tracing location visits).trace = s.trace ++ if tracing
      then String.join (visits.map fun visit =>
        "Validating: " ++ location.root
          ++ String.join ((location.steps ++ visit.steps).map fun step =>
            "/" ++ step.1.name ++ "[" ++ toString step.2 ++ "]")
          ++ " " ++ visit.form.kind.name ++ "\n")
      else "" := by
  simp only [← visitLine_entry]
  cases tracing with
  | false => simp [trace, visited]
  | true =>
    simp only [trace, visited, if_true, Array.toList_append, List.map_append, List.map_map,
      String.join_append]
    rfl

end Survey

namespace Graph

variable {g : Graph} {tracing : Bool} {depth start : Nat} {ancestors vs : List Value}
  {location : Location} {v : Value} {visits : List Visit}
  {stop : Option (List (Kind × Nat) × Rejection)} {s : Survey} {walk : Walk Unit}
  {self : Nat → Value → Walk Unit}

/-! ### Outcomes -/

/-- The answer of a walk that has been refused, or has not. -/
def verdict (refusal : Option Rejection) : Except Rejection Unit :=
  match refusal with
  | none => .ok ()
  | some e => .error e

theorem outcome_of_close {refusal : Option Rejection} {s' : Survey}
    (h : walk s = close refusal s') : outcome walk s = (verdict refusal, s') := by
  unfold outcome
  rw [h]
  cases refusal <;> rfl

theorem outcome_of_journey
    (h : g.Journey tracing depth ancestors location v visits stop) (s : Survey) :
    outcome (g.walkNode tracing depth ancestors location v) s
      = (verdict (stop.map Prod.snd), s.visited tracing location visits) :=
  outcome_of_close (h.walk s)

/-- **How an answer goes with the place where the walk has stopped.** A walk that is rejected has
stopped at an occurrence that is as deep as there is room, or it has stopped at one that offends,
and the rejection answers to that. -/
def EndsAt (g : Graph) (depth : Nat) (v : Value) (answer : Except Rejection Unit)
    (stop : Option (List Nat)) : Prop :=
  match answer, stop with
  | .ok _, none => True
  | .error e, some path => ∃ w, g.descend? v path = some w
    ∧ (e = .tooDeep ∧ path.length = depth ∨ g.Offends [] v path w ∧ g.Answers w e)
  | _, _ => False

theorem endsAt_of_journey (h : g.Journey tracing depth [] location v visits stop) :
    g.EndsAt depth v (verdict (stop.map Prod.snd))
      (stop.map fun place => place.1.map Prod.snd) := by
  cases stop with
  | none => trivial
  | some place =>
    obtain ⟨steps, e⟩ := place
    obtain ⟨w, hw, hwhy⟩ := h.stops steps e rfl
    refine ⟨w, descend?_of_follow? hw, ?_⟩
    rcases hwhy with ⟨he, hlength⟩ | ⟨hoffends, above, haccept⟩
    · exact .inl ⟨he, by rw [List.length_map, hlength]⟩
    · exact .inr ⟨hoffends, (answers_of_accept haccept).2⟩

/-! ### Surveys of parts -/

/-- The answer of the walk is the same whatever has been found before, and what it finds is merged
into that. -/
def Additive (walk : Walk Unit) : Prop :=
  ∀ s, outcome walk s = ((outcome walk {}).1, s.merge (outcome walk {}).2)

theorem additive_walkNode (g : Graph) (tracing : Bool) (depth : Nat) (ancestors : List Value)
    (location : Location) (v : Value) :
    Additive (g.walkNode tracing depth ancestors location v) := by
  obtain ⟨visits, stop, hjourney⟩ := g.exists_journey tracing depth ancestors location v
  intro s
  rw [outcome_of_journey hjourney, outcome_of_journey hjourney, Survey.merge_visited]

/-- The outcomes of the walks through a row, each on its own. -/
def outcomesOf (self : Nat → Value → Walk Unit) (start : Nat) (vs : List Value) :
    List (Except Rejection Unit × Survey) :=
  vs.mapIdx fun i v => outcome (self (start + i) v) {}

/-- **Outcomes merged from left to right**, up to the first one that is a rejection. -/
def mergeOutcomes : List (Except Rejection Unit × Survey) → Survey →
    Except Rejection Unit × Survey
  | [], s => (.ok (), s)
  | (.ok _, t) :: outcomes, s => mergeOutcomes outcomes (s.merge t)
  | (.error e, t) :: _, s => (.error e, s.merge t)

/-- Without a rejection, all surveys are merged. -/
theorem mergeOutcomes_of_ok {outcomes : List (Except Rejection Unit × Survey)} {s s' : Survey}
    (h : mergeOutcomes outcomes s = (.ok (), s')) :
    s' = (outcomes.map Prod.snd).foldl Survey.merge s := by
  induction outcomes generalizing s with
  | nil => exact (Prod.mk.inj h).2.symm
  | cons outcome outcomes ih =>
    obtain ⟨answer, survey⟩ := outcome
    cases answer with
    | error e => cases h
    | ok u => exact ih h

theorem outcomesOf_cons (self : Nat → Value → Walk Unit) (start : Nat) (v : Value)
    (vs : List Value) :
    outcomesOf self start (v :: vs)
      = outcome (self start v) {} :: outcomesOf self (start + 1) vs := by
  have hshift : (fun i c => outcome (self (start + (i + 1)) c) {})
      = fun i c => outcome (self (start + 1 + i) c) {} := by
    refine funext fun i => funext fun c => ?_
    rw [show start + (i + 1) = start + 1 + i by omega]
  rw [outcomesOf, List.mapIdx_cons, Nat.add_zero, hshift, outcomesOf]

/-- The outcome of a row begins with that of its first member. -/
theorem outcome_walkEach_cons (self : Nat → Value → Walk Unit) (start : Nat) (v : Value)
    (vs : List Value) (s : Survey) :
    outcome (walkEach self start (v :: vs)) s = match outcome (self start v) s with
      | (.ok _, t) => outcome (walkEach self (start + 1) vs) t
      | (.error e, t) => (.error e, t) := by
  unfold outcome
  rw [walkEach, Steps.bind_apply]
  cases self start v s <;> rfl

/-- **The outcome of a row is merged from the outcomes of its members.** -/
theorem outcome_walkEach (hself : ∀ index v, Additive (self index v)) (start : Nat)
    (vs : List Value) (s : Survey) :
    outcome (walkEach self start vs) s = mergeOutcomes (outcomesOf self start vs) s := by
  induction vs generalizing start s with
  | nil => rfl
  | cons v vs ih =>
    rw [outcome_walkEach_cons, hself start v s, outcomesOf_cons]
    cases outcome (self start v) {} with
    | mk answer t =>
      cases answer with
      | error e => rfl
      | ok u => exact ih (start + 1) (s.merge t)

/-- The outcomes of the statements of a program, each validated on its own. -/
def outcomesOfStatements (g : Graph) (tracing : Bool) (depth : Nat) (statements : List Value) :
    List (Except Rejection Unit × Survey) :=
  statements.mapIdx fun i s => g.validateNode tracing depth (.statement i) s {}

/-- **The outcome of a program is merged from those of its statements.** -/
theorem validateProgram_eq_mergeOutcomes {program : Value} (hrec : g.record? program = none)
    (hitems : g.items program = .ok vs) :
    g.validateProgram tracing depth program
      = mergeOutcomes (g.outcomesOfStatements tracing depth vs) {} := by
  have hwalk : g.walkProgram tracing depth program
      = walkEach (fun index => g.walkNode tracing depth [] (.statement index)) 0 vs := by
    rw [walkProgram, hrec, hitems]
    rfl
  have hstatements : g.outcomesOfStatements tracing depth vs
      = outcomesOf (fun index => g.walkNode tracing depth [] (.statement index)) 0 vs := by
    unfold outcomesOf outcomesOfStatements
    simp only [Nat.zero_add]
    rfl
  have hself : ∀ index v, Additive (g.walkNode tracing depth [] (.statement index) v) :=
    fun index v => g.additive_walkNode tracing depth [] (.statement index) v
  rw [validateProgram, hwalk, outcome_walkEach hself, hstatements]

/-! ### Balance -/

theorem balanced_visited (h : s.summary.Balanced) (tracing : Bool) (location : Location)
    (visits : List Visit) : (s.visited tracing location visits).summary.Balanced :=
  Summary.balanced_foldl_enter h _

/-- A validation keeps the balance of a summary. -/
theorem balanced_survey (call : ValidationCall) (h : s.summary.Balanced) :
    (call.survey s).summary.Balanced := by
  obtain ⟨visits, stop, hjourney⟩ :=
    call.graph.exists_journey call.tracing call.depth [] call.location call.node
  have houtcome := outcome_of_journey hjourney s
  rw [ValidationCall.survey, validateNode, houtcome]
  exact balanced_visited h call.tracing call.location visits

/-- **Every sequence of validations leaves a balanced summary** if it begins with one. -/
theorem balanced_foldl_survey (calls : List ValidationCall) (h : s.summary.Balanced) :
    (calls.foldl (fun s call => call.survey s) s).summary.Balanced := by
  induction calls generalizing s with
  | nil => exact h
  | cons call calls ih => exact ih (balanced_survey call h)

/-! ### The whole -/

/-- **A summary is the fold of the visits in the order of the walk**, also after a rejection.

A validation of any value, from any survey and at any location, makes the visits to the
occurrences that come before the place where it stops, or to all if it stops nowhere; the place
is the first occurrence that offends, or one that is as deep as there is room. It extends the
summary by these visits, and it prints one line for each of them if it is asked to: the words
of the line, the path from the root of the location down to the node, and the kind of the node.

So the summary of a program is merged from the summaries that its statements have on their own,
from left to right and up to the first one that is rejected; and the tally of the kinds sums to
the number of nodes after any sequence of validations that begins with an empty summary. -/
theorem validation_sums_up :
    (∀ (g : Graph) (tracing : Bool) (depth : Nat) (location : Location) (v : Value)
      (start : Survey), ∃ visits stop,
        g.Lists [] v stop visits
        ∧ g.EndsAt depth v (g.validateNode tracing depth location v start).1 stop
        ∧ start.summary.Extends (visits.map (·.form.label))
          (g.validateNode tracing depth location v start).2.summary
        ∧ (g.validateNode tracing depth location v start).2.trace
          = start.trace ++ if tracing
            then String.join (visits.map fun visit =>
              "Validating: " ++ location.root
                ++ String.join ((location.steps ++ visit.steps).map fun step =>
                  "/" ++ step.1.name ++ "[" ++ toString step.2 ++ "]")
                ++ " " ++ visit.form.kind.name ++ "\n")
            else "")
    ∧ (∀ (g : Graph) (tracing : Bool) (depth : Nat) (program : Value) (statements : List Value),
      g.record? program = none → g.items program = .ok statements →
        g.validateProgram tracing depth program
          = mergeOutcomes (g.outcomesOfStatements tracing depth statements) {}
        ∧ ((g.validateProgram tracing depth program).1 = .ok () →
          (g.validateProgram tracing depth program).2
            = ((g.outcomesOfStatements tracing depth statements).map Prod.snd).foldl
              Survey.merge {}))
    ∧ ∀ calls : List ValidationCall,
      (calls.foldl (fun s (call : ValidationCall) => call.survey s) {}).summary.Balanced := by
  refine ⟨fun g tracing depth location v start => ?_,
    fun g tracing depth program statements hrec hitems => ?_, fun calls => ?_⟩
  · obtain ⟨visits, stop, hjourney⟩ := g.exists_journey tracing depth [] location v
    refine ⟨visits, stop.map fun place => place.1.map Prod.snd, hjourney.lists, ?_⟩
    rw [validateNode, outcome_of_journey hjourney]
    exact ⟨endsAt_of_journey hjourney, Summary.extends_foldl_enter _ _,
      Survey.trace_visited start tracing location visits⟩
  · have hmerge : g.validateProgram tracing depth program
        = mergeOutcomes (g.outcomesOfStatements tracing depth statements) {} :=
      validateProgram_eq_mergeOutcomes hrec hitems
    refine ⟨hmerge, fun hok => ?_⟩
    exact mergeOutcomes_of_ok (hmerge.symm.trans (Prod.ext hok rfl))
  · exact balanced_foldl_survey calls Summary.balanced_empty

/-- A program that assigns the sum of a number and itself, and prints nothing at all. -/
def printsNothing : Graph where
  objects := #[
    .record ⟨[("type", .text "NUMBER"), ("value", .int 2)]⟩,
    .record ⟨[("op", .text "+"), ("left", .ref 0), ("right", .ref 0)]⟩,
    .record ⟨[("type", .text "OPERATION"), ("value", .ref 1)]⟩,
    .record ⟨[("name", .text "x"), ("expr", .ref 2)]⟩,
    .record ⟨[("type", .text "ASSIGNMENT"), ("value", .ref 3)]⟩,
    .record ⟨[("type", .text "PRINT"), ("value", .absent)]⟩, .list [.ref 4, .ref 5]]

/-- The second statement is rejected, and the number that is shared has been counted twice. -/
theorem printsNothing_sums_up :
    (printsNothing.record? (.ref 6) = none ∧ printsNothing.items (.ref 6) = .ok [.ref 4, .ref 5])
    ∧ (printsNothing.validateProgram true 9 (.ref 6)).1
      = .error (.violation .nothingToPrint (some (.statement 1)))
    ∧ printsNothing.validateProgram true 9 (.ref 6)
      = mergeOutcomes (printsNothing.outcomesOfStatements true 9 [.ref 4, .ref 5]) {}
    ∧ (printsNothing.validateProgram true 9 (.ref 6)).2.summary
      = { nodeCount := 4
          nodeKinds := ⟨[("ASSIGNMENT", 1), ("OPERATION", 1), ("NUMBER", 2)]⟩
          assigned := ["x"] }
    ∧ (printsNothing.validateProgram true 9 (.ref 6)).2.trace
      = "Validating: statement[0] ASSIGNMENT\n"
        ++ "Validating: statement[0]/ASSIGNMENT[0] OPERATION\n"
        ++ "Validating: statement[0]/ASSIGNMENT[0]/OPERATION[0] NUMBER\n"
        ++ "Validating: statement[0]/ASSIGNMENT[0]/OPERATION[1] NUMBER\n" := by
  have hrec : printsNothing.record? (.ref 6) = none := rfl
  have hitems : printsNothing.items (.ref 6) = .ok [.ref 4, .ref 5] := rfl
  refine ⟨⟨hrec, hitems⟩, by decide, ?_, by decide, by decide +kernel⟩
  exact (validation_sums_up.2.1 printsNothing true 9 (.ref 6) [.ref 4, .ref 5] hrec hitems).1

end Graph

end Treewalk
