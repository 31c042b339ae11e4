import Treewalk.Proofs.Contexts
import Treewalk.Proofs.Framing
import Treewalk.Proofs.Unfolding

/-!
## Statements that commute

Two statements that neither call nor define functions, and of which neither assigns a variable
that occurs in the other, can change places. This takes two laws. The one says what a node leaves
alone (`leaves_of_eval`). The other says what it depends on: without hook and budget, wherever the
variables that occur below a node have the same values, the node gives the same value, passes the
same number of checkpoints and shows the same events, whatever was counted and shown before. It
asks for no bound on the rounds of a loop: that the first run has come to an end is enough.

* `local_simulation`, `eval_local`: what a node depends on.
* `eval_swap`: two nodes one after the other, and the other way round.
* `runProgram_commutes`: the law for programs of two statements.
-/

namespace Treewalk

open Eval

/-! ### What a run adds -/

/-- The events print nothing, and without tracing there are none. -/
def Log.IsSilent (h : Host) (events : Log) : Prop :=
  events.printed = [] ∧ (h.tracing = false → events = #[])

/-- **Silent events change places with any others**, and the same has been printed. -/
theorem Log.swap_of_isSilent {h : Host} {events later : Log}
    (hsilent : events.IsSilent h ∨ later.IsSilent h) (before : Log) :
    Log.printed (before ++ later ++ events) = Log.printed (before ++ events ++ later)
      ∧ (h.tracing = false → before ++ later ++ events = before ++ events ++ later) := by
  rcases hsilent with ⟨hnone, hempty⟩ | ⟨hnone, hempty⟩
  · exact ⟨by simp [hnone], fun hquiet => by simp [hempty hquiet]⟩
  · exact ⟨by simp [hnone], fun hquiet => by simp [hempty hquiet]⟩

namespace Machine

variable {sink : Sink} {n : Nat} {events : Log} {m m' : Machine}

/-- The machine has a context without hook and budget, which prints to the sink. -/
def IsFree (sink : Sink) (m : Machine) : Prop :=
  ∃ c, m.context = some c ∧ c.IsFree ∧ c.sink = sink

/-- **What a run adds**: the second machine has passed `n` more checkpoints than the first, and it
has shown the given events after those that the first has shown. -/
structure Gains (n : Nat) (events : Log) (m m' : Machine) : Prop where
  context : m'.context = m.context.map (·.advanced n)
  log : m'.log = m.log ++ events

theorem IsFree.of_gains (hm : m.IsFree sink) (hgains : m.Gains n events m') :
    m'.IsFree sink := by
  obtain ⟨c, hc, hfree, hsink⟩ := hm
  refine ⟨c.advanced n, ?_, hfree, hsink⟩
  rw [hgains.context, hc]
  rfl

/-- What is added where nothing is printed is silent. -/
theorem Gains.isSilent {h : Host} {assigned : String → Prop} {printing : Prop}
    (hgains : m.Gains n events m') (hleaves : m.Leaves h assigned printing m')
    (hsilent : ¬ printing) : events.IsSilent h := by
  constructor
  · have hprinted := hleaves.printed hsilent
    rw [hgains.log, Log.printed_append] at hprinted
    exact List.append_right_eq_self.mp hprinted
  · intro hquiet
    have hlog := hleaves.log hsilent hquiet
    rw [hgains.log] at hlog
    exact Array.append_right_eq_self.mp hlog

end Machine

/-! ### What a node depends on -/

/-- The relations between two runs of a node from machines on which the variables of `shared` have
the same values: these variables go on to have the same values, and what is shown is the same,
after what either machine has shown before. -/
def localRelations (g : Graph) (shared : String → Prop) (before before' : Log) : Relations where
  node v v' := v = v' ∧ g.CallsNothing v ∧ ∀ x, g.Mentions v x → shared x
  function _ _ := False
  read x x' := x = x' ∧ shared x
  write := Eq
  call _ _ := False
  define _ _ := False
  env env env' := ∀ x, shared x → env.value? x = env'.value? x
  log log log' := ∃ events, log = before ++ events ∧ log' = before' ++ events

namespace Host

variable {h : Host} {v : Value} {form : Form} {shared : String → Prop} {before before' : Log}

/-- A node that calls and defines nothing, with no variables but shared ones, is like itself. -/
theorem formLike_of_callsNothing {g : Graph} (hform : g.HasForm v form) (hv : g.CallsNothing v)
    (hshared : ∀ x, g.Mentions v x → shared x) :
    (localRelations g shared before before').FormLike form form := by
  obtain ⟨hcall, hdefinition⟩ := hv.kind v form .refl hform
  have hlabel : (localRelations g shared before before').LabelLike form.label form.label := by
    refine Relations.labelLike_refl (fun x hx => ⟨rfl, hshared x (.inl ?_)⟩) (fun x => rfl)
      (fun x hx => hcall ?_) (fun x ps hx => hdefinition ?_)
    · refine ⟨v, .refl, ?_⟩
      cases form <;> cases hx
      exact hform
    · rw [← form.kind_label, hx]
      rfl
    · rw [← form.kind_label, hx]
      rfl
  refine Relations.formLike_of_labelLike hlabel (List.forall₂_same.mpr fun c hc => ?_) ?_
  · have hchild : g.IsChild v c := (Graph.isChild_iff hform).mpr hc
    exact ⟨rfl, hv.of_isChild hchild, fun x hx => hshared x (hx.of_isChild hchild)⟩
  · rintro x x' f f' ps ps' vs vs' rfl -
    exact absurd rfl hdefinition

/-- **One run of a node simulates the other.** -/
theorem local_simulation (h : Host) (shared : String → Prop) (before before' : Log) :
    Simulation (localRelations h.graph shared before before') h h where
  form := by
    rintro v _ ⟨rfl, hv, hshared⟩
    obtain ⟨form, hform⟩ := hv.wellFormed.hasForm
    exact ⟨form, form, hform, hform, formLike_of_callsNothing hform hv hshared⟩
  signature := False.elim
  value := by
    rintro env env' x _ henv ⟨rfl, hx⟩
    exact henv x hx
  function _ := False.elim
  setVariable := by
    rintro env env' x _ n henv rfl other hother
    rw [Env.value?_setVariable, Env.value?_setVariable]
    split
    · rfl
    · exact henv other hother
  define _ := False.elim
  trace := by
    rintro e e' log log' he ⟨events, rfl, rfl⟩
    have hsame : e = e' := by
      cases he with
      | visited tag => rfl
      | assigned hx n => rw [show _ = _ from hx]
      | defined hx _ => exact hx.elim
      | called hx _ _ => exact hx.elim
    rw [hsame]
    split
    · exact ⟨events.push e', by rw [Array.push_append], by rw [Array.push_append]⟩
    · exact ⟨events, rfl, rfl⟩
  print := by
    rintro sink n log log' ⟨events, rfl, rfl⟩
    exact ⟨events.push (.printed sink n), by rw [Array.push_append], by rw [Array.push_append]⟩
  nesting := rfl
  rounds := rfl

variable {sink : Sink} {depth : Nat} {a : Int} {m m' t : Machine}

/-- **A node does the same in every context without hook and budget that prints to the same
sink**: where it has given a value, it gives that value with the same environment and log, and it
passes the same number of checkpoints. -/
theorem eval_in_context (hm : m.IsFree sink) (hrun : h.eval depth v m = .ok a m') :
    ∃ n events, m.Gains n events m' ∧ ∀ c : Context, c.IsFree → c.sink = sink →
      h.eval depth v { m with context := some c } = .ok a { m' with context := some (c.advanced n) }
      := by
  obtain ⟨env, context, log⟩ := m
  obtain ⟨c₀, rfl, -, rfl⟩ := hm
  obtain ⟨env', n, events, rfl, hdoes⟩ :=
    exists_does (h.ignoresLog_eval depth v) (h.eval_profiled depth v) hrun
  exact ⟨n, events, ⟨rfl, rfl⟩, fun c hfree hsink => hdoes c log hsink (.inl hfree)⟩

/-- **What a node does depends only on the variables that occur below it.** If it gives a value in
a context without hook and budget, then it does so from every machine on which these variables
have the same values; there it gives the same value, passes the same number of checkpoints, shows
the same events, and leaves these variables with the same values. -/
theorem eval_local (hv : h.graph.CallsNothing v) (hm : m.IsFree sink)
    (hrun : h.eval depth v m = .ok a m') :
    ∃ n events, m.Gains n events m' ∧ ∀ t : Machine, t.IsFree sink →
      (∀ x, h.graph.Mentions v x → m.env.value? x = t.env.value? x) →
      ∃ t', h.eval depth v t = .ok a t' ∧ t.Gains n events t'
        ∧ ∀ x, h.graph.Mentions v x → m'.env.value? x = t'.env.value? x := by
  obtain ⟨n, events, hgains, hcontext⟩ := eval_in_context hm hrun
  refine ⟨n, events, hgains, ?_⟩
  rintro ⟨env, context, log⟩ ⟨c, rfl, hfree, hsink⟩ hagree
  -- the first run is taken into the context of the second, where the two are side by side
  have hrun' := hcontext c hfree hsink
  have hlike : (localRelations h.graph (h.graph.Mentions v) m.log log).MachineLike
      { m with context := some c } ⟨env, some c, log⟩ :=
    ⟨hagree, rfl, #[], by simp, by simp⟩
  have halike := (h.local_simulation (h.graph.Mentions v) m.log log).alike_eval depth v v
    ⟨rfl, hv, fun _ => id⟩ _ _ hlike
  rw [hrun'] at halike
  cases hother : h.eval depth v ⟨env, some c, log⟩ with
  | error halt t' =>
    rw [hother] at halike
    exact halike.elim
  | ok b t' =>
    rw [hother] at halike
    obtain ⟨rfl, henv, hcontext', events', hlog, hlog'⟩ := halike
    have hevents : events = events' := by
      rwa [hgains.log, Array.append_right_inj] at hlog
    exact ⟨t', rfl, ⟨hcontext'.symm, by rw [hevents]; exact hlog'⟩, henv⟩

end Host

/-! ### Two nodes -/

/-- **Independent nodes**: nothing is called or defined below them, and neither assigns a variable
that occurs in the other. -/
structure Graph.Independent (g : Graph) (v w : Value) : Prop where
  left : g.CallsNothing v
  right : g.CallsNothing w
  not_mentions_right : ∀ x, g.Assigns v x → ¬ g.Mentions w x
  not_mentions_left : ∀ x, g.Assigns w x → ¬ g.Mentions v x

namespace Host

variable {h : Host} {v w : Value} {sink : Sink} {depth : Nat} {a b : Int} {m m' t : Machine}

/-- **Independent nodes change places**: their values are those that they had, all variables end
with the same values, as many checkpoints are passed, and unless both nodes print, the same has
been printed. -/
theorem eval_swap (hvw : h.graph.Independent v w) (hm : m.IsFree sink)
    (hrunv : h.eval depth v m = .ok a t) (hrunw : h.eval depth w t = .ok b m') :
    ∃ s s', h.eval depth w m = .ok b s ∧ h.eval depth v s = .ok a s'
      ∧ m'.Leaves h (fun _ => False) (h.graph.Prints v ∧ h.graph.Prints w) s'
      ∧ s'.context = m'.context := by
  obtain ⟨n, events, hgainsv, hlocalv⟩ := eval_local hvw.left hm hrunv
  obtain ⟨k, events', hgainsw, hlocalw⟩ := eval_local hvw.right (hm.of_gains hgainsv) hrunw
  have hleavesv := leaves_of_eval hvw.left hrunv
  have hleavesw := leaves_of_eval hvw.right hrunw
  -- the second node does not see the first, and then the first does not see the second
  obtain ⟨s, hruns, hgainss, hs⟩ := hlocalw m hm fun x hx =>
    hleavesv.values x fun hassigned => hvw.not_mentions_right x hassigned hx
  have hleavess := leaves_of_eval hvw.right hruns
  obtain ⟨s', hruns', hgainss', hs'⟩ := hlocalv s (hm.of_gains hgainss) fun x hx =>
    (hleavess.values x fun hassigned => hvw.not_mentions_left x hassigned hx).symm
  have hleavess' := leaves_of_eval hvw.left hruns'
  -- one of the two nodes adds silent events if not both of them print
  have hsilent : ¬ (h.graph.Prints v ∧ h.graph.Prints w) →
      events.IsSilent h ∨ events'.IsSilent h := by
    intro hnot
    by_cases hprints : h.graph.Prints v
    · exact .inr (hgainsw.isSilent hleavesw fun hprints' => hnot ⟨hprints, hprints'⟩)
    · exact .inl (hgainsv.isSilent hleavesv hprints)
  have hlog : m'.log = m.log ++ events ++ events' := by rw [hgainsw.log, hgainsv.log]
  have hlog' : s'.log = m.log ++ events' ++ events := by rw [hgainss'.log, hgainss.log]
  refine ⟨s, s', hruns, hruns', ⟨fun x _ => ?_, ?_, fun hnot => ?_, fun hnot => ?_⟩, ?_⟩
  · -- the variable is assigned by the first node, by the second one, or by neither
    by_cases hassigned : h.graph.Assigns v x
    · have hkept : ¬ h.graph.Assigns w x := fun h' =>
        hvw.not_mentions_right x hassigned (.inr h')
      rw [hleavesw.values x hkept, hs' x (.inr hassigned)]
    · rw [hleavess'.values x hassigned]
      by_cases hassigned' : h.graph.Assigns w x
      · rw [hs x (.inr hassigned')]
      · rw [hleavess.values x hassigned', hleavesw.values x hassigned',
          hleavesv.values x hassigned]
  · rw [hleavess'.functions, hleavess.functions, hleavesw.functions, hleavesv.functions]
  · rw [hlog, hlog']
    exact (Log.swap_of_isSilent (hsilent hnot) m.log).1
  · rw [hlog, hlog']
    exact (Log.swap_of_isSilent (hsilent hnot) m.log).2
  · rw [hgainss'.context, hgainss.context, hgainsw.context, hgainsv.context, Option.map_map,
      Option.map_map]
    congr 1
    funext c
    simp only [Function.comp_apply, Context.advanced_advanced, Nat.add_comm]

/-! ### Programs -/

theorem runStatements_pair_eq_ok_iff {start : Nat} :
    h.runStatements start [v, w] m = .ok [a, b] m'
      ↔ ∃ t, h.eval h.nesting v m = .ok a t ∧ h.eval h.nesting w t = .ok b m' := by
  rw [runStatements_cons_apply]
  cases h.eval h.nesting v m with
  | error cause t => simp
  | ok a' t =>
    simp only [runStatements_cons_apply, EStateM.Result.ok.injEq]
    cases hw : h.eval h.nesting w t with
    | error cause t' => simp [hw]
    | ok b' t' => simp [runStatements, Steps.pure_apply, and_assoc, hw]

/-- Programs of two independent statements, followed for a given number of rounds. -/
theorem runProgram_swap {p q : Value} (hp : h.graph.items p = .ok [v, w])
    (hq : h.graph.items q = .ok [w, v]) (hvw : h.graph.Independent v w)
    (hfree : ∀ c, m.context = some c → c.IsFree) (hrun : h.runProgram p m = .ok [a, b] m') :
    ∃ s', h.runProgram q m = .ok [b, a] s'
      ∧ m'.Leaves h (fun _ => False) (h.graph.Prints v ∧ h.graph.Prints w) s'
      ∧ s'.context = m'.context := by
  rw [runProgram_eq hp, inContext_eq_ok_iff] at hrun
  obtain ⟨t', hstatements, rfl⟩ := hrun
  obtain ⟨t, hrunv, hrunw⟩ := runStatements_pair_eq_ok_iff.mp hstatements
  have hstart : ({ m with context := some (m.context.getD .default) } : Machine).IsFree
      (m.context.getD .default).sink := by
    refine ⟨_, rfl, ?_, rfl⟩
    cases hc : m.context with
    | none => exact ⟨rfl, rfl⟩
    | some c => exact hfree c hc
  obtain ⟨s, s', hruns, hruns', hleaves, hcontext⟩ := eval_swap hvw hstart hrunv hrunw
  refine ⟨{ s' with context := m.context.bind fun _ => s'.context }, ?_, ?_, ?_⟩
  · rw [runProgram_eq hq, inContext_eq_ok_iff]
    exact ⟨s', runStatements_pair_eq_ok_iff.mpr ⟨s, hruns, hruns'⟩, rfl⟩
  · exact ⟨hleaves.values, hleaves.functions, hleaves.printed, hleaves.log⟩
  · dsimp only
    rw [hcontext]

/-- **Independent statements commute.** Take two statements that validation accepts, below which
nothing is called or defined, and of which neither assigns a variable that occurs in the other. If
a program of the two, without hook and budget, yields two values, then the program of the two the
other way round yields these values the other way round. The values of all variables are then the
same, and so are the functions and what has been counted in the context. Unless both statements
print, the same lines have been printed to the same sinks, and without tracing the logs are the
same altogether. -/
theorem runProgram_commutes (h : Host) (p q v w : Value) (m : Machine) (o : Outcome (List Int))
    (a b : Int) (hp : h.graph.items p = .ok [v, w]) (hq : h.graph.items q = .ok [w, v])
    (hv : ∃ tracing room location start,
      (h.graph.validateNode tracing room location v start).1 = .ok ())
    (hw : ∃ tracing room location start,
      (h.graph.validateNode tracing room location w start).1 = .ok ())
    (hkind : ∀ u form, h.graph.Reaches v u ∨ h.graph.Reaches w u → h.graph.HasForm u form →
      form.kind ≠ .call ∧ form.kind ≠ .definition)
    (hvw : ∀ x, h.graph.Assigns v x → ¬ h.graph.Mentions w x)
    (hwv : ∀ x, h.graph.Assigns w x → ¬ h.graph.Mentions v x)
    (hfree : ∀ c, m.context = some c → c.hook = none ∧ c.budget = none)
    (hyields : h.Yields p m o) (hresult : o.result = .ok [a, b]) :
    ∃ o', h.Yields q m o' ∧ o'.result = .ok [b, a]
      ∧ (∀ x, o'.machine.env.value? x = o.machine.env.value? x)
      ∧ o'.machine.env.functions = o.machine.env.functions
      ∧ o'.machine.context = o.machine.context
      ∧ (¬ (h.graph.Prints v ∧ h.graph.Prints w) →
        o'.machine.log.printed = o.machine.log.printed
          ∧ (h.tracing = false → o'.machine.log = o.machine.log)) := by
  obtain ⟨tracing, room, location, start, hv⟩ := hv
  obtain ⟨tracing', room', location', start', hw⟩ := hw
  have hindependent : h.graph.Independent v w :=
    { left := ⟨Graph.wellFormed_of_validateNode hv, fun u form hu => hkind u form (.inl hu)⟩
      right := ⟨Graph.wellFormed_of_validateNode hw, fun u form hu => hkind u form (.inr hu)⟩
      not_mentions_right := hvw
      not_mentions_left := hwv }
  obtain ⟨result, m'⟩ := o
  obtain rfl : result = .ok [a, b] := hresult
  obtain ⟨-, enough, henough⟩ := hyields
  have hrun : ({ h with rounds := enough } : Host).runProgram p m = .ok [a, b] m' :=
    carryOut_eq_ok_iff.mp (henough enough (Nat.le_refl _))
  -- the other program need not be followed for longer than the first
  obtain ⟨s', hrun', hleaves, hcontext⟩ :=
    runProgram_swap (h := { h with rounds := enough }) hp hq hindependent hfree hrun
  have hout : h.outcomeWithin enough q m = ⟨.ok [b, a], s'⟩ := carryOut_eq_ok_iff.mpr hrun'
  exact ⟨_, yields_of_outcomeWithin hout (by simp), rfl, fun x => hleaves.values x id,
    hleaves.functions, hcontext, fun hnot => ⟨hleaves.printed hnot, hleaves.log hnot⟩⟩

/-- A loop that counts `x` down and prints it, an assignment of `y` to `z`, and both together in
either order. -/
def countsDown : Graph where
  objects := #[
    .record ⟨[("type", .text "NUMBER"), ("value", .int 1)]⟩,
    .record ⟨[("type", .text "VARIABLE"), ("value", .text "x")]⟩,
    .record ⟨[("op", .text "-"), ("left", .ref 1), ("right", .ref 0)]⟩,
    .record ⟨[("type", .text "OPERATION"), ("value", .ref 2)]⟩,
    .record ⟨[("name", .text "x"), ("expr", .ref 3)]⟩,
    .record ⟨[("type", .text "ASSIGNMENT"), ("value", .ref 4)]⟩,
    .record ⟨[("type", .text "PRINT"), ("value", .ref 5)]⟩, .tuple [.ref 6],
    .record ⟨[("condition", .ref 1), ("body", .ref 7)]⟩,
    .record ⟨[("type", .text "WHILE"), ("value", .ref 8)]⟩,
    .record ⟨[("type", .text "VARIABLE"), ("value", .text "y")]⟩,
    .record ⟨[("name", .text "z"), ("expr", .ref 10)]⟩,
    .record ⟨[("type", .text "ASSIGNMENT"), ("value", .ref 11)]⟩,
    .list [.ref 9, .ref 12], .list [.ref 12, .ref 9]]

/-- A machine on which the loop takes two rounds. -/
def countsFromTwo : Machine where
  env := { values := ⟨[("x", 2), ("y", 5)]⟩ }

theorem countsDown_labels_loop {u : Value} {form : Form} (hreaches : countsDown.Reaches (.ref 9) u)
    (hform : countsDown.HasForm u form) : form.label ∈ [.loop, .lookup "x", .print,
      .assignment "x", .arithmetic .sub, .lookup "x", .number 1] := by
  have hx : countsDown.Unfolds (.ref 1) (.node (.lookup "x") []) :=
    Graph.unfolds_node_iff.mpr ⟨.lookup "x", ⟨_, rfl, rfl, by decide⟩, rfl, .nil⟩
  have hone : countsDown.Unfolds (.ref 0) (.node (.number 1) []) :=
    Graph.unfolds_node_iff.mpr ⟨.number 1, ⟨_, rfl, rfl⟩, rfl, .nil⟩
  have hsub := Graph.unfolds_node_iff.mpr ⟨.arithmetic .sub (.ref 1) (.ref 0),
    ⟨.ref 2, (rfl : countsDown.node? (.ref 3) = _), rfl, ⟨rfl, nofun⟩, rfl, nofun⟩, rfl,
    .cons hx (.cons hone .nil)⟩
  have hassign := Graph.unfolds_node_iff.mpr ⟨.assignment "x" (.ref 3),
    ⟨.ref 4, (rfl : countsDown.node? (.ref 5) = _), ⟨rfl, by decide⟩, rfl, nofun⟩, rfl,
    .cons hsub .nil⟩
  have hprint := Graph.unfolds_node_iff.mpr ⟨.print (.ref 5),
    ⟨.ref 5, (rfl : countsDown.node? (.ref 6) = _), rfl, nofun⟩, rfl, .cons hassign .nil⟩
  have hloop := Graph.unfolds_node_iff.mpr ⟨.loop (.ref 1) [.ref 6],
    ⟨.ref 8, (rfl : countsDown.node? (.ref 9) = _), ⟨rfl, nofun⟩, .ref 7, rfl, rfl, rfl⟩, rfl,
    .cons hx (.cons hprint .nil)⟩
  exact hloop.label_mem hreaches hform

theorem countsDown_labels_assignment {u : Value} {form : Form}
    (hreaches : countsDown.Reaches (.ref 12) u) (hform : countsDown.HasForm u form) :
    form.label ∈ [.assignment "z", .lookup "y"] := by
  have hy : countsDown.Unfolds (.ref 10) (.node (.lookup "y") []) :=
    Graph.unfolds_node_iff.mpr ⟨.lookup "y", ⟨_, rfl, rfl, by decide⟩, rfl, .nil⟩
  have hassign := Graph.unfolds_node_iff.mpr ⟨.assignment "z" (.ref 10),
    ⟨.ref 11, (rfl : countsDown.node? (.ref 12) = _), ⟨rfl, by decide⟩, rfl, nofun⟩, rfl,
    .cons hy .nil⟩
  exact hassign.label_mem hreaches hform

/-- The assignment first and the loop afterwards: the loop still prints `1` and `0`, after three
checkpoints. -/
theorem countsDown_commutes :
    (countsDown.items (.ref 13) = .ok [.ref 9, .ref 12]
      ∧ countsDown.items (.ref 14) = .ok [.ref 12, .ref 9]
      ∧ (countsDown.validateNode false 9 ⟨"program", []⟩ (.ref 9) {}).1 = .ok ()
      ∧ (countsDown.validateNode false 9 ⟨"program", []⟩ (.ref 12) {}).1 = .ok ()
      ∧ (∀ x, countsDown.Assigns (.ref 9) x → ¬ countsDown.Mentions (.ref 12) x)
      ∧ ∀ x, countsDown.Assigns (.ref 12) x → ¬ countsDown.Mentions (.ref 9) x)
    ∧ ∃ o, (⟨countsDown, false, 9, 9, 9⟩ : Host).Yields (.ref 14) countsFromTwo o
      ∧ o.result = .ok [5, 0] ∧ o.machine.env.value? "z" = some 5
      ∧ o.machine.context = some { steps := 3 }
      ∧ o.machine.log = #[.printed .standard 1, .printed .standard 0] := by
  have hloop : (countsDown.validateNode false 9 ⟨"program", []⟩ (.ref 9) {}).1 = .ok () := by
    decide
  have hassignment : (countsDown.validateNode false 9 ⟨"program", []⟩ (.ref 12) {}).1 = .ok () := by
    decide
  have hkind : ∀ u form, countsDown.Reaches (.ref 9) u ∨ countsDown.Reaches (.ref 12) u →
      countsDown.HasForm u form → form.kind ≠ .call ∧ form.kind ≠ .definition := by
    intro u form hreaches hform
    rw [← form.kind_label]
    rcases hreaches with hreaches | hreaches
    · have hmem := countsDown_labels_loop hreaches hform
      generalize form.label = label at hmem
      revert label
      decide
    · have hmem := countsDown_labels_assignment hreaches hform
      generalize form.label = label at hmem
      revert label
      decide
  have hvw : ∀ x, countsDown.Assigns (.ref 9) x → ¬ countsDown.Mentions (.ref 12) x := by
    rintro x ⟨u, expr, hreaches, hform⟩ hmentions
    obtain rfl : x = "x" := by simpa [Form.label] using countsDown_labels_loop hreaches hform
    rcases hmentions with ⟨u', hreaches', hform'⟩ | ⟨u', expr', hreaches', hform'⟩
    · simpa [Form.label] using countsDown_labels_assignment hreaches' hform'
    · simpa [Form.label] using countsDown_labels_assignment hreaches' hform'
  have hwv : ∀ x, countsDown.Assigns (.ref 12) x → ¬ countsDown.Mentions (.ref 9) x := by
    rintro x ⟨u, expr, hreaches, hform⟩ hmentions
    obtain rfl : x = "z" := by simpa [Form.label] using countsDown_labels_assignment hreaches hform
    rcases hmentions with ⟨u', hreaches', hform'⟩ | ⟨u', expr', hreaches', hform'⟩
    · simpa [Form.label] using countsDown_labels_loop hreaches' hform'
    · simpa [Form.label] using countsDown_labels_loop hreaches' hform'
  have hsilent : ¬ countsDown.Prints (.ref 12) := by
    rintro ⟨u, expr, hreaches, hform⟩
    simpa [Form.label] using countsDown_labels_assignment hreaches hform
  have hyields : (⟨countsDown, false, 9, 9, 9⟩ : Host).Yields (.ref 13) countsFromTwo
      ⟨.ok [0, 5], ⟨{ values := ⟨[("x", 0), ("y", 5), ("z", 5)]⟩ }, some { steps := 3 },
        #[.printed .standard 1, .printed .standard 0]⟩⟩ :=
    yields_of_outcomeWithin (rfl : Host.outcomeWithin _ 9 _ _ = _) nofun
  refine ⟨⟨rfl, rfl, hloop, hassignment, hvw, hwv⟩, ?_⟩
  obtain ⟨o, hyields', hresult, hvalues, -, hcontext, hprints⟩ :=
    runProgram_commutes ⟨countsDown, false, 9, 9, 9⟩ (.ref 13) (.ref 14) (.ref 9) (.ref 12)
      countsFromTwo _ 0 5 rfl rfl ⟨_, _, _, _, hloop⟩ ⟨_, _, _, _, hassignment⟩ hkind hvw hwv
      (fun c hc => by cases hc; exact ⟨rfl, rfl⟩) hyields rfl
  exact ⟨o, hyields', hresult, hvalues "z", hcontext, (hprints fun hboth => hsilent hboth.2).2 rfl⟩

end Host

end Treewalk
