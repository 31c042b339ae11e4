import Treewalk.Proofs.Endings
import Treewalk.Proofs.Realizing

/-!
## Names can be changed

Variables and functions have their names in two tables that do not know each other, and a name
matters only by being the same as another or not. So the variables of a program can be renamed, and
its functions too, by a renaming of their own: a run of the renamed program in the renamed
environment is the renamed run.

* `Table.RenamedTo.insert`: a renamed table is written under renamed keys.
* `exists_renamed`: every program and every environment can be renamed.
* `renaming_simulation`: the simulation of a run by the renamed run.
* `runProgram_renaming`: the law for programs, whether they come to an end or not.
-/

namespace Treewalk

open Eval
open List (Forall₂)

/-! ### Renamings -/

/-- A **renaming** gives different names to different names, and leaves the empty text, which is
no name, as it is. -/
structure Renaming where
  /-- The new name for a name. -/
  toFun : String → String
  injective : Function.Injective toFun
  empty : toFun "" = ""

namespace Renaming

instance : CoeFun Renaming fun _ => String → String := ⟨toFun⟩

variable (r : Renaming) {x y : String}

@[simp]
theorem apply_eq_iff : r x = r y ↔ x = y :=
  r.injective.eq_iff

/-- Names are renamed to names. -/
theorem apply_ne_empty (hx : x ≠ "") : r x ≠ "" := by
  intro h
  rw [← r.empty] at h
  exact hx (r.injective h)

/-- The renaming that exchanges two names. -/
def swap (x y : String) (hx : x ≠ "") (hy : y ≠ "") : Renaming where
  toFun := Equiv.swap x y
  injective := (Equiv.swap x y).injective
  empty := Equiv.swap_apply_of_ne_of_ne hx.symm hy.symm

end Renaming

/-! ### Tables -/

namespace Table

variable {α β : Type} {r : Renaming} {V : α → β → Prop} {t : Table α} {t' : Table β} {a : α} {b : β}

/-- The second table **is the first with its keys renamed**: they are in the same order, and `V`
holds of what is stored under a key and under the renamed key. -/
structure RenamedTo (r : Renaming) (V : α → β → Prop) (t : Table α) (t' : Table β) : Prop where
  keys : t'.keys = t.keys.map r
  get? (x : String) : Option.Rel V (t.get? x) (t'.get? (r x))

theorem RenamedTo.empty : RenamedTo r V .empty .empty :=
  ⟨rfl, fun _ => .none⟩

/-- Writing under a key and under the renamed key leaves the tables renamed. -/
theorem RenamedTo.insert (h : RenamedTo r V t t') (x : String) (hab : V a b) :
    RenamedTo r V (t.insert x a) (t'.insert (r x) b) where
  keys := by
    have hmem : r x ∈ t'.keys ↔ x ∈ t.keys := by
      rw [h.keys, List.mem_map_of_injective r.injective]
    by_cases hx : x ∈ t.keys
    · rw [keys_insert_of_mem t a hx, keys_insert_of_mem t' b (hmem.mpr hx), h.keys]
    · rw [keys_insert_of_notMem t a hx, keys_insert_of_notMem t' b (mt hmem.mp hx), h.keys,
        List.map_append, List.map_singleton]
  get? y := by
    simp only [get?_insert, r.apply_eq_iff]
    split
    · exact .some hab
    · exact h.get? y

/-- A row of renamed keys, each with a counterpart of what the table has under the key. -/
theorem findEntry_zip_renamed {ks : List String} {bs : List β}
    (h : Forall₂ (fun k b => Option.Rel V (t.get? k) (some b)) ks bs) (x : String) :
    Option.Rel V (if x ∈ ks then t.get? x else none) (findEntry (r x) ((ks.map r).zip bs)) := by
  induction h with
  | nil => exact .none
  | @cons k b ks bs hkb _ ih =>
    simp only [List.map_cons, List.zip_cons_cons, findEntry, r.apply_eq_iff, List.mem_cons]
    by_cases hx : x = k
    · subst hx
      simpa using hkb
    · simpa [hx] using ih

/-- A table can be renamed if all that is stored in it has a counterpart. -/
theorem exists_renamedTo (r : Renaming) (h : ∀ x a, t.get? x = some a → ∃ b, V a b) :
    ∃ t' : Table β, RenamedTo r V t t' := by
  have hkeys : ∀ x ∈ t.keys, ∃ b, Option.Rel V (t.get? x) (some b) := by
    intro x hx
    obtain ⟨a, ha⟩ := Option.isSome_iff_exists.mp ((t.contains_iff_mem_keys x).mpr hx)
    obtain ⟨b, hab⟩ := h x a ha
    exact ⟨b, by rw [ha]; exact .some hab⟩
  obtain ⟨bs, hbs⟩ := exists_forall₂ hkeys
  refine ⟨⟨(t.keys.map r).zip bs⟩, ?_, fun x => ?_⟩
  · exact List.map_fst_zip (by rw [List.length_map, hbs.length_eq])
  · have hx := findEntry_zip_renamed (r := r) hbs x
    by_cases hmem : x ∈ t.keys
    · rwa [if_pos hmem] at hx
    · -- a key that is not listed has nothing under it
      have hnone : t.get? x = none := by
        rw [← Option.not_isSome_iff_eq_none]
        exact mt (t.contains_iff_mem_keys x).mp hmem
      rwa [if_neg hmem, ← hnone] at hx

end Table

/-! ### Renamed programs and environments -/

section

variable (r f : Renaming)

/-- The label with the variables renamed by `r` and the functions renamed by `f`. -/
def Label.rename : Label → Label
  | .lookup x => .lookup (r x)
  | .assignment x => .assignment (r x)
  | .definition x ps => .definition (f x) (ps.map r)
  | .function ps => .function (ps.map r)
  | .call x => .call (f x)
  | label => label

mutual

/-- The tree with the variables renamed by `r` and the functions renamed by `f`. -/
def Tree.rename : Tree → Tree
  | .node label children => .node (label.rename r f) (renameAll children)

/-- The trees with the variables renamed by `r` and the functions renamed by `f`. -/
def Tree.renameAll : List Tree → List Tree
  | [] => []
  | t :: ts => t.rename :: renameAll ts

end

/-- The event as the renamed run shows it. -/
def Event.rename : Event → Event
  | .assigned x n => .assigned (r x) n
  | .defined x ps => .defined (f x) (ps.map r)
  | .called x bindings => .called (f x) (bindings.map (Prod.map r id))
  | e => e

/-- The name that the failure of the renamed run is about, if it is about one. -/
def Failure.renamedIdentifier? : Failure → Option Value
  | .undefinedVariable (.text x) _ => some (.text (r x))
  | .undefinedFunction (.text x) _ | .arityMismatch (.text x) _ _ => some (.text (f x))
  | _ => none

end

theorem Tree.renameAll_eq_map (r f : Renaming) (ts : List Tree) :
    Tree.renameAll r f ts = ts.map (Tree.rename r f) := by
  induction ts with
  | nil => rfl
  | cons t ts ih => rw [Tree.renameAll, ih, List.map_cons]

theorem Label.Admits.rename {label : Label} {n : Nat} (h : label.Admits n) (r f : Renaming) :
    (label.rename r f).Admits n := by
  have hnames : ∀ ps : List String, (∀ p ∈ ps, p ≠ "") → ∀ p ∈ ps.map r, p ≠ "" :=
    fun ps hps => List.forall_mem_map.mpr fun p hp => r.apply_ne_empty (hps p hp)
  cases label with
  | lookup x => exact ⟨r.apply_ne_empty h.1, h.2⟩
  | assignment x => exact ⟨r.apply_ne_empty h.1, h.2⟩
  | definition x ps => exact ⟨f.apply_ne_empty h.1, hnames ps h.2⟩
  | function ps => exact hnames ps h
  | call x => exact f.apply_ne_empty h
  | _ => exact h

/-- A proper tree stays proper when it is renamed. -/
theorem Tree.IsProper.rename {t : Tree} (h : t.IsProper) (r f : Renaming) :
    (t.rename r f).IsProper := by
  induction h with
  | @node label ts hlabel _ ih =>
    rw [Tree.rename, Tree.renameAll_eq_map, Tree.isProper_node_iff, List.length_map,
      List.forall_mem_map]
    exact ⟨hlabel.rename r f, ih⟩

/-- A renamed event prints what the event prints. -/
@[simp]
theorem Event.printedLine?_rename (r f : Renaming) (e : Event) :
    (e.rename r f).printedLine? = e.printedLine? := by
  cases e <;> rfl

theorem Log.printed_map_rename (r f : Renaming) (log : Log) :
    Log.printed (log.map (·.rename r f)) = Log.printed log := by
  simp [Log.printed, List.filterMap_map]

namespace Graph

section

variable (r f : Renaming) (g g' : Graph)

/-- The second value **unfolds to the renamed tree** of the first, each in its own graph. -/
def RenamedNode (v v' : Value) : Prop :=
  ∃ t, g.Unfolds v t ∧ g'.Unfolds v' (t.rename r f)

/-- The second function has the renamed parameters and statements of the first. -/
def RenamedFunction (F F' : Callable) : Prop :=
  ∃ ps ts, g.FunctionUnfolds ps ts F ∧ g'.FunctionUnfolds (ps.map r) (ts.map (·.rename r f)) F'

/-- The second environment **is the first renamed**: both tables have renamed keys in the same
order, the variables have the same values, and the functions are renamed. -/
structure RenamedEnv (env env' : Env) : Prop where
  values : Table.RenamedTo r (· = ·) env.values env'.values
  functions : Table.RenamedTo f (RenamedFunction r f g g') env.functions env'.functions

/-- The second program **is the first renamed**, statement by statement. -/
def RenamedProgram (p p' : Value) : Prop :=
  ∃ vs vs', g.items p = .ok vs ∧ g'.items p' = .ok vs' ∧ Forall₂ (RenamedNode r f g g') vs vs'

end

variable {r f : Renaming} {g g' : Graph} {v v' : Value} {env env' : Env} {vs vs' : List Value}
  {ts : List Tree}

/-- Rows that unfold to trees and to the renamed trees are renamed, member by member. -/
theorem renamedNodes (hvs : Forall₂ g.Unfolds vs ts)
    (hvs' : Forall₂ g'.Unfolds vs' (ts.map (·.rename r f))) :
    Forall₂ (RenamedNode r f g g') vs vs' :=
  forall₂_exists_iff.mpr ⟨ts, hvs, List.forall₂_map_right_iff.mp hvs'⟩

/-- **Renamed nodes** have renamed labels, and children that unfold to trees and to the renamed
trees. -/
theorem RenamedNode.forms (h : RenamedNode r f g g' v v') : ∃ form form' ts, g.HasForm v form
    ∧ g'.HasForm v' form' ∧ form'.label = form.label.rename r f
    ∧ Forall₂ g.Unfolds form.children ts
    ∧ Forall₂ g'.Unfolds form'.children (ts.map (·.rename r f)) := by
  obtain ⟨⟨label, ts⟩, ht, ht'⟩ := h
  rw [Tree.rename, Tree.renameAll_eq_map] at ht'
  obtain ⟨form, hform, rfl, hchildren⟩ := unfolds_node_iff.mp ht
  obtain ⟨form', hform', hlabel', hchildren'⟩ := unfolds_node_iff.mp ht'
  exact ⟨form, form', ts, hform, hform', hlabel', hchildren, hchildren'⟩

theorem RenamedEnv.setVariable (h : RenamedEnv r f g g' env env') (x : String) (n : Int) :
    RenamedEnv r f g g' (env.setVariable x n) (env'.setVariable (r x) n) :=
  ⟨h.values.insert x rfl, h.functions⟩

theorem RenamedEnv.define (h : RenamedEnv r f g g' env env') (x : String) {F F' : Callable}
    (hF : RenamedFunction r f g g' F F') :
    RenamedEnv r f g g' (env.define x F) (env'.define (f x) F') :=
  ⟨h.values, h.functions.insert x hF⟩

end Graph

namespace Graph

/-- **Every accepted program can be renamed**, together with any environment whose functions pass
validation. -/
theorem exists_renamed (r f : Renaming) {g : Graph} {p : Value} {env : Env} {tracing : Bool}
    {depth : Nat} (hvalid : (g.validateProgram tracing depth p).1 = .ok ())
    (henv : g.AcceptsFunctions env) :
    ∃ g' p' env', RenamedProgram r f g g' p p' ∧ RenamedEnv r f g g' env env' := by
  obtain ⟨vs, ts, hitems, hts⟩ := exists_unfolds_of_validateProgram hvalid
  obtain ⟨us, hus, hfunctions⟩ := exists_functionTrees henv
  have hts' : ∀ t ∈ ts.map (·.rename r f), t.IsProper :=
    List.forall_mem_map.mpr fun t ht =>
      (forall_of_forall₂ (Forall₂.flip hts) (fun t v hv => Unfolds.isProper hv) t ht).rename r f
  have hus' : ∀ u ∈ us.map (·.rename r f), u.IsProper :=
    List.forall_mem_map.mpr fun u hu => (hus u hu).rename r f
  -- first nodes for the renamed functions, and then the renamed program
  obtain ⟨g₁, -, hnodes⟩ := Build.exists_unfolds_of_isProper hus' g
  obtain ⟨g', p', vs', hgrow, hitems', hvs'⟩ := Build.exists_program_of_isProper hts' g₁
  have hrenamed : ∀ x F, env.functions.get? x = some F → ∃ F', RenamedFunction r f g g' F F' := by
    intro x F hF
    obtain ⟨ps, bs, hunfolds, hmem⟩ := hfunctions x F hF
    obtain ⟨v, hv⟩ := hnodes _ (List.mem_map_of_mem hmem)
    rw [Tree.rename, Tree.renameAll_eq_map] at hv
    exact ⟨.given v, ps, bs, hunfolds, hv.transfer hgrow⟩
  obtain ⟨V', hV'⟩ := Table.exists_renamedTo (V := (· = ·)) (t := env.values) r
    fun x n _ => ⟨n, rfl⟩
  obtain ⟨F', hF'⟩ := Table.exists_renamedTo f hrenamed
  exact ⟨g', p', ⟨V', F'⟩, ⟨vs, vs', hitems, hitems', renamedNodes hts hvs'⟩, hV', hF'⟩

end Graph

/-! ### Runs -/

/-- The relations between a run and the renamed run, where both have started with the same log. -/
def renamingRelations (r f : Renaming) (g g' : Graph) (start : Log) : Relations where
  node := Graph.RenamedNode r f g g'
  function := Graph.RenamedFunction r f g g'
  read x x' := x' = r x
  write x x' := x' = r x
  call x x' := x' = f x
  define x x' := x' = f x
  env := Graph.RenamedEnv r f g g'
  log log log' := ∃ events : Log, log = start ++ events ∧ log' = start ++ events.map (·.rename r f)

section

variable {r f : Renaming} {g g' : Graph} {start : Log}

theorem forall₂_renamed (ps : List String) :
    Forall₂ (renamingRelations r f g g' start).write ps (ps.map r) :=
  List.forall₂_map_right_iff.mpr (List.forall₂_same.mpr fun _ _ => rfl)

theorem eq_map_of_forall₂_renamed {ps ps' : List String}
    (h : Forall₂ (renamingRelations r f g g' start).write ps ps') : ps' = ps.map r := by
  induction h with
  | nil => rfl
  | cons hp _ ih =>
    obtain rfl : _ = _ := hp
    rw [ih, List.map_cons]

/-- A label is like the renamed label. -/
theorem labelLike_rename (label : Label) :
    (renamingRelations r f g g' start).LabelLike label (label.rename r f) := by
  cases label with
  | number n => exact .number n
  | lookup x => exact .lookup rfl
  | assignment x => exact .assignment rfl
  | arithmetic op => exact .arithmetic op
  | comparison op => exact .comparison op
  | conditional => exact .conditional
  | alternative => exact .alternative
  | loop => exact .loop
  | print => exact .print
  | definition x ps => exact .definition rfl (forall₂_renamed ps)
  | function ps => exact .function ps (ps.map r)
  | call x => exact .call rfl

/-- Events that are alike are renamed. -/
theorem eq_rename_of_eventLike {e e' : Event}
    (he : (renamingRelations r f g g' start).EventLike e e') : e' = e.rename r f := by
  cases he with
  | visited tag => rfl
  | assigned hx n =>
    obtain rfl : _ = _ := hx
    rfl
  | defined hx hps =>
    obtain rfl : _ = _ := hx
    rw [eq_map_of_forall₂_renamed hps]
    rfl
  | called hx hps ns =>
    obtain rfl : _ = _ := hx
    rw [eq_map_of_forall₂_renamed hps, List.zip_map_left]
    rfl

end

namespace Host

/-- **The renamed run simulates the run.** -/
theorem renaming_simulation (r f : Renaming) (h : Host) (g' : Graph) (start : Log) :
    Simulation (renamingRelations r f h.graph g' start) h { h with graph := g' } where
  form := by
    intro v v' hv
    obtain ⟨form, form', ts, hform, hform', hlabel, hchildren, hchildren'⟩ := hv.forms
    refine ⟨form, form', hform, hform', Relations.formLike_of_labelLike
      (by rw [hlabel]; exact labelLike_rename _) (Graph.renamedNodes hchildren hchildren') ?_⟩
    -- what is defined has the children of the definition as its statements
    rintro x x' F F' ps ps' vs vs' rfl rfl
    cases hlabel
    obtain ⟨p, b, rfl, hsignature⟩ := Graph.hasSignature_of_definition hform
    obtain ⟨p', b', rfl, hsignature'⟩ := Graph.hasSignature_of_definition hform'
    exact ⟨ps, ts, ⟨vs, hsignature, hchildren⟩, vs', hsignature', hchildren'⟩
  signature := by
    rintro F F' ⟨ps, ts, hF, hF'⟩
    obtain ⟨vs, hsignature, hvs⟩ := hF.signature
    obtain ⟨vs', hsignature', hvs'⟩ := hF'.signature
    exact ⟨ps, ps.map r, vs, vs', hsignature, hsignature', forall₂_renamed ps,
      Graph.renamedNodes hvs hvs'⟩
  value := by
    rintro env env' x _ henv rfl
    have hx := henv.values.get? x
    show env.values.get? x = env'.values.get? (r x)
    generalize env.values.get? x = found at hx ⊢
    generalize env'.values.get? (r x) = found' at hx ⊢
    cases hx with
    | some heq => rw [heq]
    | none => rfl
  function := by
    rintro env env' x _ henv rfl
    exact henv.functions.get? x
  setVariable := by
    rintro env env' x _ n henv rfl
    exact henv.setVariable x n
  define := by
    rintro env env' x _ F F' henv rfl hF
    exact henv.define x hF
  trace := by
    rintro e e' _ _ he ⟨events, rfl, rfl⟩
    obtain rfl := eq_rename_of_eventLike he
    cases htracing : h.tracing with
    | true => exact ⟨events.push e, by simp, by simp⟩
    | false => exact ⟨events, by simp, by simp⟩
  print := by
    rintro sink n _ _ ⟨events, rfl, rfl⟩
    exact ⟨events.push (.printed sink n), by simp, by simp; rfl⟩
  nesting := rfl
  rounds := rfl

/-- A failure of the renamed run is of the same kind, at the same sort of node, and about the
renamed name. -/
theorem tells_renamed {r f : Renaming} {g g' : Graph} {start : Log} {F F' : Failure}
    (h : (renamingRelations r f g g' start).FailureLike F F') :
    F.kind = F'.kind ∧ F.tag = F'.tag ∧ F'.identifier? = F.renamedIdentifier? r f := by
  cases h with
  | undefinedVariable hx _ =>
    obtain rfl : _ = _ := hx
    exact ⟨rfl, rfl, rfl⟩
  | undefinedFunction hx _ =>
    obtain rfl : _ = _ := hx
    exact ⟨rfl, rfl, rfl⟩
  | arityMismatch hx _ _ =>
    obtain rfl : _ = _ := hx
    exact ⟨rfl, rfl, rfl⟩
  | same hname =>
    refine ⟨rfl, rfl, ?_⟩
    cases F <;> first | rfl | cases hname

/-- **Names can be changed.** Take a program that validation accepts, an environment whose
functions pass validation, and two renamings, `r` for variables and `f` for functions. The program
and the environment can be renamed, wherever the renamed ones may then be. In the same context or
without one, the renamed program in the renamed environment either comes to no end as the program
does, or the two come to ends that tell the same: the same values, or failures of one kind, with
one tag and at one statement, where the name of an undefined variable is renamed by `r` and that of
an undefined or wrongly called function by `f`. The contexts at the end are the same, what the
second log has got is what the first has got with its names changed, the same lines have been
printed, and the second environment is the first renamed. -/
theorem runProgram_renaming (r f : Renaming) (h : Host) (p : Value) (m : Machine) (tracing : Bool)
    (depth : Nat) (hvalid : (h.graph.validateProgram tracing depth p).1 = .ok ())
    (hfunctions : ∀ name F, m.env.function? name = some F → h.graph.AcceptsFunction F) :
    (∃ g' p' env', Graph.RenamedProgram r f h.graph g' p p'
      ∧ Graph.RenamedEnv r f h.graph g' m.env env')
    ∧ ∀ g' p' env', Graph.RenamedProgram r f h.graph g' p p' →
      Graph.RenamedEnv r f h.graph g' m.env env' →
      (h.Diverges p m ∧ ({ h with graph := g' } : Host).Diverges p' { m with env := env' })
      ∨ ∃ o o', h.Yields p m o ∧ ({ h with graph := g' } : Host).Yields p' { m with env := env' } o'
        ∧ ((∃ xs, o.result = .ok xs ∧ o'.result = .ok xs)
          ∨ ∃ e e', o.result = .error (.failure e) ∧ o'.result = .error (.failure e')
            ∧ e.failure.kind = e'.failure.kind ∧ e.failure.tag = e'.failure.tag
            ∧ e'.failure.identifier? = e.failure.renamedIdentifier? r f
            ∧ e.statement = e'.statement)
        ∧ o.machine.context = o'.machine.context
        ∧ (∃ events : Log, o.machine.log = m.log ++ events
          ∧ o'.machine.log = m.log ++ events.map (·.rename r f))
        ∧ Log.printed o.machine.log = Log.printed o'.machine.log
        ∧ Graph.RenamedEnv r f h.graph g' o.machine.env o'.machine.env := by
  refine ⟨Graph.exists_renamed r f hvalid hfunctions, fun g' p' env' hprogram henv => ?_⟩
  obtain ⟨vs, vs', hitems, hitems', hvs⟩ := hprogram
  have hstart : (renamingRelations r f h.graph g' m.log).MachineLike m { m with env := env' } :=
    ⟨henv, rfl, #[], by simp, by simp⟩
  have halike := fun rounds => (renaming_simulation r f { h with rounds := rounds } g'
    m.log).alike_runProgram hitems hitems' hvs
  rcases Relations.diverges_or_yields h { h with graph := g' } halike hstart with
    hdiverge | ⟨o, o', hy, hy', hlike⟩
  · exact .inl hdiverge
  obtain ⟨events, hlog, hlog'⟩ := hlike.machine.log
  have hprinted : Log.printed o.machine.log = Log.printed o'.machine.log := by
    rw [hlog, hlog', Log.printed_append, Log.printed_append, Log.printed_map_rename]
  refine .inr ⟨o, o', hy, hy', ?_, hlike.machine.context, ⟨events, hlog, hlog'⟩, hprinted,
    hlike.machine.env⟩
  rcases hlike.values_or_failures fun halt => exists_failure_of_yields hvalid hfunctions hy with
    hvalues | ⟨e, e', he, he', hfailure, hstatement⟩
  · exact .inl hvalues
  · obtain ⟨hkind, htag, hidentifier⟩ := tells_renamed hfailure
    exact .inr ⟨e, e', he, he', hkind, htag, hidentifier, hstatement⟩

/-- A program that assigns a variable and calls a function, and a function that gives back its
parameter, which has the name of the variable. -/
def setThenCall (x f : String) : Graph where
  objects := #[
    .record ⟨[("type", .text "NUMBER"), ("value", .int 4)]⟩,
    .record ⟨[("name", .text x), ("expr", .ref 0)]⟩,
    .record ⟨[("type", .text "ASSIGNMENT"), ("value", .ref 1)]⟩, .tuple [.ref 0],
    .record ⟨[("name", .text f), ("args", .ref 3)]⟩,
    .record ⟨[("type", .text "FUNCTION_CALL"), ("value", .ref 4)]⟩, .list [.ref 2, .ref 5],
    .record ⟨[("type", .text "VARIABLE"), ("value", .text x)]⟩, .tuple [.text x], .tuple [.ref 7],
    .record ⟨[("params", .ref 8), ("body", .ref 9)]⟩,
    .record ⟨[("type", .text "FUNCTION"), ("value", .ref 10)]⟩]

theorem setThenCall_unfolds {x f : String} (hx : x ≠ "") (hf : f ≠ "") :
    (setThenCall x f).Unfolds (.ref 2) (.node (.assignment x) [.node (.number 4) []])
      ∧ (setThenCall x f).Unfolds (.ref 5) (.node (.call f) [.node (.number 4) []])
      ∧ (setThenCall x f).Unfolds (.ref 11) (.node (.function [x]) [.node (.lookup x) []]) := by
  have hnumber : (setThenCall x f).Unfolds (.ref 0) (.node (.number 4) []) :=
    Graph.unfolds_node_iff.mpr ⟨.number 4, ⟨.int 4, rfl, rfl⟩, rfl, .nil⟩
  have hlookup : (setThenCall x f).Unfolds (.ref 7) (.node (.lookup x) []) :=
    Graph.unfolds_node_iff.mpr ⟨.lookup x, ⟨.text x, rfl, rfl, hx⟩, rfl, .nil⟩
  refine ⟨?_, ?_, ?_⟩
  · exact Graph.unfolds_node_iff.mpr ⟨.assignment x (.ref 0),
      ⟨.ref 1, rfl, ⟨rfl, hx⟩, rfl, nofun⟩, rfl, .cons hnumber .nil⟩
  · exact Graph.unfolds_node_iff.mpr ⟨.call f [.ref 0],
      ⟨.ref 4, rfl, ⟨rfl, hf⟩, .ref 3, rfl, rfl, rfl⟩, rfl, .cons hnumber .nil⟩
  · exact Graph.unfolds_node_iff.mpr ⟨.function [x] [.ref 7],
      ⟨.ref 10, rfl, ⟨⟨.ref 8, rfl, rfl, rfl⟩, by simpa using hx⟩, .ref 9, rfl, rfl, rfl⟩, rfl,
      .cons hlookup .nil⟩

/-- A machine that has the function under the given name. -/
def hasIdentity (f : String) : Machine where
  env := { values := ⟨[("w", 1)]⟩, functions := ⟨[(f, .given (.ref 11))]⟩ }
  context := some { budget := some 9 }

/-- The renaming that exchanges `x` and `y`. -/
def exchangeXY : Renaming := .swap "x" "y" (by decide) (by decide)

/-- The renaming that exchanges `x` and `z`. -/
def exchangeXZ : Renaming := .swap "x" "z" (by decide) (by decide)

/-- Variable `x` becomes `y` and function `x` becomes `z`, in the program and in the function, and
the two programs run alike. -/
theorem setThenCall_renaming :
    (((setThenCall "x" "x").validateProgram false 4 (.ref 6)).1 = .ok ()
      ∧ (∀ name F, (hasIdentity "x").env.function? name = some F →
        (setThenCall "x" "x").AcceptsFunction F)
      ∧ Graph.RenamedProgram exchangeXY exchangeXZ (setThenCall "x" "x") (setThenCall "y" "z")
        (.ref 6) (.ref 6)
      ∧ Graph.RenamedEnv exchangeXY exchangeXZ (setThenCall "x" "x") (setThenCall "y" "z")
        (hasIdentity "x").env (hasIdentity "z").env)
    ∧ ∃ o o', (⟨setThenCall "x" "x", false, 9, 9, 9⟩ : Host).Yields (.ref 6) (hasIdentity "x") o
      ∧ (⟨setThenCall "y" "z", false, 9, 9, 9⟩ : Host).Yields (.ref 6) (hasIdentity "z") o'
      ∧ o.machine.context = o'.machine.context
      ∧ Log.printed o.machine.log = Log.printed o'.machine.log
      ∧ Graph.RenamedEnv exchangeXY exchangeXZ (setThenCall "x" "x") (setThenCall "y" "z")
        o.machine.env o'.machine.env := by
  have hx : exchangeXY "x" = "y" := Equiv.swap_apply_left "x" "y"
  have hw : exchangeXY "w" = "w" := Equiv.swap_apply_of_ne_of_ne (by decide) (by decide)
  have hf : exchangeXZ "x" = "z" := Equiv.swap_apply_left "x" "z"
  have hvalid : ((setThenCall "x" "x").validateProgram false 4 (.ref 6)).1 = .ok () := by decide
  have hfunctions : ∀ name F, (hasIdentity "x").env.function? name = some F →
      (setThenCall "x" "x").AcceptsFunction F :=
    Graph.AcceptsFunctions.singleton
      ⟨.ref 11, setThenCall "x" "x", rfl, ⟨.ref 10, by decide⟩, 3, by decide⟩
  obtain ⟨hset, hcall, hfunction⟩ := setThenCall_unfolds (x := "x") (f := "x") (by decide)
    (by decide)
  obtain ⟨hset', hcall', hfunction'⟩ := setThenCall_unfolds (x := "y") (f := "z") (by decide)
    (by decide)
  rw [← hx] at hset' hfunction'
  rw [← hf] at hcall'
  have hprogram : Graph.RenamedProgram exchangeXY exchangeXZ (setThenCall "x" "x")
      (setThenCall "y" "z") (.ref 6) (.ref 6) :=
    ⟨[.ref 2, .ref 5], [.ref 2, .ref 5], rfl, rfl, .cons ⟨_, hset, hset'⟩
      (.cons ⟨_, hcall, hcall'⟩ .nil)⟩
  have hidentity : Graph.RenamedFunction exchangeXY exchangeXZ (setThenCall "x" "x")
      (setThenCall "y" "z") (.given (.ref 11)) (.given (.ref 11)) :=
    ⟨["x"], [.node (.lookup "x") []], hfunction, hfunction'⟩
  have henv : Graph.RenamedEnv exchangeXY exchangeXZ (setThenCall "x" "x") (setThenCall "y" "z")
      (hasIdentity "x").env (hasIdentity "z").env := by
    have hvalues := Table.RenamedTo.empty.insert (r := exchangeXY) "w" (rfl : (1 : Int) = 1)
    have hnames := Table.RenamedTo.empty.insert (r := exchangeXZ) "x" hidentity
    rw [hw] at hvalues
    rw [hf] at hnames
    exact ⟨hvalues, hnames⟩
  refine ⟨⟨hvalid, hfunctions, hprogram, henv⟩, ?_⟩
  rcases (runProgram_renaming exchangeXY exchangeXZ ⟨setThenCall "x" "x", false, 9, 9, 9⟩ (.ref 6)
    (hasIdentity "x") false 4 hvalid hfunctions).2 (setThenCall "y" "z") (.ref 6)
    (hasIdentity "z").env hprogram henv with
    hdiverge | ⟨o, o', hy, hy', -, hcontext, -, hprinted, henv'⟩
  · -- the program has no loops, so that it comes to an end at once
    exact absurd (hdiverge.1 9) (by decide +kernel)
  · exact ⟨o, o', hy, hy', hcontext, hprinted, henv'⟩

end Host

end Treewalk
