import Treewalk.Proofs.Coverage
import Treewalk.Proofs.Safety
import Treewalk.Proofs.Simulation

/-!
## Variables that are never read

A run looks at the variables that its nodes read and at no others. So two runs of one program
from tables of variables that agree on every name that is read, in the program or in a function
that is given, go the same way. What a run binds it binds in both, and a variable that it does
not bind keeps what it had.

* `unread_simulation`: the simulation of one run by the other.
* `runProgram_unread`: the law for programs, whether they come to an end or not.
-/

namespace Treewalk

open Eval
open List (Forall₂)

namespace Graph

variable {g : Graph} {V₁ V₂ : Table Int} {v c s : Value} {x : String}

/-- The name is read by a node that is reached from the value. -/
def Reads (g : Graph) (v : Value) (x : String) : Prop :=
  ∃ w, g.Reaches v w ∧ g.HasForm w (.lookup x)

theorem Reads.of_isChild (hchild : g.IsChild v c) (hreads : g.Reads c x) : g.Reads v x := by
  obtain ⟨w, hreaches, hform⟩ := hreads
  exact ⟨w, Relation.ReflTransGen.head hchild hreaches, hform⟩

/-- The node is well formed, and the tables agree on all names that are read below it. -/
structure AgreesOn (g : Graph) (V₁ V₂ : Table Int) (v : Value) : Prop where
  wellFormed : g.WellFormed v
  agrees : ∀ x, g.Reads v x → V₁.get? x = V₂.get? x

theorem AgreesOn.of_isChild (hv : g.AgreesOn V₁ V₂ v) (hchild : g.IsChild v c) :
    g.AgreesOn V₁ V₂ c :=
  ⟨hv.wellFormed.of_isChild hchild, fun x hreads => hv.agrees x (hreads.of_isChild hchild)⟩

/-- The function can be called, and the tables agree on all names that its body reads. -/
def AgreesOnFunction (g : Graph) (V₁ V₂ : Table Int) (f : Callable) : Prop :=
  ∃ ps vs, g.HasSignature f ps vs ∧ ∀ s ∈ vs, g.AgreesOn V₁ V₂ s

/-- The environments have come from the two tables by the same steps. -/
structure SameSteps (g : Graph) (V₁ V₂ : Table Int) (env env' : Env) : Prop where
  functions : env.functions = env'.functions
  agrees : ∀ name f, env.function? name = some f → g.AgreesOnFunction V₁ V₂ f
  values : ∀ x, env.value? x = env'.value? x ∨ env.value? x = V₁.get? x ∧ env'.value? x = V₂.get? x

end Graph

/-- The relations between a run from the first table and one from the second: all is the same but
for the variables, and what is read is what the tables agree on. -/
def unreadRelations (g : Graph) (V₁ V₂ : Table Int) : Relations where
  node v v' := v = v' ∧ g.AgreesOn V₁ V₂ v
  function f f' := f = f' ∧ g.AgreesOnFunction V₁ V₂ f
  read x x' := x = x' ∧ V₁.get? x = V₂.get? x
  write := Eq
  call := Eq
  define := Eq
  env := g.SameSteps V₁ V₂
  log := Eq

namespace Host

variable {h : Host} {V₁ V₂ : Table Int} {v : Value} {vs : List Value} {form : Form}

/-- A node on the names of which the tables agree is like itself. -/
theorem formLike_of_agreesOn {g : Graph} (hform : g.HasForm v form) (hv : g.AgreesOn V₁ V₂ v) :
    (unreadRelations g V₁ V₂).FormLike form form := by
  have hchild : ∀ c ∈ form.children, g.AgreesOn V₁ V₂ c :=
    fun c hc => hv.of_isChild ((Graph.isChild_iff hform).mpr hc)
  refine Relations.formLike_refl (fun c hc => ⟨rfl, hchild c hc⟩) ?_ (fun _ => rfl)
    (fun _ => rfl) (fun _ => rfl) ?_
  · rintro x rfl
    exact ⟨rfl, hv.agrees x ⟨v, Relation.ReflTransGen.refl, hform⟩⟩
  · -- the function that is defined has the children of the definition as its statements
    rintro x f ps vs rfl
    obtain ⟨p, b, rfl, hsignature⟩ := Graph.hasSignature_of_definition hform
    exact ⟨rfl, ps, vs, hsignature, hchild⟩

/-- **One run simulates the other.** -/
theorem unread_simulation (h : Host) (V₁ V₂ : Table Int) :
    Simulation (unreadRelations h.graph V₁ V₂) h h where
  form := by
    rintro v _ ⟨rfl, hv⟩
    obtain ⟨form, hform⟩ := hv.wellFormed.hasForm
    exact ⟨form, form, hform, hform, formLike_of_agreesOn hform hv⟩
  signature := by
    rintro f _ ⟨rfl, ps, vs, hsignature, hvs⟩
    exact ⟨ps, ps, vs, vs, hsignature, hsignature, List.forall₂_same.mpr fun _ _ => rfl,
      List.forall₂_same.mpr fun s hs => ⟨rfl, hvs s hs⟩⟩
  value := by
    rintro env env' x _ henv ⟨rfl, hx⟩
    rcases henv.values x with hsame | ⟨h₁, h₂⟩
    · exact hsame
    · rw [h₁, h₂, hx]
  function := by
    rintro env env' x _ henv rfl
    have hsame : env'.function? x = env.function? x := by
      rw [Env.function?, Env.function?, henv.functions]
    rw [hsame]
    cases hf : env.function? x with
    | none => exact .none
    | some f => exact .some ⟨rfl, henv.agrees x f hf⟩
  setVariable := by
    rintro env env' x _ n henv rfl
    refine ⟨henv.functions, henv.agrees, fun other => ?_⟩
    rw [Env.value?_setVariable, Env.value?_setVariable]
    split
    · exact .inl rfl
    · exact henv.values other
  define := by
    rintro env env' x _ f _ henv rfl ⟨rfl, hf⟩
    refine ⟨?_, fun other f' hf' => ?_, henv.values⟩
    · exact congrArg (Table.insert · x f) henv.functions
    · rw [Env.function?_define] at hf'
      split at hf'
      · cases hf'
        exact hf
      · exact henv.agrees other f' hf'
  trace := by
    rintro e e' log _ he rfl
    rw [he.eq rfl rfl rfl]
    rfl
  print := by
    rintro sink n log _ rfl
    rfl
  nesting := rfl
  rounds := rfl

/-- **Variables that are never read do not matter.** Take a program that validation accepts, a
table of functions that pass validation, and two tables of variables that agree on every name that
a node of the program reads and on every name that the body of one of the functions reads. From
the two tables, in the same context or without one, the program either comes to no end, or it
comes to ends that tell the same: the same values, or failures of one kind with one message, one
tag, one name and at one statement; the same context, log and table of functions. And of every
variable the two ends agree, or each table has left it as it was. -/
theorem runProgram_unread (h : Host) (program : Value) (F : Table Callable) (V₁ V₂ : Table Int)
    (c : Option Context) (log : Log) (tracing : Bool) (depth : Nat)
    (hvalid : (h.graph.validateProgram tracing depth program).1 = .ok ())
    (hfunctions : ∀ name f, F.get? name = some f → h.graph.AcceptsFunction f)
    (hprogram : ∀ w x, h.graph.Occurs program w → h.graph.HasForm w (.lookup x) →
      V₁.get? x = V₂.get? x)
    (hbodies : ∀ name f ps vs, F.get? name = some f → h.graph.HasSignature f ps vs →
      ∀ s ∈ vs, ∀ x, h.graph.Reads s x → V₁.get? x = V₂.get? x) :
    (h.Diverges program ⟨⟨V₁, F⟩, c, log⟩ ∧ h.Diverges program ⟨⟨V₂, F⟩, c, log⟩)
    ∨ ∃ o₁ o₂, h.Yields program ⟨⟨V₁, F⟩, c, log⟩ o₁ ∧ h.Yields program ⟨⟨V₂, F⟩, c, log⟩ o₂
      ∧ ((∃ xs, o₁.result = .ok xs ∧ o₂.result = .ok xs)
        ∨ ∃ e₁ e₂, o₁.result = .error (.failure e₁) ∧ o₂.result = .error (.failure e₂)
          ∧ e₁.failure.kind = e₂.failure.kind
          ∧ e₁.failure.message h.graph = e₂.failure.message h.graph
          ∧ e₁.failure.tag = e₂.failure.tag ∧ e₁.failure.identifier? = e₂.failure.identifier?
          ∧ e₁.statement = e₂.statement)
      ∧ o₁.machine.context = o₂.machine.context ∧ o₁.machine.log = o₂.machine.log
      ∧ o₁.machine.env.functions = o₂.machine.env.functions
      ∧ ∀ x, o₁.machine.env.value? x = o₂.machine.env.value? x
        ∨ o₁.machine.env.value? x = V₁.get? x ∧ o₂.machine.env.value? x = V₂.get? x := by
  obtain ⟨statements, hitems, hstatements⟩ := Graph.exists_wellFormed_of_validateProgram hvalid
  have hnodes : Forall₂ (unreadRelations h.graph V₁ V₂).node statements statements := by
    refine List.forall₂_same.mpr fun s hs => ⟨rfl, hstatements s hs, ?_⟩
    rintro x ⟨w, hreaches, hform⟩
    exact hprogram w x ⟨statements, hitems, s, hs, hreaches⟩ hform
  have hstart : (unreadRelations h.graph V₁ V₂).MachineLike ⟨⟨V₁, F⟩, c, log⟩
      ⟨⟨V₂, F⟩, c, log⟩ := by
    refine ⟨⟨rfl, fun name f hf => ?_, fun x => .inr ⟨rfl, rfl⟩⟩, rfl, rfl⟩
    obtain ⟨ps, vs, hsignature, hvs⟩ :=
      Graph.exists_signature_of_acceptsFunction (hfunctions name f hf)
    exact ⟨ps, vs, hsignature, fun s hs =>
      ⟨hvs s hs, hbodies name f ps vs hf hsignature s hs⟩⟩
  have halike := fun rounds => (({ h with rounds := rounds } : Host).unread_simulation V₁
    V₂).alike_runProgram hitems hitems hnodes
  rcases Relations.diverges_or_yields h h halike hstart with hdiverge | ⟨o₁, o₂, hy₁, hy₂, hlike⟩
  · exact .inl hdiverge
  refine .inr ⟨o₁, o₂, hy₁, hy₂, ?_, hlike.machine.context, hlike.machine.log,
    hlike.machine.env.functions, hlike.machine.env.values⟩
  rcases hlike.result with ⟨xs, h₁, h₂⟩ | ⟨halt₁, halt₂, h₁, h₂, hhalt⟩
  · exact .inl ⟨xs, h₁, h₂⟩
  · have haccepts : h.graph.AcceptsFunctions ⟨V₁, F⟩ := hfunctions
    obtain ⟨e₁, rfl⟩ := exists_failure_of_yields hvalid haccepts hy₁ h₁
    cases hhalt with
    | failure hf statement =>
      obtain ⟨hkind, hmessage, htag, hidentifier⟩ :=
        hf.tells_same (fun _ _ hx => hx.1) (fun _ _ hx => hx) h.graph
      exact .inr ⟨_, _, h₁, h₂, hkind, hmessage, htag, hidentifier, rfl⟩

/-- A program that assigns one variable and calls a function, which reads another. -/
def assignThenRead : Graph where
  objects := #[
    .record ⟨[("type", .text "NUMBER"), ("value", .int 4)]⟩,
    .record ⟨[("name", .text "x"), ("expr", .ref 0)]⟩,
    .record ⟨[("type", .text "ASSIGNMENT"), ("value", .ref 1)]⟩,
    .record ⟨[("type", .text "VARIABLE"), ("value", .text "y")]⟩,
    .tuple [], .tuple [.ref 3], .record ⟨[("params", .ref 4), ("body", .ref 5)]⟩,
    .record ⟨[("type", .text "FUNCTION"), ("value", .ref 6)]⟩,
    .record ⟨[("name", .text "f"), ("args", .ref 4)]⟩,
    .record ⟨[("type", .text "FUNCTION_CALL"), ("value", .ref 8)]⟩, .list [.ref 2, .ref 9]]

/-- Two tables that agree on the variable that is read, and on no other. -/
def tableWithX : Table Int := ⟨[("y", 5), ("x", 1)]⟩

@[inherit_doc tableWithX]
def tableWithZ : Table Int := ⟨[("y", 5), ("z", 2)]⟩

/-- A table with the function. -/
def tableWithF : Table Callable := ⟨[("f", .given (.ref 7))]⟩

theorem eq_y_of_hasForm_lookup {w : Value} {x : String}
    (hform : assignThenRead.HasForm w (.lookup x)) : x = "y" := by
  have hall : ∀ id < assignThenRead.objects.size, (assignThenRead.node? (.ref id)).all
      (fun node => node.1 != "VARIABLE" || node.2 == .text "y") = true := by
    decide
  have hobject := Graph.isSome_object?_of_hasForm hform
  obtain ⟨payload, hnode, rfl, -⟩ := hform
  cases w with
  | ref id =>
    have hid : id < assignThenRead.objects.size := by simpa [Graph.object?] using hobject
    simpa [hnode, Form.kind, Kind.name] using hall id hid
  | _ => simp [Graph.object?] at hobject

/-- The run from one table leaves what the run from the other leaves, or what was there. -/
theorem assignThenRead_unread :
    ((assignThenRead.validateProgram false 4 (.ref 10)).1 = .ok ()
      ∧ (∀ name f, tableWithF.get? name = some f → assignThenRead.AcceptsFunction f)
      ∧ (∀ w x, assignThenRead.Occurs (.ref 10) w → assignThenRead.HasForm w (.lookup x) →
        tableWithX.get? x = tableWithZ.get? x)
      ∧ ∀ name f ps vs, tableWithF.get? name = some f → assignThenRead.HasSignature f ps vs →
        ∀ s ∈ vs, ∀ x, assignThenRead.Reads s x → tableWithX.get? x = tableWithZ.get? x)
    ∧ ∃ o₁ o₂, (⟨assignThenRead, false, 9, 9, 9⟩ : Host).Yields (.ref 10)
        ⟨⟨tableWithX, tableWithF⟩, none, #[]⟩ o₁
      ∧ (⟨assignThenRead, false, 9, 9, 9⟩ : Host).Yields (.ref 10)
        ⟨⟨tableWithZ, tableWithF⟩, none, #[]⟩ o₂
      ∧ ∀ x, o₁.machine.env.value? x = o₂.machine.env.value? x
        ∨ o₁.machine.env.value? x = tableWithX.get? x
          ∧ o₂.machine.env.value? x = tableWithZ.get? x := by
  have hvalid : (assignThenRead.validateProgram false 4 (.ref 10)).1 = .ok () := by decide
  have hfunctions : ∀ name f, tableWithF.get? name = some f → assignThenRead.AcceptsFunction f :=
    Graph.AcceptsFunctions.singleton
      ⟨.ref 7, assignThenRead, rfl, ⟨.ref 6, by decide⟩, 3, by decide⟩
  have hread : ∀ w x, assignThenRead.HasForm w (.lookup x) →
      tableWithX.get? x = tableWithZ.get? x := by
    intro w x hform
    obtain rfl := eq_y_of_hasForm_lookup hform
    rfl
  have hprogram : ∀ w x, assignThenRead.Occurs (.ref 10) w →
      assignThenRead.HasForm w (.lookup x) → tableWithX.get? x = tableWithZ.get? x :=
    fun w x _ => hread w x
  have hbodies : ∀ name f ps vs, tableWithF.get? name = some f →
      assignThenRead.HasSignature f ps vs → ∀ s ∈ vs, ∀ x, assignThenRead.Reads s x →
      tableWithX.get? x = tableWithZ.get? x :=
    fun _ _ _ _ _ _ _ _ x hreads => by
      obtain ⟨w, -, hform⟩ := hreads
      exact hread w x hform
  refine ⟨⟨hvalid, hfunctions, hprogram, hbodies⟩, ?_⟩
  rcases runProgram_unread ⟨assignThenRead, false, 9, 9, 9⟩ (.ref 10) tableWithF tableWithX
    tableWithZ none #[] false 4 hvalid hfunctions hprogram hbodies with
    hdiverge | ⟨o₁, o₂, hy₁, hy₂, -, -, -, -, hvalues⟩
  · -- the program has no loops, so that it comes to an end at once
    cases hdiverge.1 0
  · exact ⟨o₁, o₂, hy₁, hy₂, hvalues⟩

end Host

end Treewalk
