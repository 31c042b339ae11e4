import Treewalk.Proofs.Coverage

/-!
## What nodes add to a summary

To visit a node is to enter its label in the summary, so a walk folds a list of labels into the
summary that it starts from. This file says in closed form what such a fold comes to, whatever
the summary was before: `Summary.Extends`.

* `foldl_noteName`: names that are noted one after the other are added as they are first seen,
  without those that are there already.
* `extends_foldl_enter`: the fold extends each part of the summary by what the labels add to it.
* `merge_foldl_enter`: entering labels is merging the summary that they have by themselves.
* `balanced_foldl_enter`: the tally of the kinds sums to the number of nodes.
-/

namespace Treewalk

/-! ### Names -/

/-- The list with those of the new names that it does not have, each once and as they are first
seen. -/
def withNew (names news : List String) : List String :=
  names ++ (news.filter fun name => !names.contains name).eraseDups

namespace Summary

/-- **Noting names one after the other** adds the new ones in the order in which they are first
seen. -/
theorem foldl_noteName (names news : List String) :
    news.foldl noteName names = withNew names news := by
  unfold withNew
  induction news generalizing names with
  | nil => simp
  | cons name news ih =>
    rw [List.foldl_cons, ih]
    by_cases hmem : name ∈ names
    · have hnoted : noteName names name = names := by simp [noteName, hmem]
      rw [hnoted, List.filter_cons_of_neg (by simp [hmem])]
    · have hnoted : noteName names name = names ++ [name] := by simp [noteName, hmem]
      rw [hnoted, List.filter_cons_of_pos (by simp [hmem]), List.eraseDups_cons,
        List.filter_filter, List.append_assoc, List.singleton_append]
      -- what is new after the name is new before it and different from it
      have hfilter : (news.filter fun other => !(names ++ [name]).contains other)
          = news.filter fun other => !other == name && !names.contains other := by
        refine List.filter_congr fun other _ => ?_
        by_cases hother : other = name <;> simp [hother]
      rw [hfilter]

theorem mem_foldl_noteName {names news : List String} {name : String} :
    name ∈ news.foldl noteName names ↔ name ∈ names ∨ name ∈ news := by
  induction news generalizing names with
  | nil => simp
  | cons other news ih => rw [List.foldl_cons, ih, mem_noteName, List.mem_cons, or_assoc]

/-- Noting a list to which a name has been noted notes the name last, if at all. -/
theorem foldl_noteName_noteName (names news : List String) (name : String) :
    (noteName news name).foldl noteName names = noteName (news.foldl noteName names) name := by
  by_cases hmem : name ∈ news
  · have hafter : name ∈ news.foldl noteName names := mem_foldl_noteName.mpr (.inr hmem)
    simp [noteName, hmem, hafter]
  · have hnoted : noteName news name = news ++ [name] := by simp [noteName, hmem]
    rw [hnoted, List.foldl_append]
    rfl

end Summary

/-! ### Tallies -/

namespace Table

variable {α : Type} {t : Table Nat} {key other : String} {m n : Nat}

theorem keys_insert (t : Table α) (key : String) (value : α) :
    (t.insert key value).keys = Summary.noteName t.keys key := by
  by_cases hmem : key ∈ t.keys
  · rw [keys_insert_of_mem t value hmem]
    simp [Summary.noteName, hmem]
  · rw [keys_insert_of_notMem t value hmem]
    simp [Summary.noteName, hmem]

theorem insertEntry_insertEntry (key : String) (old value : α) (entries : List (String × α)) :
    insertEntry key value (insertEntry key old entries) = insertEntry key value entries := by
  induction entries with
  | nil => simp [insertEntry]
  | cons entry rest ih =>
    by_cases hkey : key = entry.1 <;> simp [insertEntry, hkey]
    simpa [insertEntry, hkey] using ih

/-- Writing to two keys in either order is the same if the key of one is there before. -/
theorem insert_comm (t : Table α) (hmem : key ∈ t.keys) (hne : other ≠ key) (a b : α) :
    (t.insert key a).insert other b = (t.insert other b).insert key a := by
  obtain ⟨entries⟩ := t
  simp only [insert, keys, mk.injEq] at hmem ⊢
  induction entries with
  | nil => simp at hmem
  | cons entry rest ih =>
    by_cases hkey : key = entry.1
    · have hother : other ≠ entry.1 := fun heq => hne (heq.trans hkey.symm)
      simp [insertEntry, hkey, hother]
    · have hrest : key ∈ rest.map Prod.fst := by simpa [hkey] using hmem
      by_cases hother : other = entry.1
      · simp [insertEntry, hother, hkey]
      · simp [insertEntry, hkey, hother, ih hrest]

/-- The tally with `n` more at a key. -/
def bump (t : Table Nat) (key : String) (n : Nat) : Table Nat :=
  t.insert key ((t.get? key).getD 0 + n)

theorem get?_bump (t : Table Nat) (key other : String) (n : Nat) :
    (t.bump key n).get? other
      = if other = key then some ((t.get? key).getD 0 + n) else t.get? other :=
  get?_insert t key other _

theorem keys_bump (t : Table Nat) (key : String) (n : Nat) :
    (t.bump key n).keys = Summary.noteName t.keys key :=
  keys_insert t key _

theorem bump_bump (t : Table Nat) (key : String) (m n : Nat) :
    (t.bump key m).bump key n = t.bump key (m + n) := by
  rw [bump, get?_bump, if_pos rfl, Option.getD_some, Nat.add_assoc]
  exact congrArg mk (insertEntry_insertEntry key _ _ t.entries)

/-- A key that is there can be bumped before another one or after it. -/
theorem bump_comm (t : Table Nat) (hmem : key ∈ t.keys) (other : String) (m n : Nat) :
    (t.bump key m).bump other n = (t.bump other n).bump key m := by
  by_cases hkey : other = key
  · rw [hkey, bump_bump, bump_bump, Nat.add_comm]
  · have hother : (t.bump key m).get? other = t.get? other := by
      rw [get?_bump, if_neg hkey]
    have hself : (t.bump other n).get? key = t.get? key := by
      rw [get?_bump, if_neg (Ne.symm hkey)]
    calc (t.bump key m).bump other n
        = (t.bump key m).insert other ((t.get? other).getD 0 + n) := by rw [bump, hother]
      _ = (t.bump other n).insert key ((t.get? key).getD 0 + m) := insert_comm t hmem hkey _ _
      _ = (t.bump other n).bump key m := by rw [bump.eq_1 (t.bump other n), hself]

/-- The sum of a tally. -/
def total (t : Table Nat) : Nat :=
  t.entries.foldr (fun entry sum => entry.2 + sum) 0

/-- **A tally that is bumped** has grown by as much. -/
theorem total_bump (t : Table Nat) (key : String) (n : Nat) :
    (t.bump key n).total = t.total + n := by
  obtain ⟨entries⟩ := t
  simp only [bump, total, insert, get?]
  induction entries with
  | nil => simp [insertEntry, findEntry]
  | cons entry rest ih =>
    by_cases hkey : key = entry.1
    · simp only [insertEntry, findEntry, hkey, if_true, Option.getD_some, List.foldr_cons]
      omega
    · simp only [insertEntry, findEntry, hkey, if_false, List.foldr_cons, ih]
      omega

/-- The tally with what another one has at each of its keys. -/
def bumpAll (t : Table Nat) (entries : List (String × Nat)) : Table Nat :=
  entries.foldl (fun t entry => t.bump entry.1 entry.2) t

/-- A key that is there can be bumped before the others or after them. -/
theorem bumpAll_bump (t : Table Nat) (hmem : key ∈ t.keys) (n : Nat)
    (entries : List (String × Nat)) :
    (t.bump key n).bumpAll entries = (t.bumpAll entries).bump key n := by
  induction entries generalizing t with
  | nil => rfl
  | cons entry rest ih =>
    have hmem' : key ∈ (t.bump entry.1 entry.2).keys := by
      rw [keys_bump]
      exact Summary.mem_noteName.mpr (.inl hmem)
    show ((t.bump key n).bump entry.1 entry.2).bumpAll rest = _
    rw [bump_comm t hmem, ih _ hmem']
    rfl

/-- **Adding a tally that has been bumped** is adding the tally and then bumping. -/
theorem bumpAll_entries_bump (t u : Table Nat) (key : String) (n : Nat) :
    t.bumpAll (u.bump key n).entries = (t.bumpAll u.entries).bump key n := by
  obtain ⟨entries⟩ := u
  simp only [bump, insert, get?]
  induction entries generalizing t with
  | nil => simp [insertEntry, findEntry, bumpAll, bump, insert, get?]
  | cons entry rest ih =>
    obtain ⟨k, old⟩ := entry
    by_cases hkey : key = k
    · -- the key is counted here, and the rest goes on from a tally that has it
      subst hkey
      simp only [insertEntry, findEntry, if_true, Option.getD_some]
      have hmem : key ∈ (t.bump key old).keys := by
        rw [keys_bump]
        exact Summary.mem_noteName.mpr (.inr rfl)
      show (t.bump key (old + n)).bumpAll rest = ((t.bump key old).bumpAll rest).bump key n
      rw [← bumpAll_bump _ hmem, bump_bump]
    · simp only [insertEntry, findEntry, hkey, if_false]
      exact ih (t.bump k old)

end Table

/-! ### Labels -/

namespace Label

/-- The variable that a node with the label assigns. -/
def assigned? : Label → Option String
  | .assignment name => some name
  | _ => none

/-- The function that a node with the label defines. -/
def defined? : Label → Option String
  | .definition name _ => some name
  | _ => none

/-- The function that a node with the label calls. -/
def called? : Label → Option String
  | .call name => some name
  | _ => none

end Label

namespace Summary

variable {s t : Summary} {label : Label} {labels : List Label}

/-- A number that is raised by the number of times that something is seen. What has not been seen
gets no number. -/
def raised (before : Option Nat) (times : Nat) : Option Nat :=
  if times = 0 then before else some (before.getD 0 + times)

theorem raised_some (before times : Nat) : raised (some before) times = some (before + times) := by
  by_cases htimes : times = 0 <;> simp [raised, htimes]

theorem raised_succ (before : Option Nat) (times : Nat) :
    raised before (times + 1) = some (before.getD 0 + 1 + times) := by
  rw [raised, if_neg (Nat.succ_ne_zero times), Nat.add_assoc, Nat.add_comm 1]

/-- **The second summary is the first one extended by nodes with the labels**, in this order. -/
structure Extends (s : Summary) (labels : List Label) (t : Summary) : Prop where
  nodeCount : t.nodeCount = s.nodeCount + labels.length
  tally : ∀ tag, t.nodeKinds.get? tag
    = raised (s.nodeKinds.get? tag) (labels.countP fun label => label.kind.name == tag)
  tags : t.nodeKinds.keys = withNew s.nodeKinds.keys (labels.map (·.kind.name))
  assigned : t.assigned = withNew s.assigned (labels.filterMap Label.assigned?)
  defined : t.defined = withNew s.defined (labels.filterMap Label.defined?)
  called : t.called = withNew s.called (labels.filterMap Label.called?)

/-! ### One more node -/

theorem nodeCount_enter (s : Summary) (label : Label) :
    (s.enter label).nodeCount = s.nodeCount + 1 := by
  rw [enter, nodeCount_note, nodeCount_count]

theorem nodeKinds_enter (s : Summary) (label : Label) :
    (s.enter label).nodeKinds = s.nodeKinds.bump label.kind.name 1 := by
  cases label <;> rfl

theorem assigned_enter (s : Summary) (label : Label) :
    (s.enter label).assigned = label.assigned?.toList.foldl noteName s.assigned := by
  cases label <;> rfl

theorem defined_enter (s : Summary) (label : Label) :
    (s.enter label).defined = label.defined?.toList.foldl noteName s.defined := by
  cases label <;> rfl

theorem called_enter (s : Summary) (label : Label) :
    (s.enter label).called = label.called?.toList.foldl noteName s.called := by
  cases label <;> rfl

/-! ### All nodes of a walk -/

theorem nodeCount_foldl_enter (s : Summary) (labels : List Label) :
    (labels.foldl enter s).nodeCount = s.nodeCount + labels.length := by
  induction labels generalizing s with
  | nil => rfl
  | cons label labels ih =>
    rw [List.foldl_cons, ih, nodeCount_enter, List.length_cons]
    omega

theorem get?_foldl_enter (s : Summary) (labels : List Label) (tag : String) :
    (labels.foldl enter s).nodeKinds.get? tag
      = raised (s.nodeKinds.get? tag) (labels.countP fun label => label.kind.name == tag) := by
  induction labels generalizing s with
  | nil => rfl
  | cons label labels ih =>
    rw [List.foldl_cons, ih, nodeKinds_enter, Table.get?_bump, List.countP_cons]
    by_cases htag : tag = label.kind.name
    · rw [if_pos htag, if_pos (by simp [htag]), ← htag, raised_some, raised_succ]
    · have hne : ¬ label.kind.name = tag := fun heq => htag heq.symm
      simp [htag, hne]

theorem keys_foldl_enter (s : Summary) (labels : List Label) :
    (labels.foldl enter s).nodeKinds.keys
      = withNew s.nodeKinds.keys (labels.map (·.kind.name)) := by
  rw [← foldl_noteName]
  induction labels generalizing s with
  | nil => rfl
  | cons label labels ih =>
    rw [List.foldl_cons, ih, nodeKinds_enter, Table.keys_bump, List.map_cons, List.foldl_cons]

/-- A list of names that each node extends by its own name, if it has one for the list. -/
theorem names_foldl_enter {names : Summary → List String} {name? : Label → Option String}
    (hnames : ∀ s label, names (s.enter label) = (name? label).toList.foldl noteName (names s))
    (s : Summary) (labels : List Label) :
    names (labels.foldl enter s) = withNew (names s) (labels.filterMap name?) := by
  rw [← foldl_noteName]
  induction labels generalizing s with
  | nil => rfl
  | cons label labels ih =>
    rw [List.foldl_cons, ih, hnames, List.filterMap_cons]
    cases name? label <;> rfl

/-- **Entering labels extends a summary** by all that the labels say, and by nothing else. -/
theorem extends_foldl_enter (s : Summary) (labels : List Label) :
    s.Extends labels (labels.foldl enter s) where
  nodeCount := nodeCount_foldl_enter s labels
  tally := get?_foldl_enter s labels
  tags := keys_foldl_enter s labels
  assigned := names_foldl_enter assigned_enter s labels
  defined := names_foldl_enter defined_enter s labels
  called := names_foldl_enter called_enter s labels

/-! ### Merging -/

/-- **The summary of two parts** from the summaries of the parts. -/
def merge (s t : Summary) : Summary where
  nodeCount := s.nodeCount + t.nodeCount
  nodeKinds := s.nodeKinds.bumpAll t.nodeKinds.entries
  assigned := t.assigned.foldl noteName s.assigned
  defined := t.defined.foldl noteName s.defined
  called := t.called.foldl noteName s.called

theorem merge_empty (s : Summary) : s.merge empty = s := rfl

/-- A list of names that a node extends, in a merged summary. -/
theorem foldl_noteName_toList (names news : List String) (name? : Option String) :
    (name?.toList.foldl noteName news).foldl noteName names
      = name?.toList.foldl noteName (news.foldl noteName names) := by
  cases name? with
  | none => rfl
  | some name => exact foldl_noteName_noteName names news name

/-- A node that comes last in the second part comes last in the whole. -/
theorem merge_enter (s t : Summary) (label : Label) :
    s.merge (t.enter label) = (s.merge t).enter label := by
  have hcount : (s.merge (t.enter label)).nodeCount = ((s.merge t).enter label).nodeCount := by
    rw [nodeCount_enter, merge, nodeCount_enter]
    exact (Nat.add_assoc _ _ _).symm
  have hkinds : (s.merge (t.enter label)).nodeKinds = ((s.merge t).enter label).nodeKinds := by
    rw [nodeKinds_enter, merge, nodeKinds_enter]
    exact Table.bumpAll_entries_bump s.nodeKinds t.nodeKinds label.kind.name 1
  have hassigned : (s.merge (t.enter label)).assigned = ((s.merge t).enter label).assigned := by
    rw [assigned_enter, merge, assigned_enter]
    exact foldl_noteName_toList _ _ _
  have hdefined : (s.merge (t.enter label)).defined = ((s.merge t).enter label).defined := by
    rw [defined_enter, merge, defined_enter]
    exact foldl_noteName_toList _ _ _
  have hcalled : (s.merge (t.enter label)).called = ((s.merge t).enter label).called := by
    rw [called_enter, merge, called_enter]
    exact foldl_noteName_toList _ _ _
  exact Summary.mk.injEq .. |>.mpr ⟨hcount, hkinds, hassigned, hdefined, hcalled⟩

/-- **Entering labels is merging the summary that they have by themselves.** -/
theorem merge_foldl_enter (s t : Summary) (labels : List Label) :
    s.merge (labels.foldl enter t) = labels.foldl enter (s.merge t) := by
  induction labels generalizing t with
  | nil => rfl
  | cons label labels ih => rw [List.foldl_cons, ih, merge_enter, List.foldl_cons]

/-! ### Balance -/

/-- **The tally of the kinds sums to the number of nodes.** -/
def Balanced (s : Summary) : Prop :=
  s.nodeKinds.total = s.nodeCount

theorem balanced_empty : Balanced empty := rfl

theorem Balanced.enter (h : s.Balanced) (label : Label) : (s.enter label).Balanced := by
  unfold Balanced
  rw [nodeKinds_enter, Table.total_bump, nodeCount_enter, h]

/-- Entering labels keeps the balance. -/
theorem balanced_foldl_enter (h : s.Balanced) (labels : List Label) :
    (labels.foldl Summary.enter s).Balanced := by
  induction labels generalizing s with
  | nil => exact h
  | cons label labels ih => exact ih (h.enter label)

end Summary

end Treewalk
