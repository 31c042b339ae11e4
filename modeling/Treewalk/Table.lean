/-!
## Tables in order of arrival

A `Table` is a finite map that remembers the order in which its keys first arrived. Writing
to a key that is already there replaces the value where it stands; writing to a new key
adds a pair at the end. The records of the object graph, the two halves of an environment
and the tallies of a program summary are all tables. Their keys are strings, unless others
are given.

* `get?_insert`: reading after writing is as for a function `κ → Option α`.
* `contains_insert`: a write never unbinds another key.
* `get?_transport`, `transport_insert`: other keys in place of the given ones.
* `keys_insert_of_mem`, `keys_insert_of_notMem`: the keys keep their order of arrival.
-/

namespace Treewalk

universe u v

/-- A **table** from keys in `κ` to `α`, in the order in which the keys arrived. -/
structure Table (α : Type u) (κ : Type := String) where
  /-- The pairs, oldest key first. -/
  entries : List (κ × α) := []
deriving DecidableEq, Repr, Inhabited

namespace Table

variable {α : Type u} {β : Type v} {κ : Type}

/-- The table without any key. -/
def empty : Table α κ := ⟨[]⟩

/-- The keys, oldest first. -/
def keys (t : Table α κ) : List κ :=
  t.entries.map Prod.fst

/-- The same keys with every value mapped. -/
def map (f : α → β) (t : Table α κ) : Table β κ :=
  ⟨t.entries.map fun entry => (entry.1, f entry.2)⟩

/-- Other keys in place of the given ones, with every value mapped. -/
def transport {κ' : Type} (k : κ → κ') (f : α → β) (t : Table α κ) : Table β κ' :=
  ⟨t.entries.map fun entry => (k entry.1, f entry.2)⟩

variable [DecidableEq κ]

/-- Reading a list of pairs: the value of the first pair with the key. -/
def findEntry (key : κ) : List (κ × α) → Option α
  | [] => none
  | (k, value) :: rest => if key = k then some value else findEntry key rest

/-- The value stored under `key`, if there is one. -/
def get? (t : Table α κ) (key : κ) : Option α :=
  findEntry key t.entries

/-- Is something stored under `key`? -/
def contains (t : Table α κ) (key : κ) : Bool :=
  (t.get? key).isSome

/-- Writing to a list of pairs: the first pair with the key is replaced where it
stands, and a new key goes to the end. -/
def insertEntry (key : κ) (value : α) : List (κ × α) → List (κ × α)
  | [] => [(key, value)]
  | (k, old) :: rest =>
    if key = k then (key, value) :: rest else (k, old) :: insertEntry key value rest

/-- The table with `value` stored under `key`. -/
def insert (t : Table α κ) (key : κ) (value : α) : Table α κ :=
  ⟨insertEntry key value t.entries⟩

/-- The table that holds the given pairs; of two pairs with one key the later one wins. -/
def ofList (pairs : List (κ × α)) : Table α κ :=
  pairs.foldl (fun t pair => t.insert pair.1 pair.2) empty

/-! ### Reading after writing -/

/-- The pair list reads back what was written, and nothing else has changed. -/
theorem findEntry_insertEntry (key other : κ) (value : α) (entries : List (κ × α)) :
    findEntry other (insertEntry key value entries)
      = if other = key then some value else findEntry other entries := by
  induction entries with
  | nil => simp [insertEntry, findEntry]
  | cons entry rest ih =>
    obtain ⟨k, old⟩ := entry
    by_cases hk : key = k
    · -- The write lands here: the pair keeps its place and changes its value.
      subst hk
      by_cases h : other = key <;> simp [insertEntry, findEntry, h]
    · -- The write lands further on.
      by_cases h : other = k
      · subst h
        simp [insertEntry, findEntry, hk, Ne.symm hk]
      · simp [insertEntry, findEntry, hk, h, ih]

/-- **A write changes what is read under its own key, and only that.** -/
@[grind =]
theorem get?_insert (t : Table α κ) (key other : κ) (value : α) :
    (t.insert key value).get? other = if other = key then some value else t.get? other :=
  findEntry_insertEntry key other value t.entries

@[simp]
theorem get?_insert_self (t : Table α κ) (key : κ) (value : α) :
    (t.insert key value).get? key = some value := by
  simp [get?_insert]

/-- A key is bound after a write exactly when it was bound before or has just been written. -/
theorem contains_insert (t : Table α κ) (key other : κ) (value : α) :
    (t.insert key value).contains other = (other == key || t.contains other) := by
  by_cases h : other = key <;> simp [contains, get?_insert, h]

/-- Mapping all values maps the value under a key. -/
theorem get?_map (f : α → β) (t : Table α κ) (key : κ) :
    (t.map f).get? key = (t.get? key).map f := by
  obtain ⟨entries⟩ := t
  simp only [map, get?]
  induction entries with
  | nil => rfl
  | cons entry rest ih =>
    by_cases hk : key = entry.1 <;> simp [findEntry, hk, ih]

/-! ### Other keys -/

section transport

variable {κ' : Type} [DecidableEq κ'] {k : κ → κ'} (hk : Function.Injective k) (f : α → β)
include hk

theorem findEntry_transport (key : κ) (entries : List (κ × α)) :
    findEntry (k key) (entries.map fun entry => (k entry.1, f entry.2))
      = (findEntry key entries).map f := by
  induction entries with
  | nil => rfl
  | cons entry rest ih =>
    by_cases h : key = entry.1
    · simp [findEntry, h]
    · have hne : k key ≠ k entry.1 := fun heq => h (hk heq)
      simp [findEntry, h, hne, ih]

theorem insertEntry_transport (key : κ) (value : α) (entries : List (κ × α)) :
    insertEntry (k key) (f value) (entries.map fun entry => (k entry.1, f entry.2))
      = (insertEntry key value entries).map fun entry => (k entry.1, f entry.2) := by
  induction entries with
  | nil => rfl
  | cons entry rest ih =>
    by_cases h : key = entry.1
    · simp [insertEntry, h]
    · have hne : k key ≠ k entry.1 := fun heq => h (hk heq)
      simp [insertEntry, h, hne, ih]

/-- Keys that differ are found under what they have become. -/
theorem get?_transport (t : Table α κ) (key : κ) :
    (t.transport k f).get? (k key) = (t.get? key).map f :=
  findEntry_transport hk f key t.entries

/-- Writing before and after the change of keys is the same. -/
theorem transport_insert (t : Table α κ) (key : κ) (value : α) :
    (t.insert key value).transport k f = (t.transport k f).insert (k key) (f value) :=
  congrArg Table.mk (insertEntry_transport hk f key value t.entries).symm

omit hk [DecidableEq κ] in
/-- Nothing is found under a key that no key has become. -/
theorem get?_transport_of_notMem (t : Table α κ) {other : κ'} (hother : ∀ key, k key ≠ other) :
    (t.transport k f).get? other = none := by
  obtain ⟨entries⟩ := t
  simp only [transport, get?]
  induction entries with
  | nil => rfl
  | cons entry rest ih => simp [findEntry, Ne.symm (hother entry.1), ih]

end transport

/-! ### The order of the keys -/

/-- A key is bound exactly when it is listed. -/
theorem contains_iff_mem_keys (t : Table α κ) (key : κ) :
    t.contains key = true ↔ key ∈ t.keys := by
  obtain ⟨entries⟩ := t
  induction entries with
  | nil => simp [contains, get?, keys, findEntry]
  | cons entry rest ih =>
    obtain ⟨k, old⟩ := entry
    simp only [contains, get?, keys] at ih ⊢
    by_cases h : key = k <;> simp [findEntry, h, ih]

/-- Writing to a bound key leaves the list of keys as it is. -/
theorem keys_insert_of_mem (t : Table α κ) {key : κ} (value : α) (h : key ∈ t.keys) :
    (t.insert key value).keys = t.keys := by
  obtain ⟨entries⟩ := t
  simp only [keys, insert] at h ⊢
  induction entries with
  | nil => simp at h
  | cons entry rest ih =>
    obtain ⟨k, old⟩ := entry
    by_cases hk : key = k
    · simp [insertEntry, hk]
    · have hrest : key ∈ rest.map Prod.fst := by simpa [hk] using h
      simp [insertEntry, hk, ih hrest]

/-- A new key goes to the end of the list of keys. -/
theorem keys_insert_of_notMem (t : Table α κ) {key : κ} (value : α) (h : key ∉ t.keys) :
    (t.insert key value).keys = t.keys ++ [key] := by
  obtain ⟨entries⟩ := t
  simp only [keys, insert] at h ⊢
  induction entries with
  | nil => simp [insertEntry]
  | cons entry rest ih =>
    obtain ⟨k, old⟩ := entry
    have hk : key ≠ k := by rintro rfl; simp at h
    have hrest : key ∉ rest.map Prod.fst := fun hmem => h (by simp [hmem])
    simp [insertEntry, hk, ih hrest]

end Table

end Treewalk
