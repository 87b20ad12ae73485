import Mathlib.Algebra.GroupWithZero.Nat
import Mathlib.Data.List.AList

/-!
# Association lists

What the tables of a program are asked besides the lookups after an update. A hash table yields its
keys in an order of its own, which is a parameter of the operations that depend on it.
-/

namespace Tables

abbrev Table (κ ν : Type) := AList fun _ : κ => ν

abbrev KeySet (κ : Type) := Table κ Unit

/-- The order in which a hash table happens to yield its keys. -/
structure IterOrder (κ : Type) where
  arrange : List κ → List κ
  perm : ∀ keys, (arrange keys).Perm keys

/-- The keys as they stand in the table. -/
def IterOrder.asStored (κ : Type) : IterOrder κ where
  arrange := id
  perm := .refl

theorem IterOrder.mem_arrange {κ : Type} (order : IterOrder κ) {keys : List κ} {key : κ} :
    key ∈ order.arrange keys ↔ key ∈ keys :=
  (order.perm keys).mem_iff

theorem IterOrder.nodup_arrange {κ : Type} (order : IterOrder κ) {keys : List κ} :
    (order.arrange keys).Nodup ↔ keys.Nodup :=
  (order.perm keys).nodup_iff

section Lookup

variable {κ ν : Type} [DecidableEq κ] (table : Table κ ν) (key other : κ) (value : ν)

theorem lookup_insert :
    (AList.insert key value table).lookup other = if other = key then some value
      else table.lookup other := by
  split
  · rename_i same
    rw [same]
    exact AList.lookup_insert table
  · rename_i different
    exact AList.lookup_insert_ne different

theorem lookup_erase :
    (table.erase key).lookup other = if other = key then none else table.lookup other := by
  split
  · rename_i same
    rw [same]
    exact AList.lookup_erase key table
  · rename_i different
    exact AList.lookup_erase_ne different

/-- What `get_mut` and an assignment do. -/
def modify (change : ν → ν) : Table κ ν :=
  match table.lookup key with
  | some value => table.insert key (change value)
  | none => table

theorem lookup_modify (change : ν → ν) :
    (modify table key change).lookup other =
      if other = key then (table.lookup key).map change else table.lookup other := by
  unfold modify
  cases found : table.lookup key with
  | none =>
    by_cases same : other = key
    · rw [if_pos same, same]
      exact found
    · rw [if_neg same]
  | some value => exact lookup_insert table key other (change value)

theorem map_lookup_modify {change : ν → ν} {ι : Type} {view : ν → ι}
    (keeps : ∀ value, view (change value) = view value) :
    ((modify table key change).lookup other).map view = (table.lookup other).map view := by
  rw [lookup_modify]
  split
  · rename_i same
    rw [same, Option.map_map]
    exact congrArg (fun f => Option.map f (table.lookup key)) (funext keeps)
  · rfl

/-- An insertion that may meet a row: `onConflict` says what becomes of it, if anything. The number
is that of the rows changed. -/
def upsert (onConflict : ν → Option ν) : Table κ ν × ℕ :=
  match table.lookup key with
  | none => (table.insert key value, 1)
  | some old =>
    match onConflict old with
    | some new => (table.insert key new, 1)
    | none => (table, 0)

theorem lookup_upsert (onConflict : ν → Option ν) :
    (upsert table key value onConflict).1.lookup other =
      if other = key then
        some (((table.lookup key).map fun old => (onConflict old).getD old).getD value)
      else table.lookup other := by
  unfold upsert
  cases found : table.lookup key with
  | none => exact lookup_insert table key other value
  | some old =>
    cases changed : onConflict old with
    | some new => simpa [changed] using lookup_insert table key other new
    | none =>
      by_cases same : other = key
      · subst same
        simp [found, changed]
      · simp [same, changed]

theorem mem_iff_lookup : key ∈ table ↔ ∃ value, table.lookup key = some value := by
  rw [← AList.lookup_isSome, Option.isSome_iff_exists]

end Lookup

end Tables

namespace AList

variable {α : Type*} {β : α → Type*} [DecidableEq α] {table : AList β} {key : α} {value : β key}

theorem perm_of_lookup (found : table.lookup key = some value) :
    table.entries.Perm (⟨key, value⟩ :: (table.erase key).entries) := by
  have member : key ∈ table.entries.keys := by
    apply lookup_isSome.mp
    rw [found]
    rfl
  rcases List.exists_of_kerase member with ⟨other, _, _, fresh, split, erased⟩
  have same : other = value := by
    have there : List.dlookup key table.entries = some value := found
    rw [split, List.dlookup_append, List.dlookup_eq_none.mpr fresh] at there
    simpa using there
  change table.entries.Perm (⟨key, value⟩ :: table.entries.kerase key)
  rw [erased, split, same]
  exact List.perm_middle

@[simp]
theorem lookup_singleton : (singleton key value).lookup key = some value :=
  List.dlookup_cons_eq [] key value

def count (p : Sigma β → Bool) (table : AList β) : ℕ :=
  (table.entries.filter p).length

variable (p : Sigma β → Bool)

theorem count_of_lookup (found : table.lookup key = some value) :
    table.count p = (table.erase key).count p + if p ⟨key, value⟩ then 1 else 0 := by
  have perm := ((perm_of_lookup found).filter p).length_eq
  rw [count, perm, List.filter_cons]
  split <;> simp [count]

theorem count_erase_le (table : AList β) (key : α) : (table.erase key).count p ≤ table.count p :=
  ((List.kerase_sublist key table.entries).filter p).length_le

theorem count_insert (table : AList β) (key : α) (value : β key) :
    (table.insert key value).count p =
      (table.erase key).count p + if p ⟨key, value⟩ then 1 else 0 := by
  rw [count, entries_insert, List.filter_cons]
  split
  · rfl
  · rfl

theorem erase_insert (table : AList β) (key : α) (value : β key) :
    (table.insert key value).erase key = table.erase key := by
  apply ext
  exact List.kerase_cons_eq rfl

theorem erase_of_lookup_none (absent : table.lookup key = none) : table.erase key = table := by
  apply ext
  exact List.kerase_of_notMem_keys (lookup_eq_none.mp absent)

theorem erase_singleton (key : α) (value : β key) : (singleton key value).erase key = ∅ := by
  rw [← insert_empty, erase_insert, erase_of_lookup_none (lookup_empty key)]

variable {γ : α → Type*}

/-- What is left of the entries when `f` says what becomes of each. -/
def filterMap (f : (key : α) → β key → Option (γ key)) (table : AList β) : AList γ where
  entries := table.entries.filterMap fun entry => (f entry.1 entry.2).map (Sigma.mk entry.1)
  nodupKeys := by
    apply List.Nodup.sublist _ table.nodupKeys
    rw [List.keys, List.keys, List.map_filterMap]
    induction table.entries with
    | nil => exact List.Sublist.refl _
    | cons entry _ ih =>
      rw [List.filterMap_cons]
      cases f entry.1 entry.2 with
      | none => exact ih.cons _
      | some => exact ih.cons_cons _

def retain (p : (key : α) → β key → Bool) (table : AList β) : AList β :=
  table.filterMap fun key value => if p key value then some value else none

@[simp]
theorem lookup_filterMap (f : (key : α) → β key → Option (γ key)) (table : AList β) (key : α) :
    (table.filterMap f).lookup key = (table.lookup key).bind (f key) := by
  cases table with
  | mk entries nodupKeys =>
    change List.dlookup key (entries.filterMap _) = (List.dlookup key entries).bind (f key)
    induction entries with
    | nil => rfl
    | cons entry entries ih =>
      have later := ih (List.nodupKeys_of_nodupKeys_cons nodupKeys)
      have fresh : entry.1 ∉ entries.keys := List.notMem_keys_of_nodupKeys_cons nodupKeys
      cases entry with
      | mk other value =>
        by_cases same : key = other
        · subst same
          rw [List.dlookup_cons_eq, Option.bind_some, List.filterMap_cons]
          cases kept : f key value with
          | none =>
            rw [Option.map_none]
            simp only [later]
            rw [List.dlookup_eq_none.mpr fresh]
            rfl
          | some =>
            exact List.dlookup_cons_eq _ _ _
        · rw [List.dlookup_cons_ne _ _ same, ← later, List.filterMap_cons]
          cases f other value with
          | none => rfl
          | some => exact List.dlookup_cons_ne _ _ same

@[simp]
theorem lookup_retain (p : (key : α) → β key → Bool) (table : AList β) (key : α) :
    (table.retain p).lookup key = (table.lookup key).filter (p key) := by
  rw [retain, lookup_filterMap]
  cases table.lookup key <;> rfl

def adjust (table : AList β) (key : α) (change : β key → β key) : AList β :=
  table.filterMap fun other value =>
    some (if same : other = key then same ▸ change (same ▸ value) else value)

theorem keys_adjust (table : AList β) (key : α) (change : β key → β key) :
    (table.adjust key change).keys = table.keys := by
  change (table.entries.filterMap _).map _ = table.entries.map _
  simp only [Option.map_some, List.filterMap_eq_map', List.map_map]
  rfl

theorem lookup_adjust_self (table : AList β) (key : α) (change : β key → β key) :
    (table.adjust key change).lookup key = (table.lookup key).map change := by
  rw [adjust, lookup_filterMap]
  cases table.lookup key <;> simp

theorem lookup_adjust_ne (table : AList β) {other : α} (change : β key → β key)
    (different : other ≠ key) : (table.adjust key change).lookup other = table.lookup other := by
  rw [adjust, lookup_filterMap]
  cases table.lookup other <;> simp [different]

theorem adjust_of_lookup_none {change : β key → β key} (absent : table.lookup key = none) :
    table.adjust key change = table := by
  apply ext
  refine (List.filterMap_congr fun entry present => ?_).trans List.filterMap_some
  have different : entry.1 ≠ key := fun same =>
    lookup_eq_none.mp absent (same ▸ List.mem_map_of_mem present)
  simp [different]

def total (weight : Sigma β → ℕ) (table : AList β) : ℕ :=
  (table.entries.map weight).sum

variable (weight : Sigma β → ℕ)

theorem total_of_lookup (found : table.lookup key = some value) :
    table.total weight = (table.erase key).total weight + weight ⟨key, value⟩ := by
  have perm := ((perm_of_lookup found).map weight).sum_nat
  rw [total, perm, List.map_cons, List.sum_cons, Nat.add_comm]
  rfl

theorem total_insert (table : AList β) (key : α) (value : β key) :
    (table.insert key value).total weight =
      (table.erase key).total weight + weight ⟨key, value⟩ := by
  rw [total, entries_insert, List.map_cons, List.sum_cons, Nat.add_comm]
  rfl

section

omit [DecidableEq α]

theorem length_keys (table : AList β) : table.keys.length = table.total fun _ => 1 := by
  simp [total, keys, List.keys]

theorem entries_retain (p : (key : α) → β key → Bool) (table : AList β) :
    (table.retain p).entries = table.entries.filter fun entry => p entry.1 entry.2 := by
  rw [← List.filterMap_eq_filter]
  apply List.filterMap_congr
  intro entry _
  by_cases kept : p entry.1 entry.2 = true <;> simp [kept, Option.guard]

theorem total_retain (p : (key : α) → β key → Bool) (table : AList β) :
    (table.retain p).total weight +
        ((table.entries.filter fun entry => !p entry.1 entry.2).map weight).sum =
      table.total weight := by
  rw [total, entries_retain, total]
  induction table.entries with
  | nil => rfl
  | cons entry _ ih =>
    rw [List.filter_cons, List.filter_cons, List.map_cons, List.sum_cons, ← ih]
    cases p entry.1 entry.2 <;> simp <;> omega

end

end AList
