import Formula.Store

/-!
# Recent entries

A store that is a list of its entries, in the order of their last use.

* `Recent`: the entries, and how many there may be.
* `Recent.use`: a key is looked up, which is a use of its entry.
* `Recent.insert`: an entry is put in, and the oldest one forgotten if there is no room.
* **`LawfulStore (Recent κ ν)`**: it is a store.
-/

namespace Formula

/-- The entries used most recently, at most `capacity` of them. -/
structure Recent (κ ν : Type) where
  capacity : Nat
  /-- Keys and their values, the one used last first. -/
  entries : List (κ × ν) := []

namespace Recent

variable {κ ν : Type} [DecidableEq κ]

def size (store : Recent κ ν) : Nat :=
  store.entries.length

/-- The entries other than that of the key. -/
def others (store : Recent κ ν) (key : κ) : List (κ × ν) :=
  store.entries.filter (·.1 ≠ key)

/-- The value of the key, and the store with the key as the one used last. -/
def use (store : Recent κ ν) (key : κ) : Option ν × Recent κ ν :=
  match store.entries.lookup key with
  | some value => (some value, { store with entries := (key, value) :: store.others key })
  | none => (none, store)

/-- The store with the entry as the one used last. -/
def insert (store : Recent κ ν) (key : κ) (value : ν) : Recent κ ν :=
  { store with entries := ((key, value) :: store.others key).take store.capacity }

def clear (store : Recent κ ν) : Recent κ ν :=
  { store with entries := [] }

instance : Store (Recent κ ν) κ ν where
  ofCapacity capacity := { capacity }
  use := use
  insert := insert
  clear := clear
  size := size
  capacity := capacity
  entries := entries

/-! ## The order of the entries -/

theorem use_of_some {store : Recent κ ν} {key : κ} {value : ν}
    (h : store.entries.lookup key = some value) :
    store.use key = (some value, { store with entries := (key, value) :: store.others key }) := by
  rw [use, h]

theorem use_of_none {store : Recent κ ν} {key : κ} (h : store.entries.lookup key = none) :
    store.use key = (none, store) := by
  rw [use, h]

/-- A key with no entry is not among the entries, so all of them are others. -/
theorem others_of_none {store : Recent κ ν} {key : κ} (h : store.entries.lookup key = none) :
    store.others key = store.entries := by
  rw [List.lookup_eq_none_iff] at h
  refine List.filter_eq_self.2 fun entry hmem => ?_
  have hne : key ≠ entry.1 := by simpa using h entry hmem
  exact decide_eq_true hne.symm

instance : LawfulStore (Recent κ ν) where
  entries_ofCapacity _ := rfl
  capacity_ofCapacity _ := rfl
  use_fst store key := by
    change (store.use key).1 = store.entries.lookup key
    cases h : store.entries.lookup key with
    | some value => rw [use_of_some h]
    | none => rw [use_of_none h]
  entries_use_of_some {store key value} h := by
    change (store.use key).2.entries = _
    rw [use_of_some h]
    rfl
  entries_use_of_none {store key} h := by
    change (store.use key).2.entries = _
    rw [use_of_none h]
    rfl
  capacity_use store key := by
    change (store.use key).2.capacity = store.capacity
    cases h : store.entries.lookup key with
    | some value => rw [use_of_some h]
    | none => rw [use_of_none h]
  entries_insert_of_none {store key} h value := by
    change ((key, value) :: store.others key).take store.capacity = _
    rw [others_of_none h]
    rfl
  capacity_insert _ _ _ := rfl
  entries_clear _ := rfl
  capacity_clear _ := rfl
  size_eq _ := rfl

end Recent

end Formula
