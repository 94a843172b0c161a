/-!
# Stores

A store keeps values under keys, and has room for a bounded number of them. When there is no room,
the entry is forgotten that has not been used for longest.

* `Store`: what can be done with a store, and what can be seen of it.
* **`LawfulStore`**: which entries are in it, and in which order.
-/

namespace Formula

/-- A store of values of type `ν` under keys of type `κ`. -/
class Store (σ : Type) (κ ν : outParam Type) where
  /-- A store with room for so many entries, and none in it. -/
  ofCapacity (capacity : Nat) : σ
  /-- The value of the key, and the store after this use of it. -/
  use (store : σ) (key : κ) : Option ν × σ
  /-- The store with one more entry. -/
  insert (store : σ) (key : κ) (value : ν) : σ
  /-- The store without its entries. -/
  clear (store : σ) : σ
  /-- The number of entries. -/
  size (store : σ) : Nat
  /-- The number of entries there is room for. -/
  capacity (store : σ) : Nat
  /-- Keys and their values, the one used last first. -/
  entries (store : σ) : List (κ × ν)

open Store

/-- **The entries are in the order of their last use.** A use of a key brings its entry to the
front. A new entry comes in front, and the last one goes if there is no room. -/
class LawfulStore (σ : Type) {κ ν : outParam Type} [DecidableEq κ] [Store σ κ ν] : Prop where
  entries_ofCapacity {n : Nat} (h : 0 < n) : entries (ofCapacity n : σ) = []
  capacity_ofCapacity {n : Nat} (h : 0 < n) : capacity (ofCapacity n : σ) = n
  use_fst (store : σ) (key : κ) : (use store key).1 = (entries store).lookup key
  entries_use_of_some {store : σ} {key : κ} {value : ν}
    (h : (entries store).lookup key = some value) :
    entries (use store key).2 = (key, value) :: (entries store).filter (·.1 ≠ key)
  entries_use_of_none {store : σ} {key : κ} (h : (entries store).lookup key = none) :
    entries (use store key).2 = entries store
  capacity_use (store : σ) (key : κ) : capacity (use store key).2 = capacity store
  entries_insert_of_none {store : σ} {key : κ} (h : (entries store).lookup key = none) (value : ν) :
    entries (insert store key value) = ((key, value) :: entries store).take (capacity store)
  capacity_insert (store : σ) (key : κ) (value : ν) :
    capacity (insert store key value) = capacity store
  entries_clear (store : σ) : entries (clear store) = []
  capacity_clear (store : σ) : capacity (clear store) = capacity store
  size_eq (store : σ) : size store = (entries store).length

end Formula
