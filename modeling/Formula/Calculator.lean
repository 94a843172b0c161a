import Formula.Expr.Read
import Formula.Recent

/-!
# The calculator

A calculator reads and evaluates formulas, and keeps the trees of those used most recently. A
formula that is still kept gets the very tree it got before.

* `Reading`: a tree, with a number that tells it from all others the calculator has made.
* `Parallel`, `LawfulParallel`: how the same work is done on all elements of a list.
* `Calculator.read`, `Calculator.evaluate`, `Calculator.evaluateAll`: the answer, and the calculator
  afterwards.
-/

namespace Formula

/-- A tree made by a calculator. Readings with the same serial number are one and the same. -/
structure Reading where
  serial : Nat
  expr : Expr

/-! ## Work on many values -/

/-- A way to apply a function to all elements of a list, be it to one after the other or to several
at once. -/
class Parallel where
  map {α β : Type} (f : α → β) (xs : List α) : List β

/-- The results are in the order of the elements. -/
class LawfulParallel [Parallel] : Prop where
  getElem?_map {α β : Type} (f : α → β) (xs : List α) (i : Nat) :
    (Parallel.map f xs)[i]? = xs[i]?.map f

instance : Parallel where
  map f xs := xs.map f

instance : LawfulParallel where
  getElem?_map _ _ _ := List.getElem?_map ..

/-! ## Calculators -/

/-- A calculator, with the readings it keeps in a store of type `σ`. -/
structure Calculator (σ : Type := Recent String Reading) where
  /-- The readings of the formulas used most recently. -/
  recent : σ
  /-- How many readings have been made, which is the next serial number. -/
  made : Nat := 0

namespace Calculator

variable {σ : Type} [Store σ String Reading]

/-- A calculator that keeps so many readings, and one at least. -/
def ofCapacity (capacity : Nat) : Calculator σ :=
  { recent := Store.ofCapacity (max capacity 1) }

/-- A calculator that keeps a hundred readings. -/
def standard : Calculator σ :=
  ofCapacity 100

def size (c : Calculator σ) : Nat :=
  Store.size c.recent

def clear (c : Calculator σ) : Calculator σ :=
  { c with recent := Store.clear c.recent }

/-- **The reading of a formula**: the one that is kept, or a new one. Only a formula that can be
read is kept. -/
def read (c : Calculator σ) (text : String) : Except ReadError Reading × Calculator σ :=
  match Store.use c.recent text with
  | (some reading, recent) => (.ok reading, ⟨recent, c.made⟩)
  | (none, recent) =>
    match Expr.read text with
    | .error e => (.error e, ⟨recent, c.made⟩)
    | .ok expr =>
      let reading : Reading := ⟨c.made, expr⟩
      (.ok reading, ⟨Store.insert recent text reading, c.made + 1⟩)

def evaluate (c : Calculator σ) (text : String) (values : Values) :
    Except Failure Float × Calculator σ :=
  match c.read text with
  | (.error e, c) => (.error (.read e), c)
  | (.ok reading, c) => ((reading.expr.eval values).mapError .eval, c)

/-- The values of one formula where its names stand for different values, in the same order. -/
def evaluateAll [Parallel] (c : Calculator σ) (text : String) (cases : List Values) :
    Except ReadError (List (Except EvalError Float)) × Calculator σ :=
  match c.read text with
  | (.error e, c) => (.error e, c)
  | (.ok reading, c) => (.ok (Parallel.map reading.expr.eval cases), c)

end Calculator

end Formula
