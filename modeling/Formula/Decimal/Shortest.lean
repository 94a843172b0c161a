import Formula.Decimal

/-!
# The shortest decimal

Among the decimals that round to a magnitude, the shortest one has the fewest digits, and of those
with the fewest it is the nearest.

* `neighbour?`: on the grid of the multiples of `10 ^ p`, the one of the two neighbours of a
  magnitude that rounds back to it, and the nearer one if both do.
* `shortest`: the neighbour on the coarsest grid that has one.
-/

namespace Formula.Decimal

open Binary64

/-- The largest multiple of `10 ^ p` that is at most `d`, in units of `10 ^ p`. -/
def floorOnGrid (d : Decimal) (p : Int) : Nat :=
  d.num * Nat.pow 10 (-p).toNat / (d.den * Nat.pow 10 p.toNat)

/-- Whether `d` is nearer to `lower * 10 ^ p` than to `(lower + 1) * 10 ^ p`. -/
def isNearerBelow (d : Decimal) (p : Int) (lower : Nat) : Bool :=
  2 * (d.num * Nat.pow 10 (-p).toNat) < (2 * lower + 1) * (d.den * Nat.pow 10 p.toNat)

/-- Of the two multiples of `10 ^ p` around the magnitude, the one that rounds back to it. If both
do it is the nearer one, and half way between them the greater. -/
def neighbour? (code : Nat) (p : Int) : Option Decimal :=
  let lower := floorOnGrid (exact code) p
  let below : Decimal := ⟨lower, p⟩
  let above : Decimal := ⟨lower + 1, p⟩
  match below.code == code, above.code == code with
  | true, true => some (if isNearerBelow (exact code) p lower then below else above)
  | true, false => some below
  | false, true => some above
  | false, false => none

/-- Walks from the grid of `10 ^ p` to finer ones. Seventeen digits always read back, so the exact
value at the end is not reached from a start near the leading digit. -/
def shortestFrom (code : Nat) : Nat → Int → Decimal
  | 0, _ => exact code
  | grids + 1, p =>
    match neighbour? code p with
    | some d => d
    | none => shortestFrom code grids (p - 1)

/-- The exponent of a power of ten that is above the magnitude, and at most two places above its
leading digit. -/
def leadingPower (code : Nat) : Int :=
  (Binary64.exponent code + (significand code).log2 + 1) * 30103 / 100000 + 1

/-- **The shortest decimal that rounds to a finite magnitude.** -/
def shortest (code : Nat) : Decimal :=
  if code = 0 then ⟨0, 0⟩ else shortestFrom code 21 (leadingPower code)

/-- Half way between two decimals of the fewest digits the greater one is taken. This is `2 ^ -25`.
-/
example : shortest (0x3E6 * binade) = ⟨29802322387695313, -24⟩ := by decide +kernel

/-- The least magnitude of all needs one digit. -/
example : shortest 1 = ⟨5, -324⟩ := by decide +kernel

theorem code_neighbour? {code : Nat} {p : Int} {d : Decimal} (h : neighbour? code p = some d) :
    d.code = code := by
  simp only [neighbour?] at h
  split at h <;> grind

end Formula.Decimal
