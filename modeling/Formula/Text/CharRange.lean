/-!
# Ranges of characters

A class of characters is written down as a list of ranges of code points.

* `CharRange`: the characters with code points from `first` to `last`, both included.
* `CharRange.covers`: whether a list of ranges covers a character.
-/

namespace Formula

/-- The characters with code points from `first` to `last`, both included. -/
structure CharRange where
  first : Nat
  last : Nat
  deriving DecidableEq

namespace CharRange

def contains (range : CharRange) (c : Char) : Bool :=
  range.first ≤ c.toNat && c.toNat ≤ range.last

/-- Whether one of the ranges has the character in it. -/
def covers (ranges : List CharRange) (c : Char) : Bool :=
  ranges.any (·.contains c)

theorem covers_eq_true_iff {ranges : List CharRange} {c : Char} :
    covers ranges c = true ↔ ∃ range ∈ ranges, range.first ≤ c.toNat ∧ c.toNat ≤ range.last := by
  simp [covers, contains]

end CharRange

end Formula
