import Formula.Binary64

/-!
# Decimals

* `Decimal`: the value `digits * 10 ^ exponent`.
* `Decimal.code`: the binary64 magnitude nearest to a decimal.
* `Decimal.exact`: the decimal that a finite magnitude is exactly equal to.
-/

namespace Formula

/-- The value `digits * 10 ^ exponent`. -/
structure Decimal where
  digits : Nat
  exponent : Int
  deriving DecidableEq

namespace Decimal

open Binary64

def num (d : Decimal) : Nat := d.digits * Nat.pow 10 d.exponent.toNat

def den (d : Decimal) : Nat := Nat.pow 10 (-d.exponent).toNat

/-- **The code of the binary64 magnitude nearest to the decimal.** The two outer cases are far out
of range, and settled without computing the power of ten. -/
def code (d : Decimal) : Nat :=
  if d.digits = 0 then 0
  else if 400 < d.exponent then infinityCode
  else if d.exponent < -(400 + d.digits.log2) then 0
  else nearestCode d.num d.den

/-- The decimal equal to a finite magnitude: `m / 2 ^ k` is `m * 5 ^ k / 10 ^ k`. -/
def exact (code : Nat) : Decimal :=
  let q := Binary64.exponent code
  ⟨significand code * Nat.pow 2 q.toNat * Nat.pow 5 (-q).toNat, min q 0⟩

end Decimal

end Formula
