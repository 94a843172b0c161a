/-!
# Binary64 magnitudes

The magnitude of a binary64 number is coded by its lower 63 bits, read as a natural number. Codes
below `infinityCode` are finite, and their values grow with the code.

* `binade`: the number of codes that share an exponent.
* `significand`, `exponent`: the code `n` stands for `significand n * 2 ^ exponent n`.
* `nearestCode num den`: the code of the value nearest to `num / den`, a half going to the even
  significand; a quotient too large for the format gives `infinityCode`.
-/

namespace Formula.Binary64

/-- The number of codes that share an exponent: significands have 52 bits behind the leading one. -/
def binade : Nat := Nat.pow 2 52

/-- The code of infinity; smaller codes are finite. -/
def infinityCode : Nat := 2047 * binade

/-- The significand of a finite code, with the leading bit that a normal number leaves out. -/
def significand (code : Nat) : Nat :=
  if code < binade then code else binade + code % binade

/-- The exponent of a finite code. Subnormal numbers share that of the smallest normal ones. -/
def exponent (code : Nat) : Int :=
  ((max (code / binade) 1 : Nat) : Int) - 1075

/-- The natural number nearest to `num / den`, a half going to the even one. -/
def roundQuotient (num den : Nat) : Nat :=
  let quotient := num / den
  let twice := 2 * (num % den)
  if twice < den then quotient
  else if den < twice then quotient + 1
  else quotient + quotient % 2

/-- The exponent of the largest power of two that is at most `num / den`. -/
def floorLog2 (num den : Nat) : Int :=
  let guess : Int := num.log2 - den.log2
  if num * Nat.pow 2 (-guess).toNat < den * Nat.pow 2 guess.toNat then guess - 1 else guess

/-- **The code of the value nearest to `num / den`.** The significand keeps 53 bits, or fewer where
the smallest exponent is reached; one that rounds up to `2 ^ 53` is the next code all the same. -/
def nearestCode (num den : Nat) : Nat :=
  if num = 0 then 0
  else
    let unit := max (floorLog2 num den - 52) (-1074)
    let rounded := roundQuotient (num * Nat.pow 2 (-unit).toNat) (den * Nat.pow 2 unit.toNat)
    min (rounded + (unit + 1074).toNat * binade) infinityCode

end Formula.Binary64
