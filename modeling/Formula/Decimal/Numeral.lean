import Formula.Decimal.Shortest

/-!
# Numerals

* `Decimal.positional`: a decimal written out, with a point where it is needed and no exponent.
* `Numeral.write`: the text of a float, which is the shortest decimal that reads back as it.
* `Numeral.read?`: the float that a text stands for, correctly rounded.
-/

namespace Formula

/-- The digits of the decimal in their places, with zeros filled in up to the point. -/
def Decimal.positional (d : Decimal) : List Char :=
  let digits := Nat.toDigits 10 d.digits
  let places := (-d.exponent).toNat
  if places = 0 then digits ++ List.replicate d.exponent.toNat '0'
  else if places < digits.length then
    digits.take (digits.length - places) ++ '.' :: digits.drop (digits.length - places)
  else '0' :: '.' :: List.replicate (places - digits.length) '0' ++ digits

namespace Numeral

open Binary64

/-- Weight of the sign bit. -/
def signWeight : Nat := Nat.pow 2 63

/-- Whether the sign bit is set. -/
def isSigned (x : Float) : Bool := signWeight ≤ x.toBits.toNat

/-- The bits of the float below the sign bit. -/
def magnitudeCode (x : Float) : Nat := x.toBits.toNat % signWeight

/-- The float with the given sign bit and magnitude. -/
def ofMagnitude (signed : Bool) (code : Nat) : Float :=
  Float.ofBits (UInt64.ofNat (if signed then signWeight + code else code))

/-! ## Writing -/

/-- The text of a magnitude, which may be infinite. -/
def writeMagnitude (code : Nat) : List Char :=
  if code < infinityCode then (Decimal.shortest code).positional else ['i', 'n', 'f']

/-- **The text of a float**: a minus sign if the sign bit is set, and the fewest digits that read
back as it, in their places. What is no number has no sign. -/
def writeChars (x : Float) : List Char :=
  if x.isNaN then ['N', 'a', 'N']
  else if isSigned x then '-' :: writeMagnitude (magnitudeCode x)
  else writeMagnitude (magnitudeCode x)

def write (x : Float) : String :=
  String.ofList (writeChars x)

/-! ## Reading -/

/-- The power of ten after an `e`: an optional sign and digits, up to the end of the text. -/
def readPower? (cs : List Char) : Option Int :=
  match cs with
  | '-' :: digits => (natural? digits).map fun n => -(n : Int)
  | '+' :: digits => (natural? digits).map fun n => (n : Int)
  | digits => (natural? digits).map fun n => (n : Int)
where
  /-- One or more digits. -/
  natural? (digits : List Char) : Option Nat :=
    if digits ≠ [] ∧ digits.all Char.isDigit then some (Nat.ofDigitChars 10 digits 0) else none

/-- What may follow the digits of a numeral: nothing, or `e` and a power of ten. -/
def readScale? : List Char → Option Int
  | [] => some 0
  | c :: rest => if c = 'e' ∨ c = 'E' then readPower? rest else none

/-- The digits behind the point, if there is one, and what follows them. -/
def readFraction : List Char → List Char × List Char
  | '.' :: rest => rest.span Char.isDigit
  | rest => ([], rest)

/-- Digits with at most one point among or around them, then an optional power of ten. -/
def readDecimal? (cs : List Char) : Option Decimal :=
  let (whole, rest) := cs.span Char.isDigit
  let (fraction, rest) := readFraction rest
  if whole ++ fraction = [] then none
  else
    (readScale? rest).map fun scale =>
      ⟨Nat.ofDigitChars 10 (whole ++ fraction) 0, scale - fraction.length⟩

/-- The magnitude that an unsigned text stands for: a decimal, or a word for infinity or for no
number, in letters of either case. -/
def readMagnitude? (cs : List Char) : Option Nat :=
  match cs.map Char.toLower with
  | ['i', 'n', 'f'] => some infinityCode
  | ['i', 'n', 'f', 'i', 'n', 'i', 't', 'y'] => some infinityCode
  | ['n', 'a', 'n'] => some (infinityCode + binade / 2)
  | _ => (readDecimal? cs).map Decimal.code

/-- The float that the characters stand for, with an optional sign in front. -/
def readChars? (cs : List Char) : Option Float :=
  match cs with
  | '-' :: rest => (readMagnitude? rest).map (ofMagnitude true)
  | '+' :: rest => (readMagnitude? rest).map (ofMagnitude false)
  | rest => (readMagnitude? rest).map (ofMagnitude false)

/-- **The float nearest to what the text stands for**, or nothing if it is no numeral. -/
def read? (text : String) : Option Float :=
  readChars? text.toList

/-- The float a text stands for, if it is a finite one. -/
def readFinite? (text : String) : Option Float :=
  (read? text).filter Float.isFinite

theorem readFinite?_eq_some_iff {text : String} {x : Float} :
    readFinite? text = some x ↔ read? text = some x ∧ x.isFinite = true :=
  Option.filter_eq_some_iff

/-! ## Written, then read -/

example : (read? "0.1").map write = some "0.1" := by decide +kernel

example : (read? "-1e21").map write = some "-1000000000000000000000" := by decide +kernel

example : (read? "+.5e-7").map write = some "0.00000005" := by decide +kernel

example : readFinite? "1e400" = none := by decide +kernel

end Numeral

end Formula
