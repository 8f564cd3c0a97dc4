/-!
# Binary floating-point numbers of 64 bits

A finite number is a sign and a significand below two to the 53rd, times a power of two.  A decimal
is read as the nearest such number; of two equally near ones the one with the even significand is
taken.
-/

namespace GossipGames

inductive Binary64 where
  | nan
  | infinite (negative : Bool)
  | finite (negative : Bool) (significand : Nat) (exponent : Int)
deriving DecidableEq

def digitCount (n : Nat) : Nat :=
  (Nat.toDigits 10 n).length

def scale (base : Nat) (exponent : Int) (num den : Nat) : Nat × Nat :=
  if 0 ≤ exponent then (num * Nat.pow base exponent.toNat, den)
  else (num, den * Nat.pow base (-exponent).toNat)

/-- The natural number nearest to a fraction, the even one of two. -/
def roundDiv (num den : Nat) : Nat :=
  let q := num / den
  let r := num % den
  if 2 * r < den then q
  else if den < 2 * r then q + 1
  else q + q % 2

namespace Binary64

def precision : Nat :=
  53

def significandBound : Nat :=
  Nat.pow 2 precision

def minExponent : Int :=
  -1074

def maxExponent : Int :=
  971

def ofFraction (negative : Bool) (num den : Nat) : Binary64 :=
  let low := max (Int.ofNat num.log2 - Int.ofNat den.log2 - precision) minExponent
  let (n, d) := scale 2 (-low) num den
  let exponent := if n / d < significandBound then low else low + 1
  let (n, d) := scale 2 (-exponent) num den
  let m := roundDiv n d
  let (m, exponent) := if m = significandBound then (m / 2, exponent + 1) else (m, exponent)
  if exponent ≤ maxExponent then finite negative m exponent else infinite negative

/-- The number nearest to `digits` times a power of ten.  Beyond 310 places before the point every
number is infinite, and beyond 330 places after it every number is zero. -/
def ofDecimal (negative : Bool) (digits : Nat) (exponent : Int) : Binary64 :=
  let places := Int.ofNat (digitCount digits) + exponent
  if digits = 0 ∨ places < -330 then finite negative 0 minExponent
  else if 310 < places then infinite negative
  else
    let (num, den) := scale 10 exponent digits 1
    ofFraction negative num den

/-!
# The fewest digits

The decimals that read back to a number fill the interval between the middles to its neighbours; the
ends belong to it when the significand is even.  Of the decimals with the fewest digits in the
interval the nearest to the number is chosen, and of two equally near ones the greater.
-/

/-- The bounds of the interval around a significand, in quarters of its unit. -/
def bounds (m : Nat) (exponent : Int) : Nat × Nat :=
  (if 2 * m = significandBound ∧ minExponent < exponent then 4 * m - 1 else 4 * m - 2, 4 * m + 2)

def readsBack (m : Nat) (exponent : Int) (digits : Nat) (power : Int) : Bool :=
  let (low, high) := bounds m exponent
  let (lowNum, lowDen) := scale 2 (exponent - 2) low 1
  let (highNum, highDen) := scale 2 (exponent - 2) high 1
  let (num, den) := scale 10 power digits 1
  if m % 2 = 0 then
    decide (lowNum * den ≤ num * lowDen) && decide (num * highDen ≤ highNum * den)
  else
    decide (lowNum * den < num * lowDen) && decide (num * highDen < highNum * den)

/-- The number of places before the decimal point; negative when zeros follow the point. -/
def places (m : Nat) (exponent : Int) : Int :=
  let (num, den) := scale 2 exponent m 1
  Int.ofNat (digitCount (num * Nat.pow 10 400 / den)) - 400

/-- The nearest decimal of `count` digits that reads back, with its power of ten. -/
def candidate? (m : Nat) (exponent : Int) (count : Nat) : Option (Nat × Int) :=
  let power := places m exponent - count
  let (num, den) := scale 2 exponent m 1
  let (num, den) := scale 10 (-power) num den
  let below := num / den
  let above := below + 1
  let roundedUp := if above = Nat.pow 10 count then (1, power + count) else (above, power)
  match readsBack m exponent below power, readsBack m exponent above power with
  | true, true =>
      if 2 * (num % den) < den then some (below, power) else some roundedUp
  | true, false => some (below, power)
  | false, true => some roundedUp
  | false, false => none

def shortest (m : Nat) (exponent : Int) : Nat × Int :=
  ((List.range 17).findSome? fun i => candidate? m exponent (i + 1)).getD (m, 0)

def positional (digits : Nat) (power : Int) : String :=
  let ds := Nat.toDigits 10 digits
  let point := Int.ofNat ds.length + power
  if 0 ≤ power then String.ofList (ds ++ List.replicate power.toNat '0') ++ ".0"
  else if 0 < point then
    String.ofList (ds.take point.toNat) ++ "." ++ String.ofList (ds.drop point.toNat)
  else "0." ++ String.ofList (List.replicate (-point).toNat '0' ++ ds)

def text : Binary64 → String
  | nan => "NaN"
  | infinite negative => if negative then "-inf" else "inf"
  | finite negative m exponent =>
      (if negative then "-" else "") ++
        if m = 0 then "0.0"
        else
          let (digits, power) := shortest m exponent
          positional digits power

end Binary64
end GossipGames
