import QueryPlan.Number.Double

/-!
# The shortest decimal of a double

A finite double stands for all reals that round to it. Its text is the decimal with the
fewest digits among these, and of those the one nearest to the exact value.

Fewest digits means coarsest grid: among the multiples of a power of ten the two
neighbours of the exact value are tried, first for the greatest power of ten, then for
ever smaller ones, and the first grid with a hit decides. Halfway between two hits the
upper one is taken. A finite double is itself a multiple of `10 ^ (-1074)`, so there is
always a hit. All comparisons are exact, between natural numbers.

The text is positional at every size: no exponent is ever written, and a whole number
has no decimal point.
-/

namespace QueryPlan

/-- The size of a finite double, `mantissa * 2 ^ exponent`. -/
structure Magnitude where
  mantissa : Nat
  exponent : Int
  /-- The gap to the double below is half the gap to the double above. -/
  narrowBelow : Bool
  deriving DecidableEq

/-- A decimal, `digits * 10 ^ exponent`. -/
structure Decimal where
  digits : Nat
  exponent : Int
  deriving DecidableEq

namespace Magnitude

/-- The size of a finite double. -/
def ofDouble (x : Double) : Magnitude :=
  if x.exponentBits == 0 then ⟨x.fractionBits, -1074, false⟩
  else ⟨Nat.pow 2 52 + x.fractionBits, (x.exponentBits : Int) - 1075,
    x.fractionBits == 0 && x.exponentBits > 1⟩

/-- Compares `quarters * 2 ^ (exponent - 2)`, a point measured in quarters of the last
place, with the multiple `n * 10 ^ g` of a grid. -/
def compareQuarters (x : Magnitude) (quarters : Nat) (n : Nat) (g : Int) : Ordering :=
  let e := x.exponent - 2
  compare (quarters * Nat.pow 2 e.toNat * Nat.pow 10 (-g).toNat)
    (n * Nat.pow 2 (-e).toNat * Nat.pow 10 g.toNat)

/-- The multiple `n * 10 ^ g` rounds to this value. The reals that do form an interval
from halfway to the double below to halfway to the double above, and its ends belong to
it exactly when the mantissa is even. -/
def readsBack (x : Magnitude) (n : Nat) (g : Int) : Bool :=
  let low := x.compareQuarters (4 * x.mantissa - if x.narrowBelow then 1 else 2) n g
  let high := x.compareQuarters (4 * x.mantissa + 2) n g
  let closed := x.mantissa % 2 == 0
  (low == .lt || closed && low == .eq) && (high == .gt || closed && high == .eq)

/-- The greatest multiple of `10 ^ g` that is not above the value. -/
def floorOn (x : Magnitude) (g : Int) : Nat :=
  x.mantissa * Nat.pow 2 x.exponent.toNat * Nat.pow 10 (-g).toNat /
    (Nat.pow 2 (-x.exponent).toNat * Nat.pow 10 g.toNat)

/-- The decimal on the grid `10 ^ g` that reads back as the value, if one of the two
neighbours does; of two the nearer, and the upper at equal distance. -/
def onGrid (x : Magnitude) (g : Int) : Option Decimal :=
  let below := x.floorOn g
  let above := below + 1
  match x.readsBack below g, x.readsBack above g with
  | true, true =>
    if x.compareQuarters (8 * x.mantissa) (below + above) g == .lt then some ⟨below, g⟩
    else some ⟨above, g⟩
  | true, false => some ⟨below, g⟩
  | false, true => some ⟨above, g⟩
  | false, false => none

/-- The shortest decimal that reads back as the value, which must not be zero. -/
def shortest (x : Magnitude) : Decimal :=
  ((List.range 1384).findSome? fun i : Nat => x.onGrid (309 - (i : Int))).getD ⟨0, 0⟩

end Magnitude

/-- Writes the decimal with all its places and no exponent. -/
def Decimal.positional (d : Decimal) : String :=
  let ds := Nat.toDigits 10 d.digits
  let places := (-d.exponent).toNat
  if places == 0 then String.ofList (ds ++ List.replicate d.exponent.toNat '0')
  else if places < ds.length then
    String.ofList (ds.take (ds.length - places) ++ '.' :: ds.drop (ds.length - places))
  else String.ofList ('0' :: '.' :: List.replicate (places - ds.length) '0' ++ ds)

/-- The text of a double: the shortest decimal that reads back as it, in full. -/
def Double.render (x : Double) : String :=
  if x.isNaN then "NaN"
  else
    let size :=
      if x.isInfinite then "inf"
      else if x.isZero then "0"
      else (Magnitude.ofDouble x).shortest.positional
    if x.isNegative then "-" ++ size else size

end QueryPlan
