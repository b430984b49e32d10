/-!
# Double-precision values

A double is kept as its bit pattern: a literal travels through a plan without being
computed with, so nothing more is needed to hold it, and nothing is lost. The one notion
that the bits do not give directly is sameness. Two doubles are the same value when they
are both not a number, both zero of either sign, or equal in every bit; in this sense,
unlike under arithmetic comparison, every double is the same as itself.
-/

namespace QueryPlan

/-- A double-precision value by its bit pattern: a sign bit, eleven bits of exponent and
fifty-two bits of fraction. -/
structure Double where
  bits : UInt64
  deriving DecidableEq

namespace Double

/-- The eleven exponent bits. -/
def exponentBits (x : Double) : Nat := x.bits.toNat / Nat.pow 2 52 % Nat.pow 2 11

/-- The fifty-two fraction bits. -/
def fractionBits (x : Double) : Nat := x.bits.toNat % Nat.pow 2 52

/-- The sign bit is set. Zeros and values that are not a number have one, too. -/
def isNegative (x : Double) : Bool := Nat.pow 2 63 ≤ x.bits.toNat

def isNaN (x : Double) : Bool := x.exponentBits == 2047 && x.fractionBits != 0

def isInfinite (x : Double) : Bool := x.exponentBits == 2047 && x.fractionBits == 0

def isFinite (x : Double) : Bool := x.exponentBits != 2047

def isZero (x : Double) : Bool := x.exponentBits == 0 && x.fractionBits == 0

/-- One bit pattern for each value: all that is not a number shares one pattern, and so do
the two zeros. -/
def canonical (x : Double) : UInt64 :=
  if x.isNaN then 0x7FF8000000000000 else if x.isZero then 0 else x.bits

/-- The two doubles are the same value. -/
def same (x y : Double) : Bool := x.canonical == y.canonical

theorem same_iff (x y : Double) : x.same y = true ↔ x.canonical = y.canonical := by
  simp [same]

@[simp] theorem same_refl (x : Double) : x.same x = true := by
  simp [same]

/-- The double nearest to an integer below `2 ^ 1024`; halfway between two doubles the one
with an even fraction is taken. A carry out of the fraction raises the exponent, which is
the next double up. -/
def ofInt (n : Int) : Double :=
  let size := n.natAbs
  let sign := if n < 0 then Nat.pow 2 63 else 0
  if size == 0 then ⟨0⟩
  else
    let top := size.log2
    let magnitude :=
      if top ≤ 52 then (top + 1022) * Nat.pow 2 52 + size * Nat.pow 2 (52 - top)
      else
        let unit := Nat.pow 2 (top - 52)
        let kept := size / unit
        let dropped := size % unit
        let up := 2 * dropped > unit || (2 * dropped == unit && kept % 2 == 1)
        (top + 1022) * Nat.pow 2 52 + kept + (if up then 1 else 0)
    ⟨(sign + magnitude).toUInt64⟩

end Double

end QueryPlan
