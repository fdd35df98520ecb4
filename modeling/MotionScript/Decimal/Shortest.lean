import MotionScript.Scalar.Basic

/-!
# Shortest decimals

A decimal reads back as a binary number when it lies among the reals that round to it. The shortest
such decimal is found by exact arithmetic on naturals: the grids of the powers of ten are tried
from coarse to fine, on each the two neighbours of the value, and the first grid with a hit gives
the nearer of its hits.

* `Magnitude.Reads`: the interval of the reals that round to a magnitude.
* `Magnitude.shortest`: the decimal with the fewest digits in that interval; an exact tie between
  two goes to the greater.
-/

namespace MotionScript

/-- The number `digits * 10 ^ exponent`. -/
structure Decimal where
  digits : Nat
  exponent : Int
deriving DecidableEq, Repr

/-- The positive number `mantissa * 2 ^ exponent`, as one of the numbers of a binary format. -/
structure Magnitude where
  mantissa : Nat
  exponent : Int
  /-- The number below is only half as far away as the number above. -/
  narrow : Bool
deriving DecidableEq, Repr

namespace Magnitude

/-- The order of `a * 10 ^ i` and `b * 2 ^ j`. -/
def compareScaled (a : Nat) (i : Int) (b : Nat) (j : Int) : Ordering :=
  compare (a * Nat.pow 10 i.toNat * Nat.pow 2 (-j).toNat)
    (b * Nat.pow 2 j.toNat * Nat.pow 10 (-i).toNat)

/-- A decimal lies between the midpoints to the two neighbours of `x`. The midpoints themselves
round to the neighbour with the even mantissa. -/
def Reads (x : Magnitude) (d : Decimal) : Bool :=
  let below := 4 * x.mantissa - if x.narrow then 1 else 2
  let above := 4 * x.mantissa + 2
  let closed := x.mantissa % 2 == 0
  let low := compareScaled d.digits d.exponent below (x.exponent - 2)
  let high := compareScaled d.digits d.exponent above (x.exponent - 2)
  (low == .gt || (closed && low == .eq)) && (high == .lt || (closed && high == .eq))

/-- The number of whole units of `10 ^ k` in `x`. -/
def floorOn (x : Magnitude) (k : Int) : Nat :=
  (x.mantissa * Nat.pow 2 x.exponent.toNat * Nat.pow 10 (-k).toNat) /
    (Nat.pow 2 (-x.exponent).toNat * Nat.pow 10 k.toNat)

/-- The multiple of `10 ^ k` that reads back as `x` and is nearest to it, if there is one. -/
def onGrid (x : Magnitude) (k : Int) : Option Decimal :=
  let d := x.floorOn k
  let lower : Decimal := ⟨d, k⟩
  let upper : Decimal := ⟨d + 1, k⟩
  if x.Reads upper then
    if x.Reads lower ∧ compareScaled (2 * d + 1) k (2 * x.mantissa) x.exponent = .gt then
      some lower
    else some upper
  else if x.Reads lower then some lower
  else none

/-- An exponent of ten above that of the leading digit. -/
def top (x : Magnitude) : Int :=
  ((x.mantissa.log2 + 1 + x.exponent) * 30103).fdiv 100000 + 2

/-- The decimal with the fewest digits that reads back as `x`. Of the grids tried the finest has
twenty places below the leading one, more than any format needs. -/
def shortest (x : Magnitude) : Decimal :=
  ((List.range 22).findSome? fun n : Nat => x.onGrid (x.top - n)).getD ⟨x.floorOn (x.top - 22), x.top - 22⟩

end Magnitude

/-- A finite binary32 number other than zero, without its sign. -/
def Magnitude.ofScalar (mantissa : Nat) (exponent : Int) : Magnitude where
  mantissa
  exponent
  narrow := mantissa == 0x800000 && exponent != -149

end MotionScript
