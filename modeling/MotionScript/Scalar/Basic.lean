/-!
# Scalars

Every coordinate, angle and time is a binary32 number, and every operation rounds to nearest with
ties to even. Core gives the arithmetic, the comparisons and the square root; here is what it
leaves out or leaves opaque, all of it by definitions that evaluate.

* `Scalar.max`, `Scalar.min`: the greater and the lesser of two numbers, where one that is not a
  number gives way to the other.
* `Scalar.truncate`, `Scalar.floor`: the integer towards zero and the integer below, as a machine
  word that saturates.
* `Scalar.widen`, `Scalar.narrow`: to binary64, exactly, and back, rounding once.
-/

namespace MotionScript

/-- A binary32 number. -/
abbrev Scalar := Float32

namespace Scalar

/-- The greater of two numbers; one that is not a number gives way to the other. -/
protected def max (a b : Scalar) : Scalar :=
  if b < a then a else if b.isNaN then a else b

/-- The lesser of two numbers; one that is not a number gives way to the other. -/
protected def min (a b : Scalar) : Scalar :=
  if a < b then a else if b.isNaN then a else b

/-- Positive infinity. -/
def infinity : Scalar := .ofBits 0x7f800000

/-- The value that is not a number. -/
def nan : Scalar := .ofBits 0x7fc00000

/-- The magnitude's bits, without the sign. -/
def magnitude (x : Scalar) : UInt32 := x.toBits &&& 0x7fffffff

/-- The integer next to `x` towards zero, saturating at the ends of the word. What is not a number
counts as zero. -/
def truncate (x : Scalar) : Int32 :=
  if x < 0 then -(min (-x).toUInt32 0x80000000).toInt32 else (min x.toUInt32 0x7fffffff).toInt32

/-- The greatest integer that is at most `x`, saturating at the ends of the word. What is not a
number has the floor zero. -/
def floor (x : Scalar) : Int32 :=
  let t := x.truncate
  if x < Float32.ofInt t.toInt ∧ t ≠ Int32.minValue then t - 1 else t

/-- The binary64 number of the same value. Magnitudes of normal numbers are those of binary32 with
zeros below and the exponent rebiased; those of the others are first shifted until they have an
implicit bit. -/
def widen (x : Scalar) : Float :=
  let size := x.magnitude.toUInt64
  let shift := 52 - size.log2
  let wide : UInt64 :=
    if size = 0 then 0
    else if size < 0x800000 then (size <<< shift) + ((925 - shift) <<< 52)
    else if size < 0x7f800000 then (size <<< 29) + 0x3800000000000000
    else 0x7ff0000000000000
  if x.isNaN then .ofBits 0x7ff8000000000000
  else .ofBits (((x.toBits >>> 31).toUInt64 <<< 63) ||| wide)

/-- The quotient of `m` by `2 ^ k` for a positive `k`, rounded to the nearest, ties to even. -/
def shiftRounded (m k : UInt64) : UInt64 :=
  let half := 1 <<< (k - 1)
  let odd := (m >>> k) &&& 1
  (m + (half - 1) + odd) >>> k

/-- The binary32 number nearest to a binary64 number, ties to even. A normal magnitude is rebiased
and its lower 29 bits are rounded away, where a carry runs on into the exponent; what exceeds the
finite numbers is infinite. Below the normal numbers the fraction is shifted to the place of the
least one. -/
def narrow (x : Float) : Scalar :=
  let size := x.toBits &&& 0x7fffffffffffffff
  let exponent := size >>> 52
  let fraction := size &&& 0xfffffffffffff
  let thin :=
    if exponent < 897 then shiftRounded (fraction + 0x10000000000000) (min (926 - exponent) 54)
    else min (shiftRounded (size - 0x3800000000000000) 29) 0x7f800000
  if x.isNaN then nan
  else .ofBits (((x.toBits >>> 63).toUInt32 <<< 31) ||| thin.toUInt32)

end Scalar

end MotionScript
