import MotionScript.Scalar.Basic

/-!
# Angles

Sine, cosine and the angle of a vector, in binary32. They are ordinary definitions over the
arithmetic of the number formats, so a statement about a concrete angle evaluates.

* `Scalar.sin`, `Scalar.cos`: the angle is reduced to a quarter turn and a rest in binary64; the
  rest goes into one of two polynomials, and the result is rounded once.
* `Scalar.atan2`: the angle of a vector, with the conventions for zeros and infinities.
* `Scalar.toRadians`, `Scalar.toDegrees`: one multiplication each.
-/

namespace MotionScript.Scalar

/-- An angle as quarter turns and a rest of at most an eighth of a turn. -/
structure Turn where
  /-- The quarter turns; their parity says which polynomial applies. -/
  quarters : UInt32
  /-- The quarter turns with the sign of the angle counted in; they give the sign of the result. -/
  signed : UInt32
  /-- What is left, in radians. -/
  rest : Float

/-- Magnitude compared with a bound by the sign-free exponent and the first three bits of the
fraction only. -/
def coarse (x : Scalar) : UInt32 := x.magnitude >>> 20

/-- Thirty-two bits of the binary expansion of 2/π, of which the window with number `i` ends at
bit `8 * (i + 1)`. -/
def twoOverPi (i : Nat) : UInt32 :=
  (0xa2f9836e4e441529fc2757d1f534ddc0db6295993c439041 >>> (8 * (23 - i)) : Nat).toUInt32

/-- The integer next to a binary64 number towards zero, for numbers that fit the word. -/
def wordOf (x : Float) : Int64 := if x < 0 then -(-x).toUInt64.toInt64 else x.toUInt64.toInt64

/-- The binary64 number nearest to an integer. -/
def ofWord (n : Int64) : Float := if n < 0 then -(-n).toUInt64.toFloat else n.toUInt64.toFloat

/-- Reduction of an angle below 120: one product with 2/π, scaled by 2 ^ 24. -/
def turnOfMedium (x : Scalar) : Turn :=
  let y := x.widen
  let n := (wordOf (y * Float.ofBits 0x41645f306dc9c883) + 0x800000) >>> 24
  { quarters := n.toUInt64.toUInt32
    signed := n.toUInt64.toUInt32
    rest := y - ofWord n * Float.ofBits 0x3ff921fb54442d18 }

/-- Reduction of a large angle: a fixed-point product with the bits of 2/π that matter for its
exponent. -/
def turnOfLarge (x : Scalar) : Turn :=
  let bits := x.toBits
  let i := ((bits >>> 26) &&& 15).toNat
  let m := ((bits &&& 0xffffff) ||| 0x800000) <<< ((bits >>> 23) &&& 7)
  let high := (m * twoOverPi i).toUInt64
  let middle := m.toUInt64 * (twoOverPi (i + 4)).toUInt64
  let low := m.toUInt64 * (twoOverPi (i + 8)).toUInt64
  let product := ((low >>> 32) ||| (high <<< 32)) + middle
  let n := (product + 0x2000000000000000) >>> 62
  { quarters := n.toUInt32
    signed := n.toUInt32 + (bits >>> 31)
    rest := ofWord (product - (n <<< 62)).toInt64 * Float.ofBits 0x3c1921fb54442d18 }

/-- Reduction of a finite angle. An angle below an eighth of a turn is its own rest. -/
def turn (x : Scalar) : Turn :=
  if x.coarse < 0x3f4 then ⟨0, 0, x.widen⟩
  else if x.coarse < 0x42f then x.turnOfMedium
  else x.turnOfLarge

/-- The polynomial of the sine on an eighth of a turn to either side; `y` is the square of `x`. -/
def sinPolynomial (x y : Float) : Float :=
  let cube := x * y
  let tail := Float.ofBits 0x3f81107605230bc4 + y * Float.ofBits 0xbf2994eb3774cf24
  (x + cube * Float.ofBits 0xbfc555545995a603) + (cube * y) * tail

/-- The polynomial of the cosine on an eighth of a turn to either side, from the square. -/
def cosPolynomial (y : Float) : Float :=
  let square := y * y
  let tail := Float.ofBits 0xbf56c087e89a359d + y * Float.ofBits 0x3ef99343027bf8c3
  let head := 1 + y * Float.ofBits 0xbfdffffffd0c621c
  (head + square * Float.ofBits 0x3fa55553e1068f19) + (square * y) * tail

/-- Sine (`shift = 0`) or cosine (`shift = 1`) of a reduced angle. -/
def Turn.value (t : Turn) (shift : UInt32) : Scalar :=
  let square := t.rest * t.rest
  narrow <|
    if (t.quarters ^^^ shift) &&& 1 = 0 then
      let q := t.signed &&& 3
      sinPolynomial (if q = 1 ∨ q = 2 then -t.rest else t.rest) square
    else if t.signed &&& 2 = 0 then cosPolynomial square
    else -cosPolynomial square

/-- The sine of an angle in radians. -/
def sin (x : Scalar) : Scalar :=
  if x.coarse < 0x398 then x
  else if x.coarse < 0x7f8 then x.turn.value 0
  else nan

/-- The cosine of an angle in radians. -/
def cos (x : Scalar) : Scalar :=
  if x.coarse < 0x398 then 1
  else if x.coarse < 0x7f8 then x.turn.value 1
  else nan

/-- A polynomial from its coefficients, the constant one first. -/
def horner (x : Scalar) : List Scalar → Scalar
  | [] => 0
  | [a] => a
  | a :: as => a + x * horner x as

/-- What the arctangent of `x` falls short of `x` by, relative to `x`. -/
def atanDefect (x : Scalar) : Scalar :=
  let z := x * x
  let w := z * z
  z * horner w
      [.ofBits 0x3eaaaaab, .ofBits 0x3e124925, .ofBits 0x3dba2e6e, .ofBits 0x3d886b35,
        .ofBits 0x3d4bda59, .ofBits 0x3c8569d7] +
    w * horner w
      [.ofBits 0xbe4ccccd, .ofBits 0xbde38e38, .ofBits 0xbd9d8795, .ofBits 0xbd6ef16b,
        .ofBits 0xbd15a221]

/-- The arctangent from that of a nearby point, given as a leading and a trailing part; `x` is the
tangent of the difference. -/
def atanNear (lead trail : UInt32) (x : Scalar) : Scalar :=
  .ofBits lead - ((x * x.atanDefect - .ofBits trail) - x)

/-- The arctangent. -/
def atan (x : Scalar) : Scalar :=
  let size := x.magnitude
  let signed (z : Scalar) : Scalar := if x < 0 then -z else z
  if x.isNaN then nan
  else if 0x4c000000 ≤ size then signed (.ofBits 0x3fc90fda + .ofBits 0x33a22168)
  else if size < 0x31000000 then x
  else if size < 0x3ee00000 then x - x * x.atanDefect
  else
    let a := Float32.abs x
    signed <|
      if size < 0x3f300000 then atanNear 0x3eed6338 0x31ac3769 ((2 * a - 1) / (2 + a))
      else if size < 0x3f980000 then atanNear 0x3f490fda 0x33222168 ((a - 1) / (a + 1))
      else if size < 0x401c0000 then atanNear 0x3f7b985e 0x33140fb4 ((a - 1.5) / (1 + 1.5 * a))
      else atanNear 0x3fc90fda 0x33a22168 (-1 / a)

/-- Half a turn. -/
def pi : Scalar := .ofBits 0x40490fdb

/-- The part of half a turn that `pi` leaves out. -/
def piTrail : Scalar := .ofBits 0xb3bbbd2e

/-- The angle of a vector with both coordinates finite and not zero. -/
def atan2Finite (y x : Scalar) : Scalar :=
  let gap := (y.magnitude.toNat : Int) - x.magnitude.toNat
  let z : Scalar :=
    if 61 * 0x800000 ≤ gap then .ofBits 0x3fc90fdb
    else if x < 0 ∧ gap < -60 * 0x800000 then 0
    else atan (Float32.abs (y / x))
  if x < 0 then if y < 0 then (z - piTrail) - pi else pi - (z - piTrail)
  else if y < 0 then -z else z

/-- The angle of the vector with coordinates `x` and `y`, in radians. A vector on an axis has the
angle of that axis and one with two infinite coordinates that of the diagonal; a zero and an
infinity keep their sign. -/
def atan2 (y x : Scalar) : Scalar :=
  let negative (a : Scalar) : Bool := 0x80000000 ≤ a.toBits
  let signed (z : Scalar) : Scalar := if negative y then -z else z
  if x.isNaN ∨ y.isNaN then nan
  else if x == 1 then atan y
  else if y == 0 then if negative x then signed pi else y
  else if x == 0 then signed (.ofBits 0x3fc90fdb)
  else if x.isInf then
    if y.isInf then signed (if negative x then 3 * .ofBits 0x3f490fdb else .ofBits 0x3f490fdb)
    else signed (if negative x then pi else 0)
  else if y.isInf then signed (.ofBits 0x3fc90fdb)
  else atan2Finite y x

/-- Degrees to radians. -/
def toRadians (degrees : Scalar) : Scalar := degrees * .ofBits 0x3c8efa35

/-- Radians to degrees. -/
def toDegrees (radians : Scalar) : Scalar := radians * .ofBits 0x42652ee1

end MotionScript.Scalar
