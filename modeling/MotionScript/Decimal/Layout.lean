import MotionScript.Decimal.Shortest

/-!
# Layouts of decimals

How the digits of a number are set down as text. The decisions of a format are the fields of a
`Layout`, and each format is one value of it, kept where that format is written.

* `Layout.render`: the shortest text of a scalar in a layout.
* `Scalar.fixed`: a scalar with a fixed number of places.
-/

namespace MotionScript

/-- The decisions of a format for numbers. -/
structure Layout where
  /-- Whether a whole number is written with a point and a zero. -/
  wholePoint : Bool
  /-- Whether a number is written without an exponent, by the exponent of its leading digit. -/
  positional : Int → Bool
  /-- The text of positive infinity. -/
  infinity : String
  /-- The text of what is not a number. -/
  notANumber : String

/-- The digits of `n` with a point before the last `places` of them, and at least one digit before
the point. -/
def pointed (places n : Nat) : List Char :=
  let digits := Nat.toDigits 10 n
  let padded := List.replicate (places + 1 - digits.length) '0' ++ digits
  padded.take (padded.length - places) ++ '.' :: padded.drop (padded.length - places)

namespace Layout

/-- Digits without an exponent. -/
def plain (l : Layout) (d : Decimal) : List Char :=
  if 0 ≤ d.exponent then
    Nat.toDigits 10 d.digits ++ List.replicate d.exponent.toNat '0' ++
      if l.wholePoint then ['.', '0'] else []
  else pointed d.exponent.natAbs d.digits

/-- One digit before the point, the others behind it, and an exponent. -/
def scientific (d : Decimal) : List Char :=
  let digits := Nat.toDigits 10 d.digits
  let exponent := d.exponent + (digits.length - 1 : Nat)
  digits.take 1 ++ (if digits.length = 1 then [] else '.' :: digits.drop 1) ++
    'e' :: (toString exponent).toList

/-- The text of a positive decimal. -/
def decimal (l : Layout) (d : Decimal) : List Char :=
  if l.positional (d.exponent + ((Nat.toDigits 10 d.digits).length - 1 : Nat)) then l.plain d
  else scientific d

end Layout

namespace Scalar

open Float.Model.UnpackedFloat (Sign)

/-- The sign in front of a number. -/
def signText : Sign → List Char
  | .positive => []
  | .negative => ['-']

end Scalar

/-- The shortest text that reads back as `x`. -/
def Layout.render (l : Layout) (x : Scalar) : String :=
  .ofList <| match x.toModel.unpack with
    | .notANumber => l.notANumber.toList
    | .infinity s => Scalar.signText s ++ l.infinity.toList
    | .zero s => Scalar.signText s ++ if l.wholePoint then ['0', '.', '0'] else ['0']
    | .finite s m e _ => Scalar.signText s ++ l.decimal (Magnitude.ofScalar m e).shortest

/-- The quotient of two naturals to the nearest integer, a half to the even neighbour. -/
def roundQuotient (a b : Nat) : Nat :=
  match compare (2 * (a % b)) b with
  | .lt => a / b
  | .gt => a / b + 1
  | .eq => a / b + a / b % 2

/-- The exact value of `x` rounded to `places` decimal places, a half to the even neighbour. Zero
keeps its sign, and so does what rounds to zero. -/
def Scalar.fixed (places : Nat) (x : Scalar) : String :=
  .ofList <| match x.toModel.unpack with
    | .notANumber => "NaN".toList
    | .infinity s => signText s ++ "inf".toList
    | .zero s => signText s ++ pointed places 0
    | .finite s m e _ =>
      signText s ++
        pointed places
          (roundQuotient (m * Nat.pow 2 e.toNat * Nat.pow 10 places) (Nat.pow 2 (-e).toNat))

end MotionScript
