import MotionScript.Scalar.Basic

/-!
# Numerals

Numbers as settings and arguments spell them: a sign, digits with at most one point, an exponent,
or one of the words for what is not finite. Reading rounds once, to the format asked for.

* `Numeral.read?`: the numerals among the texts.
* `Numeral.toScalar`, `Numeral.toFloat`: the nearest number of a format.
* `natural?`: whole numbers below a bound.
-/

namespace MotionScript

/-- What a text says about a number. -/
inductive Numeral where
  | notANumber
  | infinity (negative : Bool)
  /-- The number `digits * 10 ^ exponent`. -/
  | decimal (negative : Bool) (digits : Nat) (exponent : Int)
deriving DecidableEq, Repr

namespace Numeral

/-- An optional sign in front of a text. -/
def sign : List Char → Bool × List Char
  | '-' :: cs => (true, cs)
  | '+' :: cs => (false, cs)
  | cs => (false, cs)

/-- The exponent at the end of a numeral: nothing, or a mark, a sign and digits. -/
def exponent? : List Char → Option Int
  | [] => some 0
  | c :: cs =>
    let (negative, ds) := sign cs
    if (c == 'e' || c == 'E') && !ds.isEmpty && ds.all Char.isDigit then
      let n : Int := Nat.ofDigitChars 10 ds 0
      some (if negative then -n else n)
    else none

/-- Digits with at most one point among them, and an exponent. -/
def decimal? (negative : Bool) (cs : List Char) : Option Numeral :=
  let whole := cs.takeWhile Char.isDigit
  let rest := cs.dropWhile Char.isDigit
  let (fraction, rest) := match rest with
    | '.' :: rest => (rest.takeWhile Char.isDigit, rest.dropWhile Char.isDigit)
    | rest => ([], rest)
  if whole.isEmpty && fraction.isEmpty then none
  else (exponent? rest).map fun e =>
    .decimal negative (Nat.ofDigitChars 10 (whole ++ fraction) 0) (e - fraction.length)

/-- The numeral that a text spells. The words for infinity and for what is not a number may be in
capitals. -/
def read? (cs : List Char) : Option Numeral :=
  let (negative, body) := sign cs
  let word := String.ofList (body.map Char.toLower)
  if word = "nan" then some .notANumber
  else if word = "inf" ∨ word = "infinity" then some (.infinity negative)
  else decimal? negative body

/-- The binary64 number nearest to a numeral. -/
def toFloat : Numeral → Float
  | .notANumber => .ofBits 0x7ff8000000000000
  | .infinity negative => .ofBits (if negative then 0xfff0000000000000 else 0x7ff0000000000000)
  | .decimal negative digits e =>
    let x := Float.ofScientific digits (e < 0) e.natAbs
    if negative then -x else x

/-- The scalar nearest to a numeral. -/
def toScalar : Numeral → Scalar
  | .notANumber => Scalar.nan
  | .infinity negative => if negative then -Scalar.infinity else Scalar.infinity
  | .decimal negative digits e =>
    let x := Float32.ofScientific digits (e < 0) e.natAbs
    if negative then -x else x

end Numeral

/-- The whole number below `bound` that a text spells. A plus sign may stand in front. -/
def natural? (bound : Nat) (cs : List Char) : Option Nat :=
  let ds := match cs with
    | '+' :: ds => ds
    | ds => ds
  if ds.isEmpty || !ds.all Char.isDigit then none
  else
    let n := Nat.ofDigitChars 10 ds 0
    if n < bound then some n else none

end MotionScript
