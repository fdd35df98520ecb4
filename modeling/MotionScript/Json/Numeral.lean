import MotionScript.Json.Basic

/-!
# Numbers in JSON text

A number is read from left to right into a significand that fits a word of 64 bits and a power of
ten. Digits that no longer fit only move the power, or, behind the point, are passed over. A number
with a point, an exponent or too many digits is then formed in binary64 from the two, by one
product or quotient with a power of ten at a time; it is refused if that overflows.

* `Json.numeral?`: the number at the start of a text, and what follows it.
* `Json.scaled?`: the significand times the power of ten.
-/

namespace MotionScript.Json

/-- The greatest word of 64 bits. -/
def wordMax : Nat := UInt64.size - 1

/-- Appends to `n` the digits at the start of a text for as long as it stays a word. Gives the
result, the number of digits taken and what follows. -/
def absorb (n : Nat) : List Char → Nat × Nat × List Char
  | [] => (n, 0, [])
  | c :: cs =>
    if c.isDigit ∧ 10 * n + (c.toNat - '0'.toNat) ≤ wordMax then
      let (value, taken, rest) := absorb (10 * n + (c.toNat - '0'.toNat)) cs
      (value, taken + 1, rest)
    else (n, 0, c :: cs)

/-- The binary64 power of ten. -/
def powerOfTen (n : Nat) : Float := Float.ofScientific 1 false n

/-- `x * 10 ^ exponent`; an exponent below -308 is taken in steps, of which `steps` are left. -/
def scaleBy? : (steps : Nat) → Float → Int → Option Float
  | 0, x, _ => some x
  | steps + 1, x, exponent =>
    if exponent.natAbs ≤ 308 then
      if 0 ≤ exponent then
        let y := x * powerOfTen exponent.natAbs
        if y.isInf then none else some y
      else some (x / powerOfTen exponent.natAbs)
    else if x == 0 then some x
    else if 0 ≤ exponent then none
    else scaleBy? steps (x / powerOfTen 308) (exponent + 308)

/-- A significand times a power of ten in binary64, refused on overflow. Three steps take the
greatest word to zero. -/
def scaled? (negative : Bool) (significand : Nat) (exponent : Int) : Option Number :=
  (scaleBy? 4 (Float.ofNat significand) exponent).map fun x => .float (if negative then -x else x)

/-- The digits of an exponent. One that does not fit a signed word of 32 bits makes a zero, and is
refused if it is positive and the significand is not zero. -/
def exponent? (negative : Bool) (significand : Nat) (exponent : Int) (cs : List Char) :
    Option (Number × List Char) :=
  let (down, cs) := match cs with
    | '-' :: cs => (true, cs)
    | '+' :: cs => (false, cs)
    | cs => (false, cs)
  let digits := cs.takeWhile Char.isDigit
  let rest := cs.dropWhile Char.isDigit
  let n := Nat.ofDigitChars 10 digits 0
  if digits.isEmpty then none
  else if 0x80000000 ≤ n then
    if significand ≠ 0 ∧ !down then none
    else some (.float (if negative then -0.0 else 0.0), rest)
  else
    (scaled? negative significand (if down then exponent - n else exponent + n)).map (·, rest)

/-- What may follow the digits: an exponent, or the end of the number. -/
def finish? (negative : Bool) (significand : Nat) (exponent : Int) : List Char → Option (Number × List Char)
  | 'e' :: cs => exponent? negative significand exponent cs
  | 'E' :: cs => exponent? negative significand exponent cs
  | cs => (scaled? negative significand exponent).map (·, cs)

/-- The digits behind the point, at least one. Those that do not fit the significand are passed
over. -/
def fraction? (negative : Bool) (significand : Nat) (exponent : Int) (cs : List Char) :
    Option (Number × List Char) :=
  let (value, taken, rest) := absorb significand cs
  if taken = 0 ∧ !(rest.head?.any Char.isDigit) then none
  else finish? negative value (exponent - taken) (rest.dropWhile Char.isDigit)

/-- A whole number. The negative of zero is not one, for it has a sign of its own. -/
def whole (negative : Bool) (n : Nat) : Number :=
  if !negative then .natural n
  else if 1 ≤ n ∧ n ≤ 0x8000000000000000 then .negative n
  else .float (-Float.ofNat n)

/-- The digits before the point, at least one and without a leading zero, and what follows. -/
def unsigned? (negative : Bool) (cs : List Char) : Option (Number × List Char) :=
  let (significand, taken, rest) := absorb 0 cs
  let surplus := (rest.takeWhile Char.isDigit).length
  let rest := rest.dropWhile Char.isDigit
  if taken = 0 ∨ (cs.head? = some '0' ∧ taken ≠ 1) then none
  else match rest with
    | '.' :: rest => fraction? negative significand surplus rest
    | 'e' :: _ | 'E' :: _ => finish? negative significand surplus rest
    | _ =>
      if surplus = 0 then some (whole negative significand, rest)
      else finish? negative significand surplus rest

/-- The number at the start of a text. -/
def numeral? : List Char → Option (Number × List Char)
  | '-' :: cs => unsigned? true cs
  | cs => unsigned? false cs

end MotionScript.Json
