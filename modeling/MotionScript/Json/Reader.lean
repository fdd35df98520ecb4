import MotionScript.Json.Numeral

/-!
# Reading JSON

A strict reader: blanks are the four of the standard, nothing but blanks may follow the value, a
string holds no bare control character and no unpaired surrogate, and values nest at most 127 deep.

* `Json.read?`: the value that a text spells.
-/

namespace MotionScript.Json

/-- The characters that may stand between the tokens. -/
def isBlank (c : Char) : Bool := c == ' ' || c == '\t' || c == '\n' || c == '\r'

/-- A text without the blanks in front. -/
def skipBlanks (cs : List Char) : List Char := cs.dropWhile isBlank

/-- The value of a hexadecimal digit. -/
def hexDigit? (c : Char) : Option Nat :=
  if '0' ≤ c ∧ c ≤ '9' then some (c.toNat - '0'.toNat)
  else if 'a' ≤ c ∧ c ≤ 'f' then some (c.toNat - 'a'.toNat + 10)
  else if 'A' ≤ c ∧ c ≤ 'F' then some (c.toNat - 'A'.toNat + 10)
  else none

/-- Four hexadecimal digits. -/
def hexUnit? : List Char → Option (Nat × List Char)
  | a :: b :: c :: d :: cs => do
    let a ← hexDigit? a
    let b ← hexDigit? b
    let c ← hexDigit? c
    let d ← hexDigit? d
    return (((a * 16 + b) * 16 + c) * 16 + d, cs)
  | _ => none

/-- The character of an escape with hexadecimal digits. One in the range of the high surrogates
needs a low surrogate behind it, and the two stand for one character. -/
def unicodeEscape? (cs : List Char) : Option (Char × List Char) := do
  let (unit, cs) ← hexUnit? cs
  if 0xdc00 ≤ unit ∧ unit ≤ 0xdfff then none
  else if 0xd800 ≤ unit ∧ unit ≤ 0xdbff then
    match cs with
    | '\\' :: 'u' :: cs =>
      let (second, cs) ← hexUnit? cs
      if 0xdc00 ≤ second ∧ second ≤ 0xdfff then
        return (Char.ofNat (0x10000 + (unit - 0xd800) * 0x400 + (second - 0xdc00)), cs)
      else none
    | _ => none
  else return (Char.ofNat unit, cs)

/-- The character of an escape, read from behind the backslash. -/
def escape? : List Char → Option (Char × List Char)
  | '"' :: cs => some ('"', cs)
  | '\\' :: cs => some ('\\', cs)
  | '/' :: cs => some ('/', cs)
  | 'b' :: cs => some ('\x08', cs)
  | 'f' :: cs => some ('\x0c', cs)
  | 'n' :: cs => some ('\n', cs)
  | 'r' :: cs => some ('\r', cs)
  | 't' :: cs => some ('\t', cs)
  | 'u' :: cs => unicodeEscape? cs
  | _ => none

/-- The characters of a string up to the closing quote, in reverse behind `seen`. Each step takes a
character, so fuel beyond the length of the text is enough. -/
def stringBody? : (fuel : Nat) → (seen : List Char) → List Char → Option (String × List Char)
  | 0, _, _ => none
  | _, _, [] => none
  | _ + 1, seen, '"' :: cs => some (.ofList seen.reverse, cs)
  | fuel + 1, seen, '\\' :: cs => do
    let (c, cs) ← escape? cs
    stringBody? fuel (c :: seen) cs
  | fuel + 1, seen, c :: cs => if c.toNat < 0x20 then none else stringBody? fuel (c :: seen) cs

/-- The string behind an opening quote. -/
def string? (fuel : Nat) (cs : List Char) : Option (String × List Char) := stringBody? fuel [] cs

mutual

/-- The value at the start of a text that has no blanks in front. Arrays and objects may still nest
`depth` deep. Every call takes a character or leads to one that does, so fuel beyond twice the length
of the text is enough. -/
def value? (fuel depth : Nat) (cs : List Char) : Option (Json × List Char) :=
  match fuel, cs with
  | _ + 1, 'n' :: 'u' :: 'l' :: 'l' :: cs => some (.null, cs)
  | _ + 1, 't' :: 'r' :: 'u' :: 'e' :: cs => some (.bool true, cs)
  | _ + 1, 'f' :: 'a' :: 'l' :: 's' :: 'e' :: cs => some (.bool false, cs)
  | fuel + 1, '"' :: cs => (string? fuel cs).map fun (s, cs) => (.string s, cs)
  | fuel + 1, '[' :: cs =>
    match depth, skipBlanks cs with
    | 0, _ => none
    | _ + 1, ']' :: cs => some (.array [], cs)
    | depth + 1, cs => (elements? fuel depth cs).map fun (vs, cs) => (.array vs, cs)
  | fuel + 1, '\x7b' :: cs =>
    match depth, skipBlanks cs with
    | 0, _ => none
    | _ + 1, '\x7d' :: cs => some (.object [], cs)
    | depth + 1, cs => (members? fuel depth cs).map fun (ms, cs) => (.object ms, cs)
  | _ + 1, cs => (numeral? cs).map fun (n, cs) => (.number n, cs)
  | 0, _ => none

/-- The elements of an array up to its closing bracket, at least one. -/
def elements? (fuel depth : Nat) (cs : List Char) : Option (List Json × List Char) :=
  match fuel with
  | 0 => none
  | fuel + 1 => do
    let (v, cs) ← value? fuel depth cs
    match skipBlanks cs with
    | ']' :: cs => return ([v], cs)
    | ',' :: cs =>
      let (vs, cs) ← elements? fuel depth (skipBlanks cs)
      return (v :: vs, cs)
    | _ => none

/-- The members of an object up to its closing brace, at least one. -/
def members? (fuel depth : Nat) (cs : List Char) : Option (List (String × Json) × List Char) :=
  match fuel, cs with
  | fuel + 1, '"' :: cs => do
    let (name, cs) ← string? fuel cs
    match skipBlanks cs with
    | ':' :: cs =>
      let (v, cs) ← value? fuel depth (skipBlanks cs)
      match skipBlanks cs with
      | '\x7d' :: cs => return ([(name, v)], cs)
      | ',' :: cs =>
        let (ms, cs) ← members? fuel depth (skipBlanks cs)
        return ((name, v) :: ms, cs)
      | _ => none
    | _ => none
  | _, _ => none

end

/-- The value that a text spells, if it spells one. -/
def read? (text : String) : Option Json := do
  let cs := text.toList
  let (v, rest) ← value? (2 * cs.length + 2) 127 (skipBlanks cs)
  if (skipBlanks rest).isEmpty then some v else none

end MotionScript.Json
