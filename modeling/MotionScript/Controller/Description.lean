import MotionScript.Controller.Basic
import MotionScript.Decimal.Layout
import MotionScript.Text.Hidden

/-!
# Descriptions of controllers

One line that tells the state of a controller, for logs.

* `Description.number`: how numbers are written in it.
* `Description.quoted`: how names are quoted in it.
* `Controller.describe`: the line.
-/

namespace MotionScript

/-- The word for a mode. -/
def Mode.name : Mode → String
  | move => "Move"
  | path => "Path"
  | vanished => "Vanished"
  | manual => "Manual"

namespace Description

/-- Numbers keep a point; those from 1e16 on and those below 1e-4 have an exponent. -/
def number : Layout where
  wholePoint := true
  positional := fun e => -4 ≤ e ∧ e < 16
  infinity := "inf"
  notANumber := "NaN"

/-- A character inside quotes: the quote, the backslash and the hidden characters are escaped. -/
def escaped (c : Char) : List Char :=
  if c == '"' ∨ c == '\\' then ['\\', c]
  else if c == '\n' then ['\\', 'n']
  else if c == '\r' then ['\\', 'r']
  else if c == '\t' then ['\\', 't']
  else if c.toNat = 0 then ['\\', '0']
  else if Text.isHidden c then
    ['\\', 'u', '\x7b'] ++ Nat.toDigits 16 c.toNat ++ ['\x7d']
  else [c]

/-- A text in quotes. -/
def quoted (text : String) : String :=
  .ofList ('"' :: text.toList.flatMap escaped ++ ['"'])

/-- A vector. -/
def vector (v : Vec2) : String := "Vec2(" ++ number.render v.x ++ ", " ++ number.render v.y ++ ")"

/-- A script by its name. -/
def binding : Option ScriptSet → String
  | some s => "Some(" ++ quoted s.name ++ ")"
  | none => "None"

end Description

open Description in
/-- The state of a controller in one line. -/
def Controller.describe {γ : Type} (c : Controller γ) : String :=
  let fields : List (String × String) :=
    [("script", binding c.script), ("sequence", toString c.sequence), ("step", toString c.step),
      ("mode", c.mode.name), ("elapsed", number.render c.elapsed),
      ("target_time", number.render c.target), ("velocity", vector c.velocity),
      ("acceleration", vector c.acceleration),
      ("waypoints", toString c.path.waypoints.size),
      ("generator", toString c.generator.isSome),
      ("generator_active", toString c.generatorActive)]
  "ActionController \x7b " ++ ", ".intercalate (fields.map fun (name, text) => name ++ ": " ++ text) ++
    " \x7d"

end MotionScript
