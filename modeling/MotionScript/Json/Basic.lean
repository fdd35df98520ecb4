import MotionScript.Scalar.Basic

/-!
# JSON values

The values of a script document. Whole numbers that fit a machine word are kept apart from the
others, because they become scalars by one rounding and not by two.

* `Json.Number.toScalar`: the scalar that a number stands for.
* `Json.field?`: a member of an object by its name; the last one of a name counts.
-/

namespace MotionScript

/-- A number of a JSON document. -/
inductive Json.Number where
  /-- A whole number without a sign that fits a word of 64 bits. -/
  | natural (n : Nat)
  /-- The negative of a positive whole number that fits a signed word of 64 bits. -/
  | negative (n : Nat)
  /-- Any other number. -/
  | float (x : Float)

/-- A JSON value. -/
inductive Json where
  | null
  | bool (b : Bool)
  | number (n : Json.Number)
  | string (s : String)
  | array (elements : List Json)
  | object (members : List (String × Json))

namespace Json

/-- The scalar that a number stands for: whole numbers round once, others round to binary64 when
they are read and then again. -/
def Number.toScalar : Number → Scalar
  | .natural n => .ofNat n
  | .negative n => -.ofNat n
  | .float x => Scalar.narrow x

/-- The member of an object with a name; the last one counts. -/
def field? (name : String) : Json → Option Json
  | .object members => (members.reverse.find? (·.1 == name)).map (·.2)
  | _ => none

end Json

end MotionScript
