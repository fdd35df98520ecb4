import MotionScript.Vec

/-!
# Steps

A script moves an entity by a list of steps. In a file a step is a keyword with up to three numbers.
Angles are in degrees, 0 to the right and 90 up the screen.

* `StepKind.keyword`, `StepKind.ofKeyword?`: the kinds of steps and their keywords.
* `Step.ofParams`: the step of a kind with its numbers; any numbers make a step.
* `Step.IsInstant`: the steps that take no time.
-/

namespace MotionScript

/-- How the control points of a path are joined. -/
inductive Interpolation where
  /-- By a cubic spline that starts at the first point and ends at the last. -/
  | spline
  /-- By straight segments. -/
  | linear
deriving DecidableEq, Repr

/-- The interpolation with a number; every number but one means a spline. -/
def Interpolation.ofParam (value : Scalar) : Interpolation :=
  if value.truncate = 1 then .linear else .spline

/-- The number that stands for an interpolation. -/
def Interpolation.param : Interpolation → Scalar
  | .spline => 0
  | .linear => 1

/-- The kinds of steps. -/
inductive StepKind where
  | move
  | accelerate
  | wait
  | path
  | point
  | vanish
  | generate
  | animate
deriving DecidableEq, Repr

namespace StepKind

/-- All kinds. -/
def all : List StepKind := [move, accelerate, wait, path, point, vanish, generate, animate]

/-- The word for a kind in a script file. -/
def keyword : StepKind → String
  | move => "Move"
  | accelerate => "Accel"
  | wait => "Wait"
  | path => "Path"
  | point => "Point"
  | vanish => "Delete"
  | generate => "Generate"
  | animate => "Animation"

/-- The kind with a keyword. -/
def ofKeyword? (word : String) : Option StepKind := all.find? (·.keyword == word)

end StepKind

/-- One instruction of a script. -/
inductive Step where
  /-- Sets the velocity. -/
  | move (direction speed : Scalar)
  /-- Sets the acceleration. -/
  | accelerate (direction amount : Scalar)
  /-- Keeps moving for a time. -/
  | wait (duration : Scalar)
  /-- Follows the curve through the next `count` control points, in a given time. -/
  | path (duration : Scalar) (count : Nat) (interpolation : Interpolation)
  /-- A control point of the path before it; does nothing by itself. -/
  | point (position : Vec2)
  /-- Ends the script for good and marks the entity as done with. -/
  | vanish
  /-- Sets the generator going, with these parameters. -/
  | generate (speed direction : Scalar)
  /-- Switches the animation; a negative number switches nothing. -/
  | animate (sequence : Int)
deriving BEq, DecidableEq, Repr

namespace Step

/-- The kind of a step. -/
def kind : Step → StepKind
  | move .. => .move
  | accelerate .. => .accelerate
  | wait .. => .wait
  | path .. => .path
  | point .. => .point
  | vanish => .vanish
  | generate .. => .generate
  | animate .. => .animate

/-- The step of a kind with its three numbers, of which it may ignore some. Counts and animations
are cut to whole numbers of a machine word. -/
def ofParams (kind : StepKind) (a b c : Scalar) : Step :=
  match kind with
  | .move => .move a b
  | .accelerate => .accelerate a b
  | .wait => .wait a
  | .path => .path a (Scalar.max b 0).toUInt64.toNat (.ofParam c)
  | .point => .point ⟨a, b⟩
  | .vanish => .vanish
  | .generate => .generate a b
  | .animate => .animate a.truncate.toInt

/-- The three numbers of a step. -/
def params : Step → Scalar × Scalar × Scalar
  | move direction speed => (direction, speed, 0)
  | accelerate direction amount => (direction, amount, 0)
  | wait duration => (duration, 0, 0)
  | path duration count interpolation => (duration, .ofNat count, interpolation.param)
  | point p => (p.x, p.y, 0)
  | vanish => (0, 0, 0)
  | generate speed direction => (speed, direction, 0)
  | animate sequence => (.ofInt sequence, 0, 0)

/-- The step takes no time: playback goes on with the next one at once. -/
def IsInstant : Step → Bool
  | wait .. | path .. | vanish => false
  | _ => true

/-- The animation that a step switches to, if it switches to one. -/
def animation? : Step → Option Nat
  | animate sequence => if 0 ≤ sequence then some sequence.toNat else none
  | _ => none

end Step

end MotionScript
