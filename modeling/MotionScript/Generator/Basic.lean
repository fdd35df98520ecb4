import MotionScript.Script.Set

/-!
# Bodies, generators and spawn commands

A script drives a body and may have a generator beside it. The generator is called with the time
that passes, may look at the body and move it, and asks for new entities by commands.

* `Target`: what can be driven.
* `Body`: a position, a rotation and an animation, and nothing else.
* `Generator`: what can be called.
-/

namespace MotionScript

/-- What a script needs of the entity that it drives. -/
class Target (β : Type) where
  position : β → Vec3
  /-- Puts the entity somewhere else. -/
  moveTo : β → Vec3 → β
  /-- The rotation in degrees. -/
  rotation : β → Scalar
  /-- Turns the entity to a rotation in degrees. -/
  turnTo : β → Scalar → β
  /-- Switches the animation; an entity without one may ignore it. -/
  animate : β → Nat → β

/-- An entity that is nothing but what a script drives. -/
structure Body where
  position : Vec3 := ⟨0, 0, 0⟩
  rotation : Scalar := 0
  animation : Option Nat := none
deriving BEq, DecidableEq, Repr

instance : Target Body where
  position b := b.position
  moveTo b p := { b with position := p }
  rotation b := b.rotation
  turnTo b r := { b with rotation := r }
  animate b n := { b with animation := some n }

/-- A request for a new entity. -/
inductive Command where
  /-- An entity that flies straight on, and with a lifetime only for so long. -/
  | projectile (position : Vec3) (direction speed : Scalar) (lifetime : Option Scalar)
  /-- An entity that plays a sequence of a script. -/
  | scripted (position : Vec3) (script : ScriptSet) (sequence : Nat)
deriving BEq, DecidableEq, Repr

/-- Where the new entity starts. -/
def Command.position : Command → Vec3
  | projectile position .. => position
  | scripted position .. => position

/-- A call of a generator: the time that passed, zero when a step sets the generator going, and the
parameters of that step. -/
structure Call where
  delta : Scalar
  speed : Scalar
  direction : Scalar
deriving BEq, DecidableEq, Repr

/-- What can be called beside a script that drives bodies of type `β`. -/
class Generator (γ β : Type) where
  /-- The generator and the body after a call, and the commands sent. -/
  call : γ → Call → β → γ × β × List Command

end MotionScript
