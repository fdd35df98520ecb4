import MotionScript.Controller.Playback

/-!
# Entities

An entity of a world is a sprite with a controller. Parts of a sprite may be missing; what a script
does to a missing part is lost.

* `Animation.switchTo`: switching to the sequence that plays already keeps its progress.
* `Entity.act`: one update of an entity. It tells whether the entity has just vanished.
* `Entity.mark`: the mark of entities whose script has ended them.
* `Entity.ofCommand`: the entity that a command asks for.
-/

namespace MotionScript

/-- The animation that a sprite plays. -/
structure Animation where
  sequence : Nat := 0
  frame : Nat := 0
  /-- Seconds spent in the frame. -/
  elapsed : Scalar := 0
deriving BEq, DecidableEq, Repr

/-- Plays a sequence from its start, unless it plays already. -/
def Animation.switchTo (a : Animation) (sequence : Nat) : Animation :=
  if a.sequence = sequence then a else { sequence }

/-- The visible state of an entity. -/
structure Sprite where
  position : Vec2
  depth : Option Scalar := none
  /-- The rotation in degrees. -/
  rotation : Option Scalar := none
  animation : Option Animation := none
deriving BEq, DecidableEq, Repr

/-- The depth is zero where there is none, and it is written only when it changes. -/
instance : Target Sprite where
  position s := .ofPlane s.position (s.depth.getD 0)
  moveTo s p :=
    { s with position := p.plane, depth := s.depth.map fun d => if d == p.z then d else p.z }
  rotation s := s.rotation.getD 0
  turnTo s degrees := { s with rotation := s.rotation.map fun _ => degrees }
  animate s sequence := { s with animation := s.animation.map (·.switchTo sequence) }

/-- A sprite with a controller. -/
structure Entity (γ : Type) where
  sprite : Sprite
  controller : Controller γ
  /-- Seconds until the entity is taken away. -/
  lifetime : Option Scalar := none
  /-- The mark of entities whose script has ended them. -/
  vanished : Bool := false

namespace Entity

variable {γ : Type}

/-- What an update makes of an entity. -/
structure Outcome (γ : Type) where
  entity : Entity γ
  /-- What happened, in order. -/
  events : List (Event Sprite)
  /-- The script has ended the entity, and it was not marked before. -/
  vanishedNow : Bool

/-- The commands that the entity's generator sent, in order. -/
def Outcome.commands (o : Outcome γ) : List Command := o.events.filterMap Event.command?

/-- What becomes of the mark of an entity, and whether the entity has just vanished. One that its
script has ended gets the mark, and one that plays again loses it. -/
def mark : (deletable marked : Bool) → Bool × Bool
  | true, false => (true, true)
  | false, true => (false, false)
  | _, marked => (marked, false)

/-- One update, and then the mark. -/
def act [Generator γ Sprite] (e : Entity γ) (delta : Scalar) : Outcome γ :=
  let s := Scene.update { controller := e.controller, body := e.sprite } delta
  let marked := mark s.controller.isDeletable e.vanished
  { entity := { e with sprite := s.body, controller := s.controller, vanished := marked.1 }
    events := s.events
    vanishedNow := marked.2 }

/-- The entity that a command asks for, where curves are drawn as finely as given. -/
def ofCommand (curve : CurveSettings) : Command → Entity γ
  | .projectile position direction speed lifetime =>
    { sprite :=
        { position := position.plane, depth := some position.z, rotation := some direction }
      controller := Controller.manual.manualMove direction speed
      lifetime }
  | .scripted position script sequence =>
    { sprite :=
        { position := position.plane
          depth := some position.z
          rotation := some 0
          animation := some {} }
      controller := (Controller.manual.setCurve curve).bind script sequence }

/-- Carrying out a command does not break the run off. -/
def canSpawn (curve : CurveSettings) : Command → Bool
  | .projectile .. => true
  | .scripted _ script sequence =>
    ((Controller.manual.setCurve curve : Controller γ).bind? script sequence).isSome

/-- The entity after a time, or nothing if its lifetime is over. -/
def age (e : Entity γ) (delta : Scalar) : Option (Entity γ) :=
  match e.lifetime with
  | none => some e
  | some t =>
    let t := t - delta
    if t ≤ 0 then none else some { e with lifetime := some t }

end Entity

end MotionScript
