import MotionScript.Generator.Basic
import MotionScript.Generator.Random

/-!
# Stock generators

The generators that most scripts need. A call without time means that a step has just set the
generator going: each of them then fires at once and starts its timer anew.

* `Pattern.angles`: the directions of a volley.
* `Burst.catchUp`: the volleys that fall due in a span of time.
* `Stock`: single shots, bursts and scripted children.
-/

namespace MotionScript

/-- The shape and the cadence of a burst. -/
structure Pattern where
  /-- Seconds between volleys; without a positive interval there is one volley at a time. -/
  interval : Scalar := 0
  /-- Shots of a volley. -/
  count : Nat := 1
  /-- The width of the fan in degrees; from 360 on the shots lie evenly on a circle. -/
  spread : Scalar := 0
  /-- How far a shot may stray to either side, in degrees. -/
  jitter : Scalar := 0
  /-- The lifetime of what is shot. -/
  lifetime : Option Scalar := none
  /-- Where the random numbers start. -/
  seed : UInt64 := 0
deriving BEq, DecidableEq, Repr

namespace Pattern

/-- The direction of the shot with an index, before it strays. -/
def angle (p : Pattern) (direction : Scalar) (index : Nat) : Scalar :=
  if 360 ≤ p.spread then direction + Float32.ofNat index * 360 / Float32.ofNat p.count
  else if p.count ≤ 1 then direction
  else direction - p.spread / 2 + Float32.ofNat index * p.spread / Float32.ofNat (p.count - 1)

/-- The directions of a volley, before they stray. -/
def angles (p : Pattern) (direction : Scalar) : List Scalar :=
  (List.range p.count).map (p.angle direction)

/-- An angle after it has strayed. Without jitter no random number is drawn. -/
def stray (p : Pattern) (angle : Scalar) (random : Random) : Scalar × Random :=
  if 0 < p.jitter then
    let (x, random) := random.unit
    (angle + (x * 2 - 1) * p.jitter, random)
  else (angle, random)

/-- The angles of a list after they have strayed, one after the other. -/
def strayAll (p : Pattern) : List Scalar → Random → List Scalar × Random
  | [], random => ([], random)
  | a :: as, random =>
    let (d, random) := p.stray a random
    let (ds, random) := strayAll p as random
    (d :: ds, random)

/-- The directions of a number of volleys. -/
def volleys (p : Pattern) (direction : Scalar) (n : Nat) (random : Random) :
    List Scalar × Random :=
  p.strayAll (List.replicate n (p.angles direction)).flatten random

end Pattern

/-- A burst generator: its pattern, the time since the last volley and its random numbers. -/
structure Burst where
  pattern : Pattern
  since : Scalar := 0
  random : Random
deriving BEq, DecidableEq, Repr

namespace Burst

/-- The burst with a pattern, before its first call. -/
def ofPattern (p : Pattern) : Burst := { pattern := p, random := ⟨p.seed⟩ }

/-- Counts on from `volleys` the volleys due after a time: the interval is taken off for as long as
it fits. Where taking it off changes nothing more there is no end to it, and no answer. -/
def countVolleys (interval : Scalar) (volleys : Nat) (since : Scalar) : Option (Nat × Scalar) :=
  if interval ≤ since then
    let left := since - interval
    if interval ≤ left then
      if left.toBits < since.toBits then countVolleys interval (volleys + 1) left else none
    else some (volleys + 1, left)
  else some (volleys, since)
termination_by since.toBits.toNat

/-- The volleys due after a time, and what is left of the time. -/
def catchUp (interval since : Scalar) : Option (Nat × Scalar) := countVolleys interval 0 since

/-- The volleys that a call fires, and the time since the last of them. -/
def due (b : Burst) (delta : Scalar) : Option (Nat × Scalar) :=
  if delta == 0 then some (1, 0)
  else if 0 < b.pattern.interval then catchUp b.pattern.interval (b.since + delta)
  else some (0, b.since)

/-- A call at a position. A span of time whose volleys have no end fires none and is dropped. -/
def fire (b : Burst) (call : Call) (position : Vec3) : Burst × List Command :=
  match b.due call.delta with
  | none => (b, [])
  | some (n, since) =>
    let (directions, random) := b.pattern.volleys call.direction n b.random
    ({ b with since, random },
      directions.map fun d => .projectile position d call.speed b.pattern.lifetime)

end Burst

/-- The stock generators. -/
inductive Stock where
  /-- One shot each time a step sets it going. -/
  | singleShot (lifetime : Option Scalar)
  /-- Volleys of a pattern. -/
  | burst (b : Burst)
  /-- One entity each time a step sets it going, which plays a sequence of a script. -/
  | child (script : ScriptSet) (sequence : Nat)
deriving BEq, DecidableEq, Repr

namespace Stock

/-- One shot each time a step sets it going, and then one every `interval` seconds. -/
def stream (interval : Scalar) (lifetime : Option Scalar) : Stock :=
  .burst (.ofPattern { interval, lifetime })

/-- A call at a position. -/
def fire (s : Stock) (call : Call) (position : Vec3) : Stock × List Command :=
  match s with
  | singleShot lifetime =>
    (s, if call.delta == 0 then [.projectile position call.direction call.speed lifetime] else [])
  | burst b =>
    let (b, commands) := b.fire call position
    (.burst b, commands)
  | child script sequence =>
    (s, if call.delta == 0 then [.scripted position script sequence] else [])

end Stock

/-- Stock generators look at the position of the body and leave the body alone. -/
instance {β : Type} [Target β] : Generator Stock β where
  call s call body :=
    let (s, commands) := s.fire call (Target.position body)
    (s, body, commands)

end MotionScript
