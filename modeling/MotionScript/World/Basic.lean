import MotionScript.World.Entity

/-!
# Worlds

A world holds entities and a clock. A frame advances the clock and then, in this order, updates the
entities, spawns what their generators asked for, and takes away those whose lifetime is over. While
the clock stands still, nothing is updated and nothing ages.

* `World.act`, `World.spawn`, `World.expire`: the three passes of a frame.
* `World.frame`: one frame.
* `World.frame?`: the same, unless a path cannot be drawn. This is what a program runs.
* `World.modify`: what owners do to a controller between frames.
-/

namespace MotionScript

/-- The clock of a simulation. -/
structure Clock where
  elapsed : Scalar := 0
  /-- Seconds of the current frame. -/
  delta : Scalar := 0
  /-- The speed of the clock. -/
  timeScale : Scalar := 1
  frames : Nat := 0
deriving BEq, DecidableEq, Repr

/-- The clock after a frame of `dt` seconds of real time. -/
def Clock.advance (c : Clock) (dt : Scalar) : Clock :=
  let delta := dt * c.timeScale
  { c with elapsed := c.elapsed + delta, delta, frames := c.frames + 1 }

/-- Entities, numbered in the order in which they came, and what they share. -/
structure World (γ : Type) where
  clock : Clock := {}
  entities : List (Nat × Entity γ) := []
  /-- The number of the next entity. -/
  nextId : Nat := 0
  /-- The commands that wait to be carried out. Without a queue commands are lost. -/
  queue : Option (List Command) := some []
  /-- How finely the curves of spawned entities are drawn, if it is set. -/
  curve : Option CurveSettings := none
  /-- Entities that vanish are taken away. -/
  despawnVanished : Bool := false

namespace World

variable {γ : Type}

/-- What happened in a frame: what the update made of each entity. -/
structure Report (γ : Type) where
  outcomes : List (Nat × Entity.Outcome γ) := []

/-- The entities that vanished. -/
def Report.vanished (r : Report γ) : List Nat := (r.outcomes.filter (·.2.vanishedNow)).map (·.1)

/-- What happened to an entity, in order. -/
def Report.events (r : Report γ) (id : Nat) : List (Event Sprite) :=
  ((r.outcomes.lookup id).map (·.events)).getD []

/-- The entity with a number. -/
def entity? (w : World γ) (id : Nat) : Option (Entity γ) := w.entities.lookup id

/-- Adds entities, which get the next numbers in turn. -/
def addAll (w : World γ) (es : List (Entity γ)) : World γ :=
  { w with
    entities := w.entities ++ (List.range' w.nextId es.length).zip es
    nextId := w.nextId + es.length }

/-- Adds an entity. -/
def add (w : World γ) (e : Entity γ) : World γ := w.addAll [e]

/-- Takes an entity away. -/
def remove (w : World γ) (id : Nat) : World γ :=
  { w with entities := w.entities.filter (·.1 != id) }

/-- Changes the controller of an entity; nothing happens if it is gone. -/
def modify (w : World γ) (id : Nat) (f : Controller γ → Controller γ) : World γ :=
  { w with
    entities := w.entities.map fun (i, e) =>
      if i = id then (i, { e with controller := f e.controller }) else (i, e) }

/-- Puts commands in the queue. -/
def send (w : World γ) (commands : List Command) : World γ :=
  { w with queue := w.queue.map (· ++ commands) }

/-- Updates all entities by the time of the frame. Each acts for itself; their commands go into the
queue in the order of the entities. -/
def act [Generator γ Sprite] (w : World γ) : World γ × Report γ :=
  if w.clock.delta ≤ 0 then (w, {})
  else
    let outcomes := w.entities.map fun (id, e) => (id, e.act w.clock.delta)
    let commands := outcomes.flatMap fun (_, o) => o.commands
    let entities : List (Nat × Entity γ) := outcomes.filterMap fun (id, o) =>
      if w.despawnVanished && o.vanishedNow then none else some (id, o.entity)
    ({ w with entities }.send commands, { outcomes })

/-- Carries out the commands of the queue, the earliest first. -/
def spawn (w : World γ) : World γ :=
  { w.addAll ((w.queue.getD []).map (Entity.ofCommand (w.curve.getD {}))) with
    queue := w.queue.map fun _ => [] }

/-- Takes away the entities whose lifetime is over. -/
def expire (w : World γ) : World γ :=
  if w.clock.delta ≤ 0 then w
  else
    { w with
      entities := w.entities.filterMap fun (id, e) => (e.age w.clock.delta).map (id, ·) }

/-- The passes of a frame. -/
def run [Generator γ Sprite] (w : World γ) : World γ × Report γ :=
  let (w, report) := w.act
  (w.spawn.expire, report)

/-- The entities can reach the steps that they have reached in the first pass, by its report. -/
def canAct (w : World γ) (report : Report γ) : Bool :=
  (w.entities.zip report.outcomes).all fun ((_, e), (_, o)) =>
    o.entity.controller.canReachFrom (e.controller.step + 1)

/-- The first pass, unless the run breaks off at one of the steps that the entities reach. -/
def act? [Generator γ Sprite] (w : World γ) : Option (World γ × Report γ) :=
  let (v, report) := w.act
  if w.canAct report then some (v, report) else none

/-- The second pass, unless the run breaks off at the binding of a new entity. -/
def spawn? (w : World γ) : Option (World γ) :=
  if (w.queue.getD []).all (Entity.canSpawn (γ := γ) (w.curve.getD {})) then some w.spawn else none

/-- The passes of a frame, unless the run breaks off. -/
def run? [Generator γ Sprite] (w : World γ) : Option (World γ × Report γ) := do
  let (w, report) ← w.act?
  let w ← w.spawn?
  return (w.expire, report)

/-- Advances the clock alone. -/
def advanceClock (w : World γ) (dt : Scalar) : World γ := { w with clock := w.clock.advance dt }

/-- One frame of `dt` seconds of real time. -/
def frame [Generator γ Sprite] (w : World γ) (dt : Scalar) : World γ × Report γ :=
  (w.advanceClock dt).run

/-- One frame, unless the run breaks off. -/
def frame? [Generator γ Sprite] (w : World γ) (dt : Scalar) : Option (World γ × Report γ) :=
  (w.advanceClock dt).run?

end World

end MotionScript
