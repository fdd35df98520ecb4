import MotionScript.Controller.Basic

/-!
# Playback

An update passes time on to a controller and its entity. The current step moves the entity for the
time that is left to it; steps whose time is up are left, and those behind them are reached, as many
as the time covers. A scene is a controller with its entity and a journal of what happens.

* `Scene.play`: from a step that is left to the next one that is not over yet. It recurses on the
  steps that are still to come, so an update visits each of them once at most.
* `Scene.update`: one update.
* `Scene.update?`: the same, unless a path cannot be drawn. This is what a program runs.
* `Event`: the entries of the journal.
-/

namespace MotionScript

/-- What happens in an update, in order. -/
inductive Event (β : Type) where
  /-- The current step was over and was left. -/
  | left (index : Nat)
  /-- Playback reached a step. -/
  | reached (index : Nat) (step : Step)
  /-- The entity's animation was switched. -/
  | switched (sequence : Nat)
  /-- The generator was called, with the entity as it was then. -/
  | called (call : Call) (body : β)
  /-- The generator sent a command. -/
  | sent (command : Command)
  /-- Velocity and acceleration were applied for a time, on account of the step with an index. -/
  | drifted (index : Nat) (dt : Scalar)
  /-- The entity was put where its path is at a time, on account of the step with an index. -/
  | followed (index : Nat) (time : Scalar)

/-- The command that an entry reports. -/
def Event.command? {β : Type} : Event β → Option Command
  | sent command => some command
  | _ => none

/-- A controller with the entity that it drives. -/
structure Scene (γ β : Type) where
  controller : Controller γ
  body : β
  /-- What happened, the latest first. -/
  journal : List (Event β) := []

namespace Scene

variable {γ β : Type} [Target β] [Generator γ β]

/-- Enters an event in the journal. -/
def note (s : Scene γ β) (e : Event β) : Scene γ β := { s with journal := e :: s.journal }

/-- Changes the controller alone. -/
def control (s : Scene γ β) (f : Controller γ → Controller γ) : Scene γ β :=
  { s with controller := f s.controller }

/-- What happened, in order. -/
def events (s : Scene γ β) : List (Event β) := s.journal.reverse

/-- The commands that were sent, in order. -/
def sent (s : Scene γ β) : List Command := s.events.filterMap Event.command?

/-! ## The entity -/

/-- Switches the entity's animation. -/
def switch (s : Scene γ β) (sequence : Nat) : Scene γ β :=
  { s with body := Target.animate s.body sequence }.note (.switched sequence)

/-- Calls the generator, if there is one, with the parameters of the last step that set it going. -/
def callGenerator (s : Scene γ β) (delta : Scalar) : Scene γ β :=
  match s.controller.generator with
  | none => s
  | some g =>
    let call : Call := ⟨delta, s.controller.spawn.speed, s.controller.spawn.direction⟩
    let (g, body, commands) := Generator.call g call s.body
    { controller := { s.controller with generator := some g }
      body
      journal := (commands.map .sent).reverse ++ .called call s.body :: s.journal }

/-- Turns the entity along a direction, if its rotation follows its motion. -/
def face (s : Scene γ β) (direction : Vec2) : Scene γ β :=
  if s.controller.faceHeading then { s with body := Target.turnTo s.body direction.angle } else s

/-- Applies velocity and acceleration for a time; nothing happens in no time. -/
def drift (s : Scene γ β) (dt : Scalar) : Scene γ β :=
  if dt ≤ 0 then s
  else
    let way := s.controller.velocity * dt
    let velocity := s.controller.velocity + s.controller.acceleration * dt
    let s : Scene γ β :=
      { controller := { s.controller with velocity }
        body := Target.moveTo s.body (Target.position s.body + .ofPlane way 0)
        journal := .drifted s.controller.step dt :: s.journal }
    if velocity == 0 then s else s.face velocity

/-- Puts the entity where its path is at a time. The depth stays. -/
def follow (s : Scene γ β) (time : Scalar) : Scene γ β :=
  let s : Scene γ β := match s.controller.path.position? time with
    | some p => { s with body := Target.moveTo s.body (.ofPlane p (Target.position s.body).z) }
    | none => s
  let s := match s.controller.path.heading? time with
    | some direction => s.face direction
    | none => s
  s.note (.followed s.controller.step time)

/-- The motion of the current step for `dt` seconds from `start` seconds into it. -/
def advance (s : Scene γ β) (start dt : Scalar) : Scene γ β :=
  match s.controller.mode with
  | .move => s.drift dt
  | .path => s.follow (start + dt)
  | .vanished | .manual => s

/-- The motion of a step that has just been reached, for the time left over from the one before. -/
def overflow (s : Scene γ β) : Scene γ β :=
  s.advance 0 (Scalar.max (Scalar.min s.controller.elapsed s.controller.target) 0)

/-! ## Steps -/

/-- What a step wants of the entity. -/
def deliver (s : Scene γ β) (step : Step) : Scene γ β :=
  match step, step.animation? with
  | _, some n => s.switch n
  | .generate _ _, none =>
    if s.controller.generator.isSome then
      (s.control fun c => { c with activation := .active }).callGenerator 0
    else s
  | _, none => s

/-- Reaches a step; `rest` are the steps behind it. -/
def reach (s : Scene γ β) (rest : List Step) (step : Step) : Scene γ β :=
  ((s.note (.reached s.controller.step step)).control (·.enter rest step)).deliver step

/-- Leaves the current step, whose time is up. -/
def leave (s : Scene γ β) : Scene γ β := (s.note (.left s.controller.step)).control (·.leave)

/-- Plays the steps from the current one on, up to one that is not over yet. At the end of the
sequence the motion of the last step that set one goes on. -/
def play : List Step → Scene γ β → Scene γ β
  | [], s => s.overflow
  | step :: rest, s =>
    let s := s.reach rest step
    if step.IsInstant then play rest (s.control (·.next))
    else if s.controller.isDeletable then s
    else
      let s := s.overflow
      if s.controller.isDue then play rest s.leave else s

/-! ## Updates -/

/-- Hands the entity what a binding has put off. -/
def flush (s : Scene γ β) : Scene γ β :=
  let s := match s.controller.pendingAnimation with
    | some n => (s.control fun c => { c with pendingAnimation := none }).switch n
    | none => s
  match s.controller.activation with
  | .pending => (s.control fun c => { c with activation := .active }).callGenerator 0
  | _ => s

/-- Calls the generator for the time that passes, unless it is dormant or the script has ended. -/
def tick (s : Scene γ β) (delta : Scalar) : Scene γ β :=
  if s.controller.generatorActive ∧ ¬s.controller.isDeletable then s.callGenerator delta else s

/-- The motion of the current step for the part of `delta` that is left to it. The whole of `delta`
counts as spent. -/
def proceed (s : Scene γ β) (delta : Scalar) : Scene γ β :=
  let c := s.controller
  let slice := Scalar.min (Scalar.max (c.target - c.elapsed) 0) delta
  (s.advance c.elapsed slice).control fun c => { c with elapsed := c.elapsed + delta }

/-- Plays on by a time. -/
def playOn (s : Scene γ β) (delta : Scalar) (steps : Sequence) : Scene γ β :=
  let s := s.proceed delta
  if s.controller.isDue ∧ s.controller.step < steps.length then
    play (steps.drop (s.controller.step + 1)) s.leave
  else s

/-- The motion of an entity under manual control. Its clock stops at the duration that was set. -/
def driveManually (s : Scene γ β) (delta : Scalar) : Scene γ β :=
  (s.drift delta).control fun c =>
    { c with elapsed := Scalar.min (c.elapsed + delta) (Scalar.max c.target 0) }

/-- One update: time passes for the generator and for the entity. -/
def update (s : Scene γ β) (delta : Scalar) : Scene γ β :=
  let s := (s.flush).tick delta
  match s.controller.mode with
  | .manual => s.driveManually delta
  | .vanished => s
  | .move | .path =>
    match s.controller.steps? with
    | some steps => s.playOn delta steps
    | none => s

/-- One update, unless the run breaks off at one of the steps that it reaches. -/
def update? (s : Scene γ β) (delta : Scalar) : Option (Scene γ β) :=
  let t := s.update delta
  if t.controller.canReachFrom (s.controller.step + 1) then some t else none

end Scene

end MotionScript
