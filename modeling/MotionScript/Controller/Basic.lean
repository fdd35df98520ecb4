import MotionScript.Curve.PathTable
import MotionScript.Generator.Basic

/-!
# Controllers

A controller plays one sequence of a script for one entity. Here is its state, what each step does
to it, and the operations of its owner; the passing of time is in `MotionScript.Controller.Playback`.

* `Controller.enter`: what reaching a step does to the controller.
* `Controller.scan`: the steps of a binding up to the first one that takes time. There is no entity
  at hand yet, so what concerns it is put off.
* `Controller.bind`, `Controller.selectSequence`: bindings; they start playback anew.
* `Controller.bind?`, `Controller.selectSequence?`: the same, unless a path cannot be drawn.
  These are what a program runs.
* `Controller.manualMove`, `Controller.manualAccelerate`, `Controller.manualTime`: the owner takes
  over.
-/

namespace MotionScript

/-- What drives the entity. -/
inductive Mode where
  /-- Velocity and acceleration. -/
  | move
  /-- A path table. -/
  | path
  /-- Nothing: the script has ended it. -/
  | vanished
  /-- Velocity and acceleration, set by the owner; the script stands still. -/
  | manual
deriving DecidableEq, Repr

/-- Whether the generator runs. -/
inductive Activation where
  | dormant
  /-- A step has set it going, but it has not been called yet. -/
  | pending
  | active
deriving DecidableEq, Repr

/-- The parameters of the last step that sets a generator going. -/
structure SpawnParams where
  speed : Scalar := 0
  direction : Scalar := 0
deriving BEq, DecidableEq, Repr

/-- The state of playback, with a generator of type `γ` if there is one. -/
structure Controller (γ : Type) where
  script : Option ScriptSet := none
  /-- The index of the sequence in the script. -/
  sequence : Nat := 0
  /-- The index of the current step. -/
  step : Nat := 0
  mode : Mode := .manual
  /-- Seconds spent in the current step. -/
  elapsed : Scalar := 0
  /-- The duration of the current step. -/
  target : Scalar := 0
  velocity : Vec2 := 0
  acceleration : Vec2 := 0
  path : PathTable := .empty
  curve : CurveSettings := {}
  /-- The rotation of the entity follows its motion. -/
  faceHeading : Bool := false
  generator : Option γ := none
  activation : Activation := .dormant
  spawn : SpawnParams := {}
  /-- The animation that waits for the next update. -/
  pendingAnimation : Option Nat := none

namespace Controller

variable {γ : Type}

/-- The controller without a script. -/
def manual : Controller γ := {}

/-! ## Queries -/

/-- The steps of the sequence that is played, if there is one. -/
def steps? (c : Controller γ) : Option Sequence := c.script.bind (·.sequence? c.sequence)

/-- Playback has run past the last step. -/
def isIdle (c : Controller γ) : Bool := c.steps?.all fun steps => steps.length ≤ c.step

/-- The script has ended the entity. -/
def isDeletable (c : Controller γ) : Bool := c.mode == .vanished

/-- The generator is called in every update. -/
def generatorActive (c : Controller γ) : Bool := c.activation != .dormant

/-- A step ends this many seconds early, so that times that do not add up exactly still end it in
the update that is meant. -/
def timeTolerance : Scalar := 1e-4

/-- The time of the current step is up. -/
def isDue (c : Controller γ) : Bool := c.target ≤ c.elapsed + timeTolerance

/-! ## Steps -/

/-- What reaching a step does to the controller; `rest` are the steps behind it. -/
def enter (rest : List Step) (c : Controller γ) : Step → Controller γ
  | .move direction speed => { c with velocity := .ofAngle direction speed, mode := .move }
  | .accelerate direction amount =>
    { c with acceleration := .ofAngle direction amount, mode := .move }
  | .wait duration => { c with target := Scalar.max duration 0, mode := .move }
  | .path duration count interpolation =>
    { c with
      path := c.path.rebuild (Step.controlPoints count rest) duration interpolation c.curve
      target := Scalar.max duration 0
      mode := .path }
  | .point _ => c
  | .vanish => { c with mode := .vanished }
  | .generate speed direction => { c with spawn := ⟨speed, direction⟩ }
  | .animate _ => c

/-- Puts off what a step wants of the entity until there is one. -/
def defer (c : Controller γ) (step : Step) : Controller γ :=
  match step, step.animation? with
  | _, some n => { c with pendingAnimation := some n }
  | .generate _ _, none => if c.generator.isSome then { c with activation := .pending } else c
  | _, none => c

/-- The current step is done with. -/
def next (c : Controller γ) : Controller γ := { c with step := c.step + 1 }

/-- The current step is over: its time is taken off, and the next step is the current one. -/
def leave (c : Controller γ) : Controller γ :=
  { c with elapsed := c.elapsed - c.target, target := 0, step := c.step + 1 }

/-- Runs through the steps from the current one on, up to the first that takes time. -/
def scan : List Step → Controller γ → Controller γ
  | [], c => c
  | step :: rest, c =>
    let c := (c.enter rest step).defer step
    if step.IsInstant then scan rest c.next else c

/-! ## Bindings -/

/-- The controller as a binding leaves it before its first step. -/
def reset (c : Controller γ) : Controller γ :=
  { c with
    step := 0
    elapsed := 0
    target := 0
    velocity := 0
    acceleration := 0
    path := c.path.clear
    mode := .move
    activation := .dormant
    pendingAnimation := none }

/-- Starts the sequence anew. -/
def restart (c : Controller γ) : Controller γ :=
  match c.steps? with
  | some steps => scan steps c.reset
  | none => c.reset

/-- Plays a sequence of a script from its start. Without that sequence nothing changes. -/
def bind (c : Controller γ) (script : ScriptSet) (sequence : Nat) : Controller γ :=
  if sequence < script.sequences.length then
    restart { c with script := some script, sequence }
  else c

/-- Plays another sequence of the same script from its start. Without it nothing changes. -/
def selectSequence (c : Controller γ) (sequence : Nat) : Controller γ :=
  match c.script with
  | some script =>
    if sequence < script.sequences.length then restart { c with sequence } else c
  | none => c

/-! ## Overflow -/

/-- Reaching the step with an index does not break the run off: the step is no path, or one that can
be drawn. -/
def canReach (c : Controller γ) (index : Nat) : Bool :=
  match (c.steps?.getD []).drop index with
  | .path _ count interpolation :: rest =>
    PathTable.drawable (Step.controlPoints count rest).length interpolation c.curve
  | _ => true

/-- The steps from the one with an index up to the current one can be reached. -/
def canReachFrom (c : Controller γ) (start : Nat) : Bool :=
  (List.range' start (c.step + 1 - start)).all c.canReach

/-- A binding, unless the run breaks off at one of the steps that it reaches. -/
def bind? (c : Controller γ) (script : ScriptSet) (sequence : Nat) : Option (Controller γ) :=
  let d := c.bind script sequence
  if script.sequences.length ≤ sequence ∨ d.canReachFrom 0 then some d else none

/-- A binding to another sequence of the same script, unless the run breaks off. -/
def selectSequence? (c : Controller γ) (sequence : Nat) : Option (Controller γ) :=
  match c.script with
  | some script => c.bind? script sequence
  | none => some c

/-! ## Manual control -/

/-- The owner takes over; velocity and acceleration stay. -/
def enterManual (c : Controller γ) : Controller γ := { c with mode := .manual, path := c.path.clear }

/-- The owner takes over and sets the velocity. -/
def manualMove (c : Controller γ) (direction speed : Scalar) : Controller γ :=
  { c.enterManual with velocity := .ofAngle direction speed }

/-- The owner takes over and sets the acceleration. -/
def manualAccelerate (c : Controller γ) (direction amount : Scalar) : Controller γ :=
  { c.enterManual with acceleration := .ofAngle direction amount }

/-- The owner takes over and sets a duration, which ends nothing. -/
def manualTime (c : Controller γ) (duration : Scalar) : Controller γ :=
  { c.enterManual with target := duration, elapsed := 0 }

/-! ## Settings -/

/-- Attaches a generator, or takes it away. One that takes the place of another goes on as that
one did. -/
def setGenerator (c : Controller γ) (generator : Option γ) : Controller γ :=
  { c with generator, activation := if generator.isSome then c.activation else .dormant }

/-- Sets how finely curves are drawn from now on. -/
def setCurve (c : Controller γ) (curve : CurveSettings) : Controller γ := { c with curve }

/-- Sets whether the rotation follows the motion. -/
def setFaceHeading (c : Controller γ) (faceHeading : Bool) : Controller γ := { c with faceHeading }

end Controller

end MotionScript
