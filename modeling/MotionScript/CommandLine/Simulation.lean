import MotionScript.CommandLine.Arguments
import MotionScript.Controller.Description
import MotionScript.Generator.Stock
import MotionScript.Script.Library
import MotionScript.Settings.Config
import MotionScript.World.Basic

/-!
# Simulations

A simulation plays one sequence in a world of its own, frame by frame at a fixed rate, and writes a
trace of the entity. What its generator sends lives in the same world.

* `Simulation.run`: what the command line writes, for its arguments and the files it finds.
* `Simulation.trace`: the lines of the frames.
* `Simulation.run?`, `Simulation.trace?`: the same, unless a path cannot be drawn. This is what
  the command does.
-/

namespace MotionScript

/-- What a command writes and how it ends. -/
structure CommandResult where
  code : Nat := 0
  output : List String := []
  errors : List String := []
deriving DecidableEq, Repr

namespace Simulation

/-- A text set to the right in a width. -/
def padLeft (width : Nat) (text : String) : String :=
  .ofList (List.replicate (width - text.length) ' ') ++ text

/-- The line above the trace. -/
def header : String := "frame   time        x        y  seq step mode"

/-- The line of a frame. -/
def line (frame : Nat) (time : Scalar) (e : Entity Stock) : String :=
  let c := e.controller
  padLeft 5 (toString frame) ++ " " ++ padLeft 6 (time.fixed 2) ++ " " ++
    padLeft 8 (e.sprite.position.x.fixed 2) ++ " " ++ padLeft 8 (e.sprite.position.y.fixed 2) ++
    " " ++ padLeft 4 (toString c.sequence) ++ " " ++ padLeft 4 (toString c.step) ++ " " ++
    c.mode.name ++ if c.isIdle then " (idle)" else ""

/-- The settings of a simulation: those of the file where it can be read, and above them the
arguments. -/
def config (a : Arguments) (file : Except FileError String) : Config :=
  let (c, _) := ({ configPath := a.config } : Config).loadFile file
  { c with
    scriptsPath := a.script.getD c.scriptsPath
    fps := (a.fps.filter (0 < ·)).getD c.fps }

/-- The generator: volleys if there is more than one shot or an interval, else single shots. -/
def generator (a : Arguments) : Stock :=
  if 1 < a.burst ∨ a.every.isSome then
    .burst <| .ofPattern
      { interval := a.every.getD 0
        count := max a.burst 1
        spread := a.spread
        lifetime := a.lifetime }
  else .singleShot a.lifetime

/-- The entity whose trace is written. It has the number 0. -/
def actor (a : Arguments) (c : Config) (script : ScriptSet) : Entity Stock where
  sprite :=
    { position := ⟨a.x, a.y⟩
      depth := some 0
      rotation := some 0
      animation := some {} }
  controller :=
    ((Controller.manual.setCurve c.curve).setGenerator (some (generator a))).bind script a.sequence

/-- The world before the first frame. -/
def world (a : Arguments) (c : Config) (script : ScriptSet) : World Stock :=
  World.add
    { clock := { timeScale := c.timeScale }
      curve := some c.curve
      despawnVanished := true }
    (actor a c script)

/-- Plays `frames` frames behind the one with the number `frame`, or fewer if the entity goes. The
result is the lines, the latest first and on top of those before, and the world as it is then. -/
def trace (dt : Scalar) (every : Nat) :
    (frames frame : Nat) → (lines : List String) → World Stock → List String × World Stock
  | 0, _, lines, w => (lines, w)
  | frames + 1, frame, lines, w =>
    let frame := frame + 1
    let w := (w.frame dt).1
    match w.entity? 0 with
    | none => ((padLeft 5 (toString frame) ++ " actor vanished") :: lines, w)
    | some e =>
      let lines :=
        if 0 < every ∧ frame % every = 0 then line frame w.clock.elapsed e :: lines else lines
      trace dt every frames frame lines w

/-- The same, unless the run breaks off. -/
def trace? (dt : Scalar) (every : Nat) :
    (frames frame : Nat) → (lines : List String) → World Stock → Option (List String × World Stock)
  | 0, _, lines, w => some (lines, w)
  | frames + 1, frame, lines, w => do
    let frame := frame + 1
    let (w, _) ← w.frame? dt
    match w.entity? 0 with
    | none => return ((padLeft 5 (toString frame) ++ " actor vanished") :: lines, w)
    | some e =>
      let lines :=
        if 0 < every ∧ frame % every = 0 then line frame w.clock.elapsed e :: lines else lines
      trace? dt every frames frame lines w

/-- What is written of a simulation: a line above the trace, the trace, of which the latest line
comes first, and the number of entities besides the one that is traced. -/
def summary (lines : List String) (w : World Stock) : List String :=
  let alive := (w.entities.filter (·.1 != 0)).length
  header :: lines.reverse ++ ["spawned entities alive: " ++ toString alive]

/-- The lines of a simulation. -/
def simulate (a : Arguments) (c : Config) (script : ScriptSet) : List String :=
  let (lines, w) := trace c.frameDelta a.traceEvery a.frames 0 [] (world a c script)
  summary lines w

/-- The same, unless the run breaks off: at the binding of the entity or in a frame. -/
def simulate? (a : Arguments) (c : Config) (script : ScriptSet) : Option (List String) := do
  guard ((actor a c script).controller.canReachFrom 0)
  let (lines, w) ← trace? c.frameDelta a.traceEvery a.frames 0 [] (world a c script)
  return summary lines w

/-- A failure with one line of explanation. -/
def failure (text : String) : CommandResult := { code := 1, errors := [text] }

/-- The script of a library that the arguments ask for, if its sequence is there. -/
def choose (a : Arguments) (library : ScriptLibrary) : Except CommandResult ScriptSet :=
  match a.list.elim library.first? library.get? with
  | none => .error (failure ("Error: script list " ++ a.list.getD "<first>" ++ " not found"))
  | some script =>
    if script.sequences.length ≤ a.sequence then
      .error (failure ("Error: '" ++ script.name ++ "' has " ++ toString script.sequences.length ++
        " sequence(s), no index " ++ toString a.sequence))
    else .ok script

/-- The line of a set in the list of names. -/
def nameLine (s : ScriptSet) : String :=
  s.name ++ " (" ++ toString s.sequences.length ++ " sequence(s))"

/-- The script that is to be played with its settings, or the result where none is. -/
def prepare (a : Arguments) (file : String → Except FileError String) :
    Except CommandResult (Config × ScriptSet) :=
  let c := config a (file a.config)
  match Document.load (file c.scriptsPath) with
  | .error e =>
    .error (failure ("Error loading scripts from " ++ c.scriptsPath ++ ": " ++ e.message))
  | .ok sets =>
    let library := ScriptLibrary.ofList sets
    if a.names then .error { output := library.sets.map nameLine }
    else (choose a library).map (c, ·)

/-- What the command line writes, where `file` gives the texts of the files. -/
def run (a : Arguments) (file : String → Except FileError String) : CommandResult :=
  match prepare a file with
  | .error result => result
  | .ok (c, script) => { output := simulate a c script }

/-- The same, unless the run breaks off. This is what the command does. -/
def run? (a : Arguments) (file : String → Except FileError String) : Option CommandResult :=
  match prepare a file with
  | .error result => some result
  | .ok (c, script) => (simulate? a c script).map ({ output := · })

end Simulation

end MotionScript
