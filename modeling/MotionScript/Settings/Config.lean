import MotionScript.Curve.PathTable
import MotionScript.Decimal.Layout
import MotionScript.Decimal.Numeral
import MotionScript.Settings.Ini
import MotionScript.Text.File

/-!
# Configuration

The settings of a simulation, and how they are read from INI text and saved. A setting that is
missing, malformed or out of range leaves its field as it is.

* `Config.apply`: a configuration with the settings of a text.
* `Config.loadText`, `Config.loadFile`: loading. What comes of it is told beside the configuration.
* `Config.render`: the text that is saved.
-/

namespace MotionScript

/-- The settings of a simulation. -/
structure Config where
  /-- The file with the scripts. -/
  scriptsPath : String := "./assets/actions.json"
  /-- Frames in a second. -/
  fps : UInt32 := 60
  /-- The speed of the simulation's clock. -/
  timeScale : Scalar := 1
  /-- How finely curves are drawn. -/
  curve : CurveSettings := {}
  /-- The file with the settings. -/
  configPath : String := "./config.ini"
deriving BEq, DecidableEq, Repr

/-- Why settings were not read or saved. -/
inductive ConfigError where
  /-- A text is malformed. -/
  | malformed (e : IniError)
  /-- The file at a path is malformed. -/
  | malformedFile (path : String) (e : IniError)
  /-- The file at a path cannot be read. -/
  | unreadable (path : String) (e : FileError)
  /-- The file cannot be written. -/
  | unwritable (e : FileError)
deriving DecidableEq, Repr

/-- The wording of an error. -/
def ConfigError.message : ConfigError → String
  | malformed e => "Failed to parse config: " ++ e.message
  | malformedFile path e =>
    "Failed to load config file: couldn't read " ++ path ++ ": " ++ e.message
  | unreadable path e =>
    "Failed to load config file: couldn't read " ++ path ++ ": " ++ e.message
  | unwritable e => "Failed to save config file: " ++ e.message

namespace Config

/-- A setting that is a whole number of 64 bits other than zero. -/
def positive? (ini : Ini) (heading key : String) : Option Nat := do
  let n ← natural? UInt64.size (← ini.get? heading key).toList
  if 0 < n then some n else none

/-- A setting that is a number in a range. The range is checked before the number is rounded to a
scalar. -/
def number? (ini : Ini) (heading key : String) (inRange : Float → Bool) : Option Scalar := do
  let x := (← Numeral.read? (← ini.get? heading key).toList).toFloat
  if inRange x then some (Scalar.narrow x) else none

/-- The configuration with the settings of a text where it has them. The frame rate is cut to 32
bits. -/
def apply (c : Config) (ini : Ini) : Config where
  scriptsPath := (ini.get? "scripts" "path").getD c.scriptsPath
  fps := ((positive? ini "simulation" "fps").map Nat.toUInt32).getD c.fps
  timeScale := (number? ini "simulation" "time_scale" fun x => 0 ≤ x).getD c.timeScale
  curve :=
    { samplesPerPoint :=
        ((positive? ini "path" "samples_per_point").map Nat.toUInt64).getD c.curve.samplesPerPoint
      threshold :=
        (number? ini "path" "collinear_threshold" fun x => 0 < x ∧ x ≤ 1).getD c.curve.threshold }
  configPath := c.configPath

/-- Takes over what has been read: its settings, or nothing on an error. The result is the
configuration as it is then, with what came of the reading. -/
def take (c : Config) : Except ConfigError Ini → Config × Except ConfigError Unit
  | .ok ini => (c.apply ini, .ok ())
  | .error e => (c, .error e)

/-- Loads the settings of a text. -/
def loadText (c : Config) (text : String) : Config × Except ConfigError Unit :=
  c.take ((Ini.parse text).mapError .malformed)

/-- Loads the settings of the configuration's file, from its text or the reason why it has none. -/
def loadFile (c : Config) (file : Except FileError String) : Config × Except ConfigError Unit :=
  c.take do
    let text ← file.mapError (.unreadable c.configPath)
    (Ini.parse text).mapError (.malformedFile c.configPath)

/-- Numbers in settings: never an exponent, and a point only where it is needed. -/
def number : Layout where
  wholePoint := false
  positional := fun _ => true
  infinity := "inf"
  notANumber := "NaN"

/-- The sections that are saved. -/
def sections (c : Config) : List (String × List (String × String)) :=
  [("scripts", [("path", c.scriptsPath)]),
    ("simulation", [("fps", toString c.fps.toNat), ("time_scale", number.render c.timeScale)]),
    ("path", [("samples_per_point", toString c.curve.samplesPerPoint.toNat),
      ("collinear_threshold", number.render c.curve.threshold)])]

/-- The text that is saved. -/
def render (c : Config) : String := Ini.render c.sections

/-- The length of a frame in seconds of real time. -/
def frameDelta (c : Config) : Scalar := 1 / Float32.ofNat (max c.fps.toNat 1)

end Config

end MotionScript
