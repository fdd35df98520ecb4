import MotionScript.Main
import MotionScript.Proofs.CommandLine.Trace
import MotionScript.Proofs.Curve.Cubic
import MotionScript.Proofs.Curve.Locality
import MotionScript.Proofs.Curve.Lookup
import MotionScript.Proofs.Curve.PathTable
import MotionScript.Proofs.Curve.Sampling
import MotionScript.Proofs.Curve.Shape
import MotionScript.Proofs.Curve.Spacing
import MotionScript.Proofs.Curve.Times
import MotionScript.Proofs.Generator.Cadence
import MotionScript.Proofs.Generator.CatchUp
import MotionScript.Proofs.Generator.Jitter
import MotionScript.Proofs.Generator.Shots
import MotionScript.Proofs.Playback.Activation
import MotionScript.Proofs.Playback.Boundaries
import MotionScript.Proofs.Playback.Calls
import MotionScript.Proofs.Playback.Completion
import MotionScript.Proofs.Playback.ControlPoints
import MotionScript.Proofs.Playback.Coverage
import MotionScript.Proofs.Playback.Effects
import MotionScript.Proofs.Playback.Following
import MotionScript.Proofs.Playback.Footprint
import MotionScript.Proofs.Playback.Frozen
import MotionScript.Proofs.Playback.History
import MotionScript.Proofs.Playback.Idle
import MotionScript.Proofs.Playback.Overflow
import MotionScript.Proofs.Playback.Playhead
import MotionScript.Proofs.Playback.Reached
import MotionScript.Proofs.Playback.Rebinding
import MotionScript.Proofs.Playback.Settled
import MotionScript.Proofs.Playback.Timeline
import MotionScript.Proofs.Playback.Vanishing
import MotionScript.Proofs.Playback.Waypoints
import MotionScript.Proofs.Scalar.Grid
import MotionScript.Proofs.Scalar.Monotone
import MotionScript.Proofs.Scalar.Order
import MotionScript.Proofs.Scalar.Parts
import MotionScript.Proofs.Scalar.Rounding
import MotionScript.Proofs.Scalar.Sum
import MotionScript.Proofs.Script.Document
import MotionScript.Proofs.Script.Library
import MotionScript.Proofs.Script.RoundTrip
import MotionScript.Proofs.Settings.Fields
import MotionScript.Proofs.Settings.RoundTrip
import MotionScript.Proofs.World.Independence
import MotionScript.Proofs.World.Lifetime
import MotionScript.Proofs.World.Marks
import MotionScript.Proofs.World.Overflow
import MotionScript.Proofs.World.Requests
import MotionScript.Proofs.World.Revival
import MotionScript.Proofs.World.Run
import MotionScript.Proofs.World.Stillness
