import MotionScript.Curve.Spline
import MotionScript.Curve.Reduction
import MotionScript.Script.Step

/-!
# Path tables

A path is played from a table of waypoints, each with the time at which it is reached. Times are
proportional to the length of the way, and the last is the duration of the path.

* `PathTable.build`, `PathTable.rebuild`: the table of a list of control points; it is empty only
  without any.
* `PathTable.build?`, `PathTable.rebuild?`: the same with the number of samples checked. These are
  what a program runs: one that does not fit its word, or memory, breaks the run off.
* `PathTable.position?`, `PathTable.heading?`: where the path is at a time, and which way it goes.
* `PathTable.segmentEnd`: the waypoint at the end of the segment of a time, by bisection.
-/

namespace MotionScript

/-- How finely curves are drawn. -/
structure CurveSettings where
  /-- Samples of a spline for each control point. -/
  samplesPerPoint : UInt64 := 16
  /-- The cosine from which on two directions count as one. -/
  threshold : Scalar := 0.999
deriving BEq, DecidableEq, Repr

/-- A point of a path and the time at which it is reached. -/
structure Waypoint where
  position : Vec2
  time : Scalar
deriving BEq, DecidableEq, Repr

/-- A path as the times at which it passes its waypoints. -/
structure PathTable where
  waypoints : Array Waypoint := #[]
deriving BEq, DecidableEq, Repr

namespace PathTable

/-- The table without waypoints. -/
def empty : PathTable := {}

/-- The table without its waypoints. -/
def clear (table : PathTable) : PathTable := { table with waypoints := #[] }

/-- The table with one more waypoint. -/
def push (table : PathTable) (position : Vec2) (time : Scalar) : PathTable :=
  { table with waypoints := table.waypoints.push ⟨position, time⟩ }

/-! ## Outlines -/

/-- The number of samples that a path asks of a spline, if it fits a word of 64 bits. -/
def sampleCount? (settings : CurveSettings) (n : Nat) : Option Nat :=
  let asked := n * settings.samplesPerPoint.toNat
  if asked < UInt64.size then some asked else none

/-- A path through `n` points can be drawn: its samples can be counted, and there is room for them.
Straight segments need no samples. -/
def drawable (n : Nat) (interpolation : Interpolation) (settings : CurveSettings) : Bool :=
  match interpolation with
  | .spline => (sampleCount? settings n).any (Spline.hasRoom n)
  | .linear => true

/-- The polyline of a path, if it can be drawn. -/
def outline? (points : List Vec2) (interpolation : Interpolation) (settings : CurveSettings) :
    Option (List Vec2) :=
  match interpolation with
  | .spline => do
    let count ← sampleCount? settings points.length
    let samples ← Spline.samples? points count
    return Polyline.reduce samples settings.threshold
  | .linear => return Polyline.reduce points settings.threshold

/-- The polyline of a path. One that cannot be drawn has none. -/
def outline (points : List Vec2) (interpolation : Interpolation) (settings : CurveSettings) :
    List Vec2 :=
  (outline? points interpolation settings).getD []

/-! ## Filling -/

/-- Adds points behind `previous` at the lengths of the way to them, counted on from `total`. The
result is the table and the length of the whole way. -/
def pushWay (table : PathTable) (total : Scalar) (previous : Vec2) :
    List Vec2 → PathTable × Scalar
  | [] => (table, total)
  | p :: ps =>
    let total := total + Vec2.distance previous p
    (table.push p total).pushWay total p ps

/-- Adds the points of a polyline at the lengths of the way to them. -/
def measure (table : PathTable) : List Vec2 → PathTable × Scalar
  | [] => (table, 0)
  | p :: ps => (table.push p 0).pushWay 0 p ps

/-- Lengths turned to times by a factor. The last waypoint is reached at the very end. -/
def rescale (table : PathTable) (scale duration : Scalar) : PathTable :=
  let waypoints := table.waypoints.map fun w => { w with time := w.time * scale }
  { table with
    waypoints := waypoints.modify (waypoints.size - 1) fun w => { w with time := duration } }

/-- Fills a table without waypoints from a polyline. A way too short to be divided holds `anchor`
all the time. -/
def fill (table : PathTable) (outline : List Vec2) (anchor : Vec2) (duration : Scalar) :
    PathTable :=
  let duration := Scalar.max duration 0
  let (table, total) := table.measure outline
  if table.waypoints.size < 2 ∨ total ≤ 1e-4 then
    (table.clear.push anchor 0).push anchor duration
  else table.rescale (duration / total) duration

/-- Clears the table and fills it with the outline of control points. -/
def refill (table : PathTable) (points : List Vec2) (duration : Scalar) (outline : List Vec2) :
    PathTable :=
  match points with
  | [] => table.clear
  | anchor :: _ => table.clear.fill outline anchor duration

/-- The table with other control points. Where their path cannot be drawn there is none, and the run
breaks off. -/
def rebuild? (table : PathTable) (points : List Vec2) (duration : Scalar)
    (interpolation : Interpolation) (settings : CurveSettings) : Option PathTable :=
  (outline? points interpolation settings).map (table.refill points duration)

/-- The table with other control points, as in a run that does not break off. -/
def rebuild (table : PathTable) (points : List Vec2) (duration : Scalar)
    (interpolation : Interpolation) (settings : CurveSettings) : PathTable :=
  table.refill points duration (outline points interpolation settings)

/-- The table of the path through control points in a given time, if it can be drawn. -/
def build? (points : List Vec2) (duration : Scalar) (interpolation : Interpolation)
    (settings : CurveSettings) : Option PathTable :=
  empty.rebuild? points duration interpolation settings

/-- The table of the path through control points in a given time. -/
def build (points : List Vec2) (duration : Scalar) (interpolation : Interpolation)
    (settings : CurveSettings) : PathTable :=
  empty.rebuild points duration interpolation settings

/-! ## Reading -/

/-- The time at which the path ends. -/
def duration (table : PathTable) : Scalar := (table.waypoints.back?.map (·.time)).getD 0

/-- A waypoint is reached by a time. -/
def reached (table : PathTable) (time : Scalar) (index : Nat) : Bool :=
  table.waypoints[index]?.any fun w => w.time ≤ time

/-- Bisection of the `size` waypoints from `base` on, the first of them taken as reached: the index
of the last of them that is. -/
def bisect (table : PathTable) (time : Scalar) (base size : Nat) : Nat :=
  if size ≤ 1 then base
  else
    let half := size / 2
    bisect table time (if table.reached time (base + half) then base + half else base) (size - half)
termination_by size

/-- The number of waypoints that are reached by a time. -/
def reachedCount (table : PathTable) (time : Scalar) : Nat :=
  let last := table.bisect time 0 table.waypoints.size
  if table.reached time last then last + 1 else last

/-- The index of the waypoint at the end of the segment of a time. -/
def segmentEnd (table : PathTable) (time : Scalar) : Nat :=
  min (max (table.reachedCount time) 1) (table.waypoints.size - 1)

/-- The two waypoints around a time. -/
def segment? (table : PathTable) (time : Scalar) : Option (Waypoint × Waypoint) := do
  let index := table.segmentEnd time
  let a ← table.waypoints[index - 1]?
  let b ← table.waypoints[index]?
  return (a, b)

/-- Where the path is at a time: at its ends before and after, between two waypoints else. -/
def position? (table : PathTable) (time : Scalar) : Option Vec2 := do
  let first ← table.waypoints[0]?
  let last ← table.waypoints.back?
  if last.time ≤ time then return last.position
  if time ≤ first.time then return first.position
  let (a, b) ← table.segment? time
  let span := b.time - a.time
  if span ≤ 0 then return b.position
  return a.position.lerp b.position ((time - a.time) / span)

/-- The direction in which the path goes at a time. -/
def heading? (table : PathTable) (time : Scalar) : Option Vec2 :=
  if table.waypoints.size < 2 then none
  else do
    let (a, b) ← table.segment? time
    Vec2.unit? (b.position - a.position)

end PathTable

end MotionScript
