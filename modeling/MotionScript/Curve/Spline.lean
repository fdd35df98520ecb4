import MotionScript.Vec

/-!
# Splines

A path follows the uniform B-spline of its control points. The points before the first and behind
the last are taken equal to them, so the curve starts at the first point and ends at the last.

* `Spline.evaluate`: the point at a parameter, by repeated blending of neighbours. It is generic in
  the numbers, so it can be read over exact ones.
* `Spline.evaluate?`: the same with the numbers of the knots checked.
* `Spline.samples`: points of the cubic spline at even parameters, the last pinned to the last
  control point.
* `Spline.samples?`: the same with the room for them checked.
-/

namespace MotionScript

instance : NatCast Scalar := ⟨Float32.ofNat⟩

instance : IntCast Scalar := ⟨Float32.ofInt⟩

/-- The integers that number the knots of a spline: all of them, or those of a machine word. These
wrap below the least; `Spline.evaluate?` breaks off before. -/
class KnotIndex (I : Type) where
  /-- The knot before. -/
  previous : I → I
  /-- The number of the knot. -/
  toInt : I → Int

instance : KnotIndex Int := ⟨fun i => i - 1, id⟩

instance : KnotIndex Int32 := ⟨fun i => i - 1, Int32.toInt⟩

namespace Spline

variable {I K : Type} [KnotIndex I]

/-- The control point with an index; an index outside means the nearest one inside. -/
def controlPoint [OfNat K 0] (points : Array (Vec K)) (index : Int) : Vec K :=
  (points[(min index (points.size - 1 : Nat)).toNat]?).getD 0

variable [OfNat K 0] [OfNat K 1] [NatCast K] [IntCast K] [Add K] [Sub K] [Mul K] [Div K]

/-- The blend of depth `depth`, at most the degree: a control point at depth zero, else the mean of
the blends of this knot and the knot before, weighted by where the parameter lies. -/
@[specialize]
def blend (degree : Nat) (points : Array (Vec K)) (x : K) : (depth : Nat) → (index : I) → Vec K
  | 0, index => controlPoint points (KnotIndex.toInt index)
  | depth + 1, index =>
    let alpha := (x - (KnotIndex.toInt index : K)) / ((degree - depth : Nat) : K)
    blend degree points x depth (KnotIndex.previous index) * (1 - alpha) +
      blend degree points x depth index * alpha

/-- De Boor evaluation of the uniform B-spline of a degree, at the parameter `x` behind the knot
`index`. The depth is at most the degree. Without control points the spline is zero everywhere,
whatever the parameter is. -/
@[specialize]
def evaluate (depth degree : Nat) (index : I) (x : K) (points : Array (Vec K)) : Vec K :=
  if points.isEmpty then 0 else blend degree points x (min depth degree) index

/-- The same at a knot that is numbered by a word, unless the run breaks off: no knot that is
blended may lie below the word, and the number of knots that a blend spans must fit one of 64
bits. -/
def evaluate? (depth degree : Nat) (index : Int32) (x : K) (points : Array (Vec K)) :
    Option (Vec K) :=
  let blends := min depth degree
  if points.isEmpty ∨ blends = 0 ∨
      degree + 1 < UInt64.size ∧ Int32.minValue.toInt ≤ index.toInt - blends then
    some (evaluate depth degree index x points)
  else none

/-- The parameter of sample `i` of `count`, for `n` control points. -/
def parameter (n count i : Nat) : Scalar :=
  (Float32.ofNat i / Float32.ofNat (count - 1)) * Float32.ofNat (n + 1) + 1

/-- How many samples are taken of `n` control points when `segments` are asked for. -/
def sampleCount (n segments : Nat) : Nat := max (max segments n) 2

/-- The point of the cubic spline at a parameter. -/
def cubic (points : Array Vec2) (x : Scalar) : Vec2 := evaluate 3 3 x.floor x points

/-- Samples of the cubic spline at even parameters, the last pinned to the last control point. -/
def samples (points : List Vec2) (segments : Nat) : List Vec2 :=
  match points.getLast? with
  | none => []
  | some last =>
    let controls := points.toArray
    let count := sampleCount controls.size segments
    (List.range (count - 1)).map (fun i => cubic controls (parameter controls.size count i)) ++
      [last]

/-- A list has room for the samples of `n` control points: they take eight bytes each, and less than
half of all addresses. -/
def hasRoom (n segments : Nat) : Bool := n = 0 ∨ 16 * sampleCount n segments < UInt64.size

/-- The same, unless the run breaks off for want of room. -/
def samples? (points : List Vec2) (segments : Nat) : Option (List Vec2) :=
  if hasRoom points.length segments then some (samples points segments) else none

end Spline

end MotionScript
