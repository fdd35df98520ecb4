import MotionScript.Vec

/-!
# Reduction of polylines

A dense polyline is thinned to the points at which it bends. Points too close to their predecessor
are merged first, because the direction of so short a step is mostly rounding. Then a point stays
if the direction behind it departs from the direction in which it was reached from the last point
that stayed.

* `Polyline.distinct`: what is left of the points after merging.
* `Polyline.reduce`: the first point, the bends and the last point.
-/

namespace MotionScript.Polyline

/-- The shortest step whose direction is trusted: it grows with the coordinates. -/
def tolerance (points : List Vec2) : Scalar :=
  let extent := points.foldl
    (fun acc p => Scalar.max acc (Scalar.max (Float32.abs p.x) (Float32.abs p.y))) 0
  Scalar.max 1e-3 (extent * 2e-4)

/-- The points farther than `tol` from the last one that is kept, which is `previous` at first. -/
def merge (tol : Scalar) : (previous : Vec2) → List Vec2 → List Vec2
  | _, [] => []
  | previous, p :: ps =>
    if tol < Vec2.distance previous p then p :: merge tol p ps else merge tol previous ps

/-- A list without the points at its end that are within `tol` of `last`. -/
def trim (tol : Scalar) (last : Vec2) (points : List Vec2) : List Vec2 :=
  (points.reverse.dropWhile fun p => Vec2.distance p last ≤ tol).reverse

/-- The points between the ends that are left after merging. -/
def distinct (tol : Scalar) (first : Vec2) (inner : List Vec2) (last : Vec2) : List Vec2 :=
  trim tol last (merge tol first inner)

/-- The points, all but the last, behind which the polyline turns away from the direction in which
they are seen from the last bend before, at first `anchor`. The threshold is the cosine from which
on a turn is none. A point at which one of the directions cannot be told is none either. -/
def bends (threshold : Scalar) : (anchor : Vec2) → List Vec2 → List Vec2
  | anchor, current :: next :: rest =>
    match Vec2.unit? (next - current), Vec2.unit? (current - anchor) with
    | some heading, some running =>
      if heading.dot running < threshold then current :: bends threshold current (next :: rest)
      else bends threshold anchor (next :: rest)
    | _, _ => bends threshold anchor (next :: rest)
  | _, _ => []

/-- The polyline through the ends and the bends. -/
def reduce (points : List Vec2) (threshold : Scalar) : List Vec2 :=
  match points with
  | [] => []
  | [p] => [p]
  | first :: p :: rest =>
    let last := (p :: rest).getLast (List.cons_ne_nil p rest)
    let kept := distinct (tolerance points) first (p :: rest).dropLast last
    first :: bends threshold first (kept ++ [last]) ++ [last]

end MotionScript.Polyline
