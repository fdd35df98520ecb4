import MotionScript.Scalar.Angle

/-!
# Vectors

Points and vectors of the plane, over any numbers, and the points of the space in which bodies
stand. The screen's second coordinate grows downwards, while an angle of 90 degrees points up.

* `Vec`: the plane, with sums, differences and multiples.
* `Vec2.unit?`: the direction of a vector, where it has one.
* `Vec2.ofAngle`, `Vec2.angle`: between angles in degrees and vectors of the screen.
-/

namespace MotionScript

/-- A point or vector of the plane over the numbers `K`. -/
structure Vec (K : Type) where
  x : K
  y : K
deriving BEq, DecidableEq, Repr

namespace Vec

variable {K : Type}

instance [Add K] : Add (Vec K) := ⟨fun a b => ⟨a.x + b.x, a.y + b.y⟩⟩

instance [Sub K] : Sub (Vec K) := ⟨fun a b => ⟨a.x - b.x, a.y - b.y⟩⟩

instance [Mul K] : HMul (Vec K) K (Vec K) := ⟨fun a s => ⟨a.x * s, a.y * s⟩⟩

instance [OfNat K 0] : OfNat (Vec K) 0 := ⟨⟨0, 0⟩⟩

/-- The inner product. -/
def dot [Mul K] [Add K] (a b : Vec K) : K := a.x * b.x + a.y * b.y

/-- The point that lies `s` of the way from `a` to `b`. -/
def lerp [Add K] [Sub K] [Mul K] (a b : Vec K) (s : K) : Vec K := a + (b - a) * s

end Vec

/-- A point or vector of the screen. -/
abbrev Vec2 := Vec Scalar

namespace Vec2

/-- The length of a vector. -/
def length (v : Vec2) : Scalar := (v.dot v).sqrt

/-- The distance of two points. -/
def distance (a b : Vec2) : Scalar := length (a - b)

/-- The vector of length one in the direction of `v`. A vector that is too short, too long or not
finite has none. -/
def unit? (v : Vec2) : Option Vec2 :=
  let r := 1 / length v
  if r.isFinite ∧ 0 < r then some (v * r) else none

/-- The vector of the screen with an angle in degrees and a length. -/
def ofAngle (degrees magnitude : Scalar) : Vec2 :=
  let radians := degrees.toRadians
  (⟨radians.cos, -radians.sin⟩ : Vec2) * magnitude

/-- The angle of a vector of the screen, in degrees. -/
def angle (v : Vec2) : Scalar := (Scalar.atan2 (-v.y) v.x).toDegrees

end Vec2

/-- A point of the screen with a depth. -/
structure Vec3 where
  x : Scalar
  y : Scalar
  z : Scalar
deriving BEq, DecidableEq, Repr

namespace Vec3

/-- The point of the screen. -/
def plane (p : Vec3) : Vec2 := ⟨p.x, p.y⟩

/-- A point of the screen at a depth. -/
def ofPlane (p : Vec2) (z : Scalar) : Vec3 := ⟨p.x, p.y, z⟩

instance : Add Vec3 := ⟨fun a b => ⟨a.x + b.x, a.y + b.y, a.z + b.z⟩⟩

end Vec3

end MotionScript
