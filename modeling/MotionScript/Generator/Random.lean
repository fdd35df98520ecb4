import MotionScript.Scalar.Basic

/-!
# Random numbers

A generator of pseudo-random words: the state advances by a constant, and a word mixes the two
halves of a product of the state.

* `Random.word`: the next word of 64 bits.
* `Random.unit`: the next scalar from zero to below one.
-/

namespace MotionScript

/-- The state of a source of random words. -/
structure Random where
  state : UInt64
deriving DecidableEq, Repr

namespace Random

/-- The next word. -/
def word (r : Random) : UInt64 × Random :=
  let s := r.state + 0x2d358dccaa6c78a5
  let product := s.toNat * (s ^^^ 0x8bb84b93962eacc9).toNat
  (product.toUInt64 ^^^ (product >>> 64).toUInt64, ⟨s⟩)

/-- The next scalar of at most `draws` that is below one; the others round up to one. -/
def unitWithin : (draws : Nat) → Random → Scalar × Random
  | 0, r => (0, r)
  | draws + 1, r =>
    let (w, r) := r.word
    let x := (w >>> 1).toFloat32 * Float32.ofBits 0x20000000
    if 1 ≤ x then unitWithin draws r else (x, r)

/-- The next scalar from zero to below one. The states come round after 2 ^ 64 words, so that many
draws are all there are. -/
def unit (r : Random) : Scalar × Random := unitWithin UInt64.size r

end Random

end MotionScript
