import MotionScript.Proofs.Curve.Knots

/-!
# Local control of splines

Moving a control point moves a spline only where the point is read: an evaluation reads the control points of a few
neighbouring knots, so that a sample whose knot is not among those that read the point that was moved stays as it is,
bit for bit.

* `Guarded`, `evaluate_guarded`: the same evaluation over numbers whose division fails at zero. It never fails.
* `getElem?_samples`: the samples one by one.
* `agree_of_moved`: the knots whose blends do not read a control point that was moved.
* `local_control`: what evaluations and samples depend on.
-/

namespace MotionScript

open Scalar

/-! ## Numbers whose division fails at zero -/

/-- A scalar, unless there was a division by zero on the way to it. -/
structure Guarded where
  value? : Option Scalar

namespace Guarded

def ofScalar (x : Scalar) : Guarded := ⟨some x⟩

def ofVec (p : Vec2) : Vec Guarded := ⟨ofScalar p.x, ofScalar p.y⟩

/-- An operation that cannot fail itself. -/
def lift (f : Scalar → Scalar → Scalar) (a b : Guarded) : Guarded := ⟨do return f (← a.value?) (← b.value?)⟩

instance : OfNat Guarded 0 := ⟨ofScalar 0⟩

instance : OfNat Guarded 1 := ⟨ofScalar 1⟩

instance : NatCast Guarded := ⟨fun n => ofScalar n⟩

instance : IntCast Guarded := ⟨fun n => ofScalar n⟩

instance : Add Guarded := ⟨lift (· + ·)⟩

instance : Sub Guarded := ⟨lift (· - ·)⟩

instance : Mul Guarded := ⟨lift (· * ·)⟩

instance : Div Guarded where
  div a b := ⟨do
    let y ← b.value?
    if y == 0 then none else return (← a.value?) / y⟩

theorem ofScalar_div {x y : Scalar} (h : ¬y == 0) : ofScalar x / ofScalar y = ofScalar (x / y) := by
  show Guarded.mk (if y == 0 then none else some (x / y)) = ofScalar (x / y)
  rw [if_neg h]
  rfl

end Guarded

/-- A positive whole number is not rounded to zero. -/
theorem Scalar.ofNat_ne_zero {n : ℕ} (h : 0 < n) : ¬Float32.ofNat n == 0 := by
  obtain ⟨u, hu, hholds⟩ := ofNat_holds n
  have hone : 1 ≤ nearest (n : ℚ) := by
    rw [← nearest_one]
    exact nearest_mono (by exact_mod_cast h)
  rw [hu]
  intro hzero
  obtain ⟨s, hs⟩ := beq_zero_iff.1 hzero
  obtain ⟨hf, hval⟩ := toRat_of_zero hs
  rw [hholds.toRat_of_isFinite hf] at hval
  linarith

namespace Spline

open Guarded

variable {I : Type} [KnotIndex I]

theorem controlPoint_guarded (points : Array Vec2) (index : ℤ) :
    controlPoint (points.map ofVec) index = ofVec (controlPoint points index) := by
  unfold controlPoint
  rw [Array.size_map, Array.getElem?_map]
  cases points[(min index (points.size - 1 : ℕ)).toNat]? with
  | none => rfl
  | some p => rfl

theorem blend_guarded {degree depth : ℕ} (h : depth ≤ degree) (points : Array Vec2) (x : Scalar) (index : I) :
    blend degree (points.map ofVec) (ofScalar x) depth index = ofVec (blend degree points x depth index) := by
  induction depth generalizing index with
  | zero => exact controlPoint_guarded points _
  | succ depth ih =>
    have hspan : ¬((degree - depth : ℕ) : Scalar) == 0 := ofNat_ne_zero (by omega)
    have hweight : (ofScalar x - ((KnotIndex.toInt index : ℤ) : Guarded)) / ((degree - depth : ℕ) : Guarded) =
        ofScalar ((x - (KnotIndex.toInt index : Scalar)) / ((degree - depth : ℕ) : Scalar)) := ofScalar_div hspan
    unfold blend
    dsimp only
    rw [hweight, ih (by omega), ih (by omega)]
    rfl

/-- **No evaluation divides by zero**: over numbers whose division fails at zero it gives the same point. -/
theorem evaluate_guarded (depth degree : ℕ) (index : I) (x : Scalar) (points : Array Vec2) :
    evaluate depth degree index (ofScalar x) (points.map ofVec) = ofVec (evaluate depth degree index x points) := by
  have hempty : (points.map ofVec).isEmpty = points.isEmpty := by
    unfold Array.isEmpty
    rw [Array.size_map]
  unfold evaluate
  rw [hempty, blend_guarded (Nat.min_le_right _ _)]
  split
  · rfl
  · rfl

/-! ## Samples -/

/-- **The samples one by one**: points of the cubic spline, and the last control point. -/
theorem getElem?_samples {points : List Vec2} (h : points ≠ []) (segments k : ℕ) :
    let count := sampleCount points.length segments
    (samples points segments)[k]? =
      if k + 1 < count then some (cubic points.toArray (parameter points.length count k))
      else if k + 1 = count then points.getLast? else none := by
  intro count
  have hcount : 2 ≤ count := le_max_right _ _
  obtain ⟨last, hlast⟩ : ∃ last, points.getLast? = some last := ⟨_, List.getLast?_eq_some_getLast h⟩
  have hsamples : samples points segments =
      (List.range (count - 1)).map (fun i => cubic points.toArray (parameter points.length count i)) ++ [last] := by
    unfold samples
    rw [hlast]
    rfl
  rw [hsamples, hlast]
  split
  · next hlt =>
    rw [List.getElem?_append_left (by simp; omega), List.getElem?_map, List.getElem?_range (by omega)]
    rfl
  · split
    · next heq =>
      rw [List.getElem?_append_right (by simp; omega)]
      simp [← heq]
    · rw [List.getElem?_eq_none (by simp; omega)]

/-- A sample's parameter is one at least, and its knot is the one at its integer part, or the last of the word. -/
theorem toInt_floor_parameter {n count k : ℕ} (hn : n < 2 ^ 31) (hcount : count ≤ 2 ^ 64) (hk : k + 1 < count) :
    1 ≤ (parameter n count k).floor.toInt ∧
      (parameter n count k).floor.toInt = min ⌊(parameter n count k).toRat⌋ (2 ^ 31 - 1) := by
  obtain ⟨hfinite, hone, -⟩ := parameter_bounds hn hcount (by omega : k < count - 1)
  have hfloor := toInt_floor hfinite (by linarith)
  have hbelow : 1 ≤ ⌊(parameter n count k).toRat⌋ := Int.le_floor.2 (by exact_mod_cast hone)
  omega

/-- **The knots that do not read a control point**: those before it, and those from the fourth one behind it on. -/
theorem agree_of_moved {points points' : List Vec2} {j : ℕ} (h0 : 0 < j) (hlast : j + 1 < points.length)
    (h : ∀ i, i ≠ j → points[i]? = points'[i]?) {knot : ℤ} (hknot : knot < j ∨ j + 3 < knot) :
    Agree points.toArray points'.toArray (clamped points.length (knot - 3)) (clamped points.length knot) := by
  intro i hlow hhigh
  rw [List.getElem?_toArray, List.getElem?_toArray]
  apply h
  unfold clamped at hlow hhigh
  omega

/-- A sample stays as it is if its knot does not read the control point that was moved. -/
theorem samples_congr {points points' : List Vec2} (hlength : points.length = points'.length)
    (hn : points.length < 2 ^ 31) {segments : ℕ} (hsegments : segments < 2 ^ 64) {j : ℕ} (h0 : 0 < j)
    (hlast : j + 1 < points.length) (h : ∀ i, i ≠ j → points[i]? = points'[i]?) {k : ℕ} {knot : ℤ}
    (hknot : knot = (parameter points.length (sampleCount points.length segments) k).floor.toInt)
    (hout : knot < j ∨ j + 3 < knot) : (samples points segments)[k]? = (samples points' segments)[k]? := by
  have hne : points ≠ [] := List.ne_nil_of_length_pos (by omega)
  have hne' : points' ≠ [] := List.ne_nil_of_length_pos (by omega)
  have hend : points.getLast? = points'.getLast? := by
    rw [List.getLast?_eq_getElem?, List.getLast?_eq_getElem?, ← hlength]
    exact h _ (by omega)
  rw [getElem?_samples hne, getElem?_samples hne', ← hlength, hend]
  split
  · next hk =>
    obtain ⟨hone, -⟩ := toInt_floor_parameter hn (sampleCount_le hn hsegments.le) hk
    have hagree := agree_of_moved h0 hlast h hout
    rw [hknot] at hagree
    exact congrArg some (evaluate_congr (by omega) hlength hagree)
  · rfl

/-- **Local control.** An evaluation, whose depth counts up to the degree only, is the same for two lists of points of
one length that agree from the position of its lowest knot to that of its own, as long as the lowest knot is not below
the word; and no division in it is by zero. A spline of which one control point between the ends is moved keeps every
sample whose knot, which is the integer part of its parameter as far as the word reaches, is before the point or more
than three behind it. -/
theorem local_control :
    (∀ (depth degree : ℕ) (index : Int32) (x : Scalar) (points points' : Array Vec2),
      -2 ^ 31 ≤ index.toInt - (min depth degree : ℕ) → points.size = points'.size →
      Agree points points' (clamped points.size (index.toInt - (min depth degree : ℕ)))
        (clamped points.size index.toInt) →
      evaluate depth degree index x points = evaluate depth degree index x points') ∧
    (∀ (depth degree : ℕ) (index : Int32) (x : Scalar) (points : Array Vec2),
      evaluate depth degree index (ofScalar x) (points.map ofVec) = ofVec (evaluate depth degree index x points)) ∧
    ∀ (points points' : List Vec2) (segments j : ℕ), points.length = points'.length → points.length < 2 ^ 31 →
      segments < 2 ^ 64 → 0 < j → j + 1 < points.length → (∀ i, i ≠ j → points[i]? = points'[i]?) →
      ∀ k, let count := sampleCount points.length segments
        let x := parameter points.length count k
        (k + 1 < count → x.floor.toInt = min ⌊x.toRat⌋ (2 ^ 31 - 1)) ∧
        (x.floor.toInt < j ∨ j + 3 < x.floor.toInt →
          (samples points segments)[k]? = (samples points' segments)[k]?) := by
  refine ⟨fun _ _ _ _ _ _ hindex hsize hagree => evaluate_congr hindex hsize hagree,
    fun depth degree index x points => evaluate_guarded depth degree index x points, ?_⟩
  intro points points' segments j hlength hn hsegments h0 hlast h k count x
  exact ⟨fun hk => (toInt_floor_parameter hn (sampleCount_le hn hsegments.le) hk).2,
    fun hout => samples_congr hlength hn hsegments h0 hlast h rfl hout⟩

/-- Moving the second of six points moves the second sample, but not the fifth. -/
theorem local_control_moved :
    let points : List Vec2 := [⟨0, 0⟩, ⟨1, 0⟩, ⟨2, 0⟩, ⟨3, 0⟩, ⟨4, 0⟩, ⟨5, 0⟩]
    let points' := points.set 1 ⟨1, 8⟩
    ((parameter 6 (sampleCount 6 6) 4).floor.toInt < 1 ∨ 1 + 3 < (parameter 6 (sampleCount 6 6) 4).floor.toInt) ∧
      (samples points 6)[4]? = (samples points' 6)[4]? ∧ (samples points 6)[1]? ≠ (samples points' 6)[1]? := by
  intro points points'
  have hout : (parameter 6 (sampleCount 6 6) 4).floor.toInt < 1 ∨
      1 + 3 < (parameter 6 (sampleCount 6 6) 4).floor.toInt := by decide +kernel
  obtain ⟨-, -, hsamples⟩ := local_control
  have hfifth := (hsamples points points' 6 1 rfl (by decide) (by decide) (by decide) (by decide)
    (fun i hi => (List.getElem?_set_ne (Ne.symm hi)).symm) 4).2 hout
  exact ⟨hout, hfifth, by decide +kernel⟩

end Spline

end MotionScript
