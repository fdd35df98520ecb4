import MotionScript.Proofs.Curve.Spline

/-!
# Knots and control points

A blend reads the control points of its knot and of as many knots before as it is deep. Where those do not go beyond
the machine word, knots that are numbered by words are as good as those that are numbered by integers.

* `clamped`, `getElem?_clamped`: the position of the control point that an index means.
* `Agree`: two lists of points are the same from one position to another.
* `blend_toInt`, `evaluate_toInt`, `eq_of_evaluate?`: words in the place of integers.
* `blend_congr`, `evaluate_congr`: which control points are read.
-/

namespace MotionScript.Spline

variable {K : Type} {points points' : Array (Vec K)} {degree depth : ℕ} {x : K}

/-! ## Control points -/

/-- The position that an index means among `n` points: an index outside means the nearest position inside. -/
def clamped (n : ℕ) (index : ℤ) : ℕ := (max 0 (min index (n - 1 : ℕ))).toNat

theorem clamped_mono (n : ℕ) {i j : ℤ} (h : i ≤ j) : clamped n i ≤ clamped n j := by
  unfold clamped
  omega

theorem clamped_lt {n : ℕ} (h : 0 < n) (index : ℤ) : clamped n index < n := by
  unfold clamped
  omega

section Zero

variable [OfNat K 0]

theorem controlPoint_eq (points : Array (Vec K)) (index : ℤ) :
    controlPoint points index = (points[clamped points.size index]?).getD 0 := by
  have hposition : (min index (points.size - 1 : ℕ)).toNat = clamped points.size index := by
    unfold clamped
    omega
  rw [controlPoint, hposition]

/-- **The control point of an index** is the one at the nearest position inside. -/
theorem getElem?_clamped (h : points ≠ #[]) (index : ℤ) :
    points[clamped points.size index]? = some (controlPoint points index) := by
  have hlt := clamped_lt (Array.size_pos_iff.2 h) index
  rw [controlPoint_eq, Array.getElem?_eq_getElem hlt]
  rfl

/-- Two lists of points agree at the positions from one to another. -/
def Agree (points points' : Array (Vec K)) (first last : ℕ) : Prop :=
  ∀ i, first ≤ i → i ≤ last → points[i]? = points'[i]?

theorem controlPoint_congr {low high i : ℤ} (hsize : points.size = points'.size)
    (h : Agree points points' (clamped points.size low) (clamped points.size high))
    (hlow : low ≤ i) (hhigh : i ≤ high) : controlPoint points i = controlPoint points' i := by
  have hagree := h (clamped points.size i) (clamped_mono _ hlow) (clamped_mono _ hhigh)
  rw [controlPoint_eq, controlPoint_eq, ← hsize, hagree]

end Zero

/-! ## Words in the place of integers -/

section Blend

variable [OfNat K 0] [OfNat K 1] [NatCast K] [IntCast K] [Add K] [Sub K] [Mul K] [Div K]

/-- A blend takes the weighted mean of the blends of its knot and of the knot before. -/
theorem blend_succ (degree : ℕ) (points : Array (Vec K)) (x : K) (depth : ℕ) (index : ℤ) :
    blend degree points x (depth + 1) index =
      blend degree points x depth (index - 1) * (1 - (x - (index : K)) / ((degree - depth : ℕ) : K)) +
        blend degree points x depth index * ((x - (index : K)) / ((degree - depth : ℕ) : K)) := rfl

/-- **Words are as good as integers**, as long as the knots that are blended do not go below the word. -/
theorem blend_toInt {index : Int32} (h : -2 ^ 31 ≤ index.toInt - depth) :
    blend degree points x depth index = blend degree points x depth index.toInt := by
  induction depth generalizing index with
  | zero => rfl
  | succ depth ih =>
    push_cast at h
    have hprevious := @toInt_previous index (by omega)
    have hbefore : -2 ^ 31 ≤ (KnotIndex.previous index).toInt - depth := by
      change -2 ^ 31 ≤ KnotIndex.toInt (KnotIndex.previous index) - _
      omega
    have hleft := ih hbefore
    have hright := @ih index (by omega)
    change blend degree points x depth (KnotIndex.previous index) =
      blend degree points x depth (KnotIndex.toInt (KnotIndex.previous index)) at hleft
    rw [hprevious] at hleft
    rw [blend_succ, ← hleft, ← hright]
    rfl

theorem evaluate_toInt {index : Int32} (h : -2 ^ 31 ≤ index.toInt - (min depth degree : ℕ)) :
    evaluate depth degree index x points = evaluate depth degree index.toInt x points := by
  unfold evaluate
  rw [blend_toInt h]

/-- **An evaluation that does not break off** is that at the integer which the word stands for. -/
theorem eq_of_evaluate? {index : Int32} {v : Vec K} (h : evaluate? depth degree index x points = some v) :
    v = evaluate depth degree index.toInt x points := by
  obtain ⟨hguard, hv⟩ := Option.ite_none_right_eq_some.1 h
  rw [← Option.some.inj hv]
  rcases hguard with hempty | hnone | ⟨-, hlowest⟩
  · rw [evaluate, evaluate, if_pos hempty, if_pos hempty]
  · have hlowest := Int32.le_toInt index
    exact evaluate_toInt (by omega)
  · exact evaluate_toInt hlowest

/-! ## What is read -/

/-- A blend depends on the control points of its knot and of as many knots before as it is deep. -/
theorem blend_congr {index : ℤ}
    (h : ∀ i, index - depth ≤ i → i ≤ index → controlPoint points i = controlPoint points' i) :
    blend degree points x depth index = blend degree points' x depth index := by
  induction depth generalizing index with
  | zero => exact h index (by simp) le_rfl
  | succ depth ih =>
    push_cast at h
    -- the knot before reaches one knot further down, and this knot one further up
    have hleft := @ih (index - 1) fun i hlow hhigh => h i (by omega) (by omega)
    have hright := @ih index fun i hlow hhigh => h i (by omega) hhigh
    rw [blend_succ, blend_succ, hleft, hright]

/-- **An evaluation depends on the points between its first knot and its last**, wherever the words do not wrap. -/
theorem evaluate_congr {index : Int32} (hindex : -2 ^ 31 ≤ index.toInt - (min depth degree : ℕ))
    (hsize : points.size = points'.size)
    (h : Agree points points' (clamped points.size (index.toInt - (min depth degree : ℕ)))
      (clamped points.size index.toInt)) :
    evaluate depth degree index x points = evaluate depth degree index x points' := by
  rw [evaluate_toInt hindex, evaluate_toInt hindex]
  have hempty : points.isEmpty = points'.isEmpty := by
    unfold Array.isEmpty
    rw [hsize]
  unfold evaluate
  rw [hempty, blend_congr fun i hlow hhigh => controlPoint_congr hsize h hlow hhigh]

end Blend

end MotionScript.Spline
