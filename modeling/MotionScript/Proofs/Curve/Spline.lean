import MotionScript.Curve.Spline
import MotionScript.Proofs.Scalar.Floor

/-!
# Bounds on splines

Blending keeps the points of a spline finite: a parameter is close to the knots that are blended for it, so each
blend adds a few bits to the coordinates.

* `Vec2.Within`: both coordinates of a point are within a power of two.
* `within_distance`: how long a step between two points is.
* `parameter_bounds`: the parameters of samples, rounded.
* `within_samples`: how far samples are from the control points.
-/

namespace MotionScript

open Scalar

/-! ## Points -/

namespace Vec2

/-- Both coordinates of a point are within a power of two. -/
structure Within (k : ℕ) (p : Vec2) : Prop where
  x : Scalar.Within k p.x
  y : Scalar.Within k p.y

variable {a b p : Vec2} {s : Scalar} {j k : ℕ}

theorem Within.mono (h : Within j p) (hjk : j ≤ k) : Within k p := ⟨h.x.mono hjk, h.y.mono hjk⟩

theorem Within.add (ha : Within k a) (hb : Within k b) (hk : k + 1 < 128) : Within (k + 1) (a + b) :=
  ⟨ha.x.add hb.x hk, ha.y.add hb.y hk⟩

theorem Within.sub (ha : Within k a) (hb : Within k b) (hk : k + 1 < 128) : Within (k + 1) (a - b) :=
  ⟨ha.x.sub hb.x hk, ha.y.sub hb.y hk⟩

theorem Within.mul (ha : Within j a) (hs : Scalar.Within k s) (hjk : j + k < 128) : Within (j + k) (a * s) :=
  ⟨ha.x.mul hs hjk, ha.y.mul hs hjk⟩

theorem within_zero : Within k 0 := ⟨Scalar.within_zero.mono (Nat.zero_le k), Scalar.within_zero.mono (Nat.zero_le k)⟩

/-- **The length of a step** between two points has two bits more than the points. -/
theorem within_distance (ha : Within k a) (hb : Within k b) (hk : 2 * k + 4 < 128) :
    Scalar.Within (k + 2) (distance a b) ∧ 0 ≤ (distance a b).toRat := by
  have hstep := ha.sub hb (by omega)
  have hx := hstep.x.mul hstep.x (by omega)
  have hy := hstep.y.mul hstep.y (by omega)
  have hx0 := hstep.x.mul_nonneg hstep.x (by omega) (mul_self_nonneg _)
  have hy0 := hstep.y.mul_nonneg hstep.y (by omega) (mul_self_nonneg _)
  have hsum := hx.add hy (by omega)
  have hnonneg := toRat_add_of_isFinite hsum.finite
  generalize hdot : (a - b).x * (a - b).x + (a - b).y * (a - b).y = dot at hsum hnonneg
  have hlength : distance a b = dot.sqrt := by
    rw [← hdot]
    rfl
  rw [hlength]
  apply (hsum.mono (by omega : k + 1 + (k + 1) + 1 ≤ 2 * (k + 2))).sqrt
  · rw [hnonneg]
    exact nearest_nonneg (by linarith)
  · omega

end Vec2

/-! ## Blending -/

namespace Spline

variable {controls : Array Vec2} {k : ℕ} {x : Scalar}

theorem within_controlPoint (h : ∀ p ∈ controls, Vec2.Within k p) (index : ℤ) :
    Vec2.Within k (controlPoint controls index) := by
  unfold controlPoint
  cases hat : controls[(min index (controls.size - 1 : ℕ)).toNat]? with
  | none => exact Vec2.within_zero
  | some p => exact h p (Array.mem_of_getElem? hat)

/-- The knot before, if that is not beyond the word. -/
theorem toInt_previous {index : Int32} (h : -2 ^ 31 < index.toInt) :
    KnotIndex.toInt (KnotIndex.previous index) = index.toInt - 1 := by
  show (index - 1).toInt = _
  have hhigh := index.toInt_lt
  rw [Int32.toInt_sub, show (1 : Int32).toInt = 1 by decide, Int.bmod_eq_of_le (by omega) (by omega)]

/-- The weight of a knot that is close to the parameter. -/
theorem within_weight (hx : x.isFinite) {index : ℤ} (hindex : index.natAbs ≤ 2 ^ 31) (hnear : |x.toRat - index| ≤ 2 ^ 9)
    {n : ℕ} (h1 : 1 ≤ n) (h3 : n ≤ 3) :
    Scalar.Within 10 ((x - (index : Scalar)) / (n : Scalar)) := by
  obtain ⟨hknot, hval⟩ := toRat_ofInt hindex (by norm_num)
  -- the number of the knot is rounded before it is taken off
  have habs : |(index : ℚ)| ≤ 2 ^ 31 := by
    rw [← Int.cast_abs, Int.abs_eq_natAbs]
    exact_mod_cast hindex
  have herr : |nearest index - index| ≤ 2 ^ 8 / 2 := abs_nearest_sub_le (habs.trans_lt (by norm_num))
  have hgap : |x.toRat + toRat (-Float32.ofInt index)| ≤ 2 ^ 10 := by
    rw [toRat_neg, hval]
    calc |x.toRat + -nearest index| = |(x.toRat - index) - (nearest index - index)| := by
          congr 1
          ring
      _ ≤ |x.toRat - index| + |nearest index - index| := abs_sub _ _
      _ ≤ 2 ^ 10 := by linarith
  have hdiff : Scalar.Within 10 (x - Float32.ofInt index) := by
    rw [Scalar.sub_eq_add_neg]
    exact (add_within hx hknot.neg.finite hgap (by norm_num)).1
  obtain ⟨hcount, hn⟩ := @toRat_ofNat 2 n (by omega) (by norm_num)
  have hone : 1 ≤ toRat (Float32.ofNat n) := by
    rw [hn]
    calc (1 : ℚ) = nearest 1 := nearest_one.symm
      _ ≤ nearest n := nearest_mono (by exact_mod_cast h1)
  exact hdiff.div hcount.finite hone (by norm_num)

/-- **Blending adds twelve bits** for each level, as long as the parameter is close to the knots. -/
theorem within_blend (h : ∀ p ∈ controls, Vec2.Within k p) (hx : x.isFinite) (depth : ℕ) (index : Int32)
    (hdepth : depth ≤ 3) (hk : k + 12 * depth < 128) (hlow : -2 ^ 31 + depth ≤ index.toInt)
    (hnear : |x.toRat - index.toInt| + depth ≤ 2 ^ 9) :
    Vec2.Within (k + 12 * depth) (blend 3 controls x depth index) := by
  induction depth generalizing index with
  | zero => exact within_controlPoint h _
  | succ depth ih =>
    have hprevious := @toInt_previous index (by push_cast at hlow; omega)
    have hhigh := index.toInt_lt
    push_cast at hlow hnear
    have hbefore : |x.toRat - (KnotIndex.toInt (KnotIndex.previous index) : ℤ)| + depth ≤ 2 ^ 9 := by
      rw [hprevious]
      push_cast
      calc |x.toRat - (index.toInt - 1)| + depth = |(x.toRat - index.toInt) + 1| + depth := by
            congr 2
            ring
        _ ≤ |x.toRat - index.toInt| + 1 + depth := by
            gcongr
            exact (abs_add_le _ _).trans_eq (by norm_num)
        _ ≤ 2 ^ 9 := by linarith
    have hleft := ih (KnotIndex.previous index) (by omega) (by omega)
      (by change _ ≤ KnotIndex.toInt (KnotIndex.previous index); omega) hbefore
    have hright := ih index (by omega) (by omega) (by omega) (by linarith)
    have hweight : Scalar.Within 10 ((x - (KnotIndex.toInt index : Scalar)) / ((3 - depth : ℕ) : Scalar)) :=
      within_weight hx (by change index.toInt.natAbs ≤ _; omega)
        (by change |x.toRat - index.toInt| ≤ _; linarith [show (0 : ℚ) ≤ depth by positivity]) (by omega) (by omega)
    have hrest := (within_one.mono (Nat.zero_le 10)).sub hweight (by norm_num)
    have hsum := (hleft.mul hrest (by omega)).add (hright.mul (hweight.mono (by norm_num)) (by omega)) (by omega)
    exact hsum.mono (by omega)

/-! ## Samples -/

/-- The parameters of samples are from one on and end about behind the last knot. -/
theorem parameter_bounds {n count i : ℕ} (hn : n < 2 ^ 31) (hcount : count ≤ 2 ^ 64) (hi : i < count - 1) :
    (parameter n count i).isFinite ∧ 1 ≤ (parameter n count i).toRat ∧
      (parameter n count i).toRat ≤ 2 ^ 31 + 2 ^ 8 := by
  obtain ⟨hnum, hnumval⟩ := @toRat_ofNat 64 i (by omega) (by norm_num)
  obtain ⟨hden, hdenval⟩ := @toRat_ofNat 64 (count - 1) (by omega) (by norm_num)
  obtain ⟨hspan, hspanval⟩ := @toRat_ofNat 31 (n + 1) (by omega) (by norm_num)
  have hnum0 : 0 ≤ toRat (Float32.ofNat i) := by
    rw [hnumval]
    exact nearest_nonneg (by positivity)
  have hden1 : 1 ≤ toRat (Float32.ofNat (count - 1)) := by
    rw [hdenval]
    calc (1 : ℚ) = nearest 1 := nearest_one.symm
      _ ≤ nearest (count - 1 : ℕ) := nearest_mono (by exact_mod_cast (by omega : 1 ≤ count - 1))
  have hle : toRat (Float32.ofNat i) ≤ toRat (Float32.ofNat (count - 1)) := by
    rw [hnumval, hdenval]
    exact nearest_mono (by exact_mod_cast hi.le)
  have hspan0 : 0 ≤ toRat (Float32.ofNat (n + 1)) := by
    rw [hspanval]
    exact nearest_nonneg (by positivity)
  -- how far the sample is on its way, and its parameter behind the first knot
  obtain ⟨ratio, hratio⟩ : ∃ ratio : Scalar, ratio = Float32.ofNat i / Float32.ofNat (count - 1) := ⟨_, rfl⟩
  obtain ⟨way, hway⟩ : ∃ way : Scalar, way = ratio * Float32.ofNat (n + 1) := ⟨_, rfl⟩
  have hsum : parameter n count i = way + 1 := by
    rw [hway, hratio]
    rfl
  have hquotient : |toRat (Float32.ofNat i) / toRat (Float32.ofNat (count - 1))| ≤ 2 ^ 0 := by
    rw [abs_of_nonneg (by positivity), pow_zero]
    exact div_le_one_of_le₀ hle (by linarith)
  obtain ⟨hratioWithin, hratioval⟩ := div_within hnum.finite hden.finite (by linarith) hquotient (by norm_num)
  rw [← hratio] at hratioWithin hratioval
  have hratio0 : 0 ≤ ratio.toRat := by
    rw [hratioval]
    exact nearest_nonneg (by positivity)
  have hwayWithin := hratioWithin.mul hspan (by norm_num)
  have hway0 := hratioWithin.mul_nonneg hspan (by norm_num) (mul_nonneg hratio0 hspan0)
  rw [← hway] at hwayWithin hway0
  have hone := within_one.mono (Nat.zero_le 31)
  have hfin := (hwayWithin.add hone (by norm_num)).finite
  have hval := toRat_add_of_isFinite hfin
  have htop : way.toRat ≤ 2 ^ 31 := (le_abs_self _).trans hwayWithin.abs_le
  rw [hsum, hval, toRat_one]
  refine ⟨hfin, ?_, ?_⟩
  · calc (1 : ℚ) = nearest 1 := nearest_one.symm
      _ ≤ nearest (way.toRat + 1) := nearest_mono (by linarith)
  · have herr : |nearest (way.toRat + 1) - (way.toRat + 1)| ≤ 2 ^ 8 / 2 := by
      apply abs_nearest_sub_le
      rw [abs_of_nonneg (by linarith)]
      norm_num
      linarith
    linarith [(abs_le.1 herr).2]

theorem sampleCount_le {n segments : ℕ} (hn : n < 2 ^ 31) (hsegments : segments ≤ 2 ^ 64) :
    sampleCount n segments ≤ 2 ^ 64 := by
  unfold sampleCount
  omega

/-- **The samples of a spline** have thirty-six bits more than the control points. -/
theorem within_samples {points : List Vec2} (h : ∀ p ∈ points, Vec2.Within k p) (hk : k + 36 < 128)
    (hlength : points.length < 2 ^ 31) {segments : ℕ} (hsegments : segments ≤ 2 ^ 64) :
    ∀ p ∈ samples points segments, Vec2.Within (k + 36) p := by
  intro p hp
  unfold samples at hp
  cases hlast : points.getLast? with
  | none =>
    rw [hlast] at hp
    cases hp
  | some last =>
    simp only [hlast, List.mem_append, List.mem_map, List.mem_range, List.mem_singleton, List.size_toArray] at hp
    rcases hp with ⟨i, hi, rfl⟩ | rfl
    · obtain ⟨hfin, hlow, hhigh⟩ := parameter_bounds hlength (sampleCount_le hlength hsegments) hi
      generalize parameter points.length _ i = x at *
      have hfloor := toInt_floor hfin (by linarith)
      have hbelow := Int.floor_le x.toRat
      have habove := Int.lt_floor_add_one x.toRat
      have hnonneg : 1 ≤ ⌊x.toRat⌋ := Int.le_floor.2 (by exact_mod_cast hlow)
      have hnear : |x.toRat - x.floor.toInt| + (3 : ℕ) ≤ 2 ^ 9 := by
        rcases min_choice ⌊x.toRat⌋ (2 ^ 31 - 1) with hmin | hmin
        · rw [hfloor, hmin, abs_of_nonneg (by linarith)]
          push_cast
          linarith
        · -- the word ends before the parameter
          have hend : (2 : ℤ) ^ 31 - 1 ≤ ⌊x.toRat⌋ := by omega
          have hcast : ((2 : ℚ) ^ 31 - 1) ≤ ⌊x.toRat⌋ := by exact_mod_cast hend
          rw [hfloor, hmin, abs_of_nonneg (by push_cast; linarith)]
          push_cast
          linarith
      unfold cubic evaluate
      split
      · exact Vec2.within_zero
      · exact within_blend (fun q hq => h q (by simpa using hq)) hfin 3 x.floor le_rfl hk (by omega) hnear
    · exact (h p (List.mem_of_getLast? hlast)).mono (by omega)

end Spline

end MotionScript
