import MotionScript.Proofs.Curve.Knots

/-!
# The uniform cubic spline

Over exact numbers the repeated blending of neighbours gives the uniform cubic spline: between two knots a point is the
mean of four neighbouring control points, weighted by four cubic polynomials.

* `weight`, `sum_weight`, `weight_nonneg`: the four weights of a piece.
* `inf'_le_mean`, `mean_le_sup'`: a mean is between the least and the greatest of what it is taken of.
* `evaluate_eq_mix`: the closed form of a piece.
* `evaluate_knot`, `approaches_knot`: two pieces meet at the knot between them.
* `curve_anchored`: where control points coincide, the curve goes through them.
* `curve_uniform`: all of it together, with both ends of the curve.
-/

namespace MotionScript.Spline

open Filter Topology

/-! ## Weights -/

/-- The weights of the four control points of a piece, by how far behind its knot the parameter is. -/
def weight (u : ℚ) : Fin 4 → ℚ :=
  ![(1 - u) ^ 3 / 6, (3 * u ^ 3 - 6 * u ^ 2 + 4) / 6, (-3 * u ^ 3 + 3 * u ^ 2 + 3 * u + 1) / 6, u ^ 3 / 6]

theorem sum_weight (u : ℚ) : ∑ m, weight u m = 1 := by
  rw [Fin.sum_univ_four]
  show (1 - u) ^ 3 / 6 + (3 * u ^ 3 - 6 * u ^ 2 + 4) / 6 + (-3 * u ^ 3 + 3 * u ^ 2 + 3 * u + 1) / 6 + u ^ 3 / 6 = 1
  ring

theorem weight_nonneg {u : ℚ} (h0 : 0 ≤ u) (h1 : u ≤ 1) (m : Fin 4) : 0 ≤ weight u m := by
  have hrest : 0 ≤ 1 - u := sub_nonneg.2 h1
  have hmiddle : 0 ≤ 1 + u * (1 - u) := by positivity
  have hsecond : 3 * u ^ 3 - 6 * u ^ 2 + 4 = 1 + 3 * ((1 - u) * (1 + u * (1 - u))) := by ring
  have hthird : -3 * u ^ 3 + 3 * u ^ 2 + 3 * u + 1 = 1 + 3 * (u * (1 + u * (1 - u))) := by ring
  fin_cases m
  · show 0 ≤ (1 - u) ^ 3 / 6
    positivity
  · show 0 ≤ (3 * u ^ 3 - 6 * u ^ 2 + 4) / 6
    rw [hsecond]
    positivity
  · show 0 ≤ (-3 * u ^ 3 + 3 * u ^ 2 + 3 * u + 1) / 6
    rw [hthird]
    positivity
  · show 0 ≤ u ^ 3 / 6
    positivity

theorem continuous_weight (m : Fin 4) : Continuous fun u => weight u m := by
  fin_cases m
  · show Continuous fun u : ℚ => (1 - u) ^ 3 / 6
    fun_prop
  · show Continuous fun u : ℚ => (3 * u ^ 3 - 6 * u ^ 2 + 4) / 6
    fun_prop
  · show Continuous fun u : ℚ => (-3 * u ^ 3 + 3 * u ^ 2 + 3 * u + 1) / 6
    fun_prop
  · show Continuous fun u : ℚ => u ^ 3 / 6
    fun_prop

/-- From one knot to the next, every control point but the first takes the weight of the one before. -/
theorem weight_one_succ (m : Fin 3) : weight 1 m.succ = weight 0 m.castSucc := by
  fin_cases m
  · show (3 * (1 : ℚ) ^ 3 - 6 * 1 ^ 2 + 4) / 6 = (1 - 0) ^ 3 / 6
    norm_num
  · show (-3 * (1 : ℚ) ^ 3 + 3 * 1 ^ 2 + 3 * 1 + 1) / 6 = (3 * 0 ^ 3 - 6 * 0 ^ 2 + 4) / 6
    norm_num
  · show (1 : ℚ) ^ 3 / 6 = (-3 * 0 ^ 3 + 3 * 0 ^ 2 + 3 * 0 + 1) / 6
    norm_num

theorem weight_one_zero : weight 1 0 = 0 := by norm_num [weight]

theorem weight_zero_last : weight 0 (Fin.last 3) = 0 := by norm_num [weight, Fin.last]

/-! ## Means -/

section Mean

variable {w f : Fin 4 → ℚ}

/-- A mean is at least the least of what it is taken of. -/
theorem inf'_le_mean (h0 : ∀ m, 0 ≤ w m) (h1 : ∑ m, w m = 1) :
    Finset.univ.inf' Finset.univ_nonempty f ≤ ∑ m, w m * f m :=
  calc Finset.univ.inf' Finset.univ_nonempty f = ∑ m, w m * Finset.univ.inf' Finset.univ_nonempty f := by
        rw [← Finset.sum_mul, h1, one_mul]
    _ ≤ ∑ m, w m * f m :=
        Finset.sum_le_sum fun m hm => mul_le_mul_of_nonneg_left (Finset.inf'_le f hm) (h0 m)

/-- A mean is at most the greatest of what it is taken of. -/
theorem mean_le_sup' (h0 : ∀ m, 0 ≤ w m) (h1 : ∑ m, w m = 1) :
    ∑ m, w m * f m ≤ Finset.univ.sup' Finset.univ_nonempty f :=
  calc ∑ m, w m * f m ≤ ∑ m, w m * Finset.univ.sup' Finset.univ_nonempty f :=
        Finset.sum_le_sum fun m hm => mul_le_mul_of_nonneg_left (Finset.le_sup' f hm) (h0 m)
    _ = Finset.univ.sup' Finset.univ_nonempty f := by rw [← Finset.sum_mul, h1, one_mul]

/-- A mean of equal values is that value; what counts for nothing need not be equal. -/
theorem mean_const {v : ℚ} (h1 : ∑ m, w m = 1) (hf : ∀ m, w m ≠ 0 → f m = v) : ∑ m, w m * f m = v :=
  calc ∑ m, w m * f m = ∑ m, w m * v :=
        Finset.sum_congr rfl fun m _ => by
          by_cases hm : w m = 0
          · rw [hm, zero_mul, zero_mul]
          · rw [hf m hm]
    _ = v := by rw [← Finset.sum_mul, h1, one_mul]

/-- At a knot the mean over the piece before is that over the piece behind. -/
theorem mean_knot {g : Fin 4 → ℚ} (h : ∀ m : Fin 3, f m.succ = g m.castSucc) :
    ∑ m, weight 1 m * f m = ∑ m, weight 0 m * g m := by
  rw [Fin.sum_univ_succ, Fin.sum_univ_castSucc (f := fun m => weight 0 m * g m), weight_one_zero, weight_zero_last,
    zero_mul, zero_mul, zero_add, add_zero]
  exact Finset.sum_congr rfl fun m _ => by rw [weight_one_succ, h]

end Mean

/-- The weighted mean of four points. -/
def mix (w : Fin 4 → ℚ) (p : Fin 4 → Vec ℚ) : Vec ℚ := ⟨∑ m, w m * (p m).x, ∑ m, w m * (p m).y⟩

theorem mix_const {w : Fin 4 → ℚ} {p : Fin 4 → Vec ℚ} {v : Vec ℚ} (h1 : ∑ m, w m = 1)
    (hp : ∀ m, w m ≠ 0 → p m = v) : mix w p = v := by
  have hx := mean_const h1 fun m hm => congrArg Vec.x (hp m hm)
  have hy := mean_const h1 fun m hm => congrArg Vec.y (hp m hm)
  rw [mix, hx, hy]

theorem mix_knot {p q : Fin 4 → Vec ℚ} (h : ∀ m : Fin 3, p m.succ = q m.castSucc) :
    mix (weight 1) p = mix (weight 0) q := by
  have hx := @mean_knot (fun m => (p m).x) (fun m => (q m).x) fun m => congrArg Vec.x (h m)
  have hy := @mean_knot (fun m => (p m).y) (fun m => (q m).y) fun m => congrArg Vec.y (h m)
  rw [mix, mix, hx, hy]

/-! ## Pieces -/

variable {points : Array (Vec ℚ)}

/-- The four control points of a piece. -/
def window (points : Array (Vec ℚ)) (index : ℤ) (m : Fin 4) : Vec ℚ := controlPoint points (index - 3 + m.val)

/-- A coordinate of a blend of depth three, which is that of eight control points. -/
theorem coordinate_blend {c : Vec ℚ → ℚ} (hadd : ∀ a b, c (a + b) = c a + c b) (hmul : ∀ a s, c (a * s) = c a * s)
    (points : Array (Vec ℚ)) (index : ℤ) (x : ℚ) :
    c (blend 3 points x 3 index) = ∑ m, weight (x - index) m * c (window points index m) := by
  have hleaf : ∀ {i : ℤ} (m : Fin 4), i = index - 3 + m.val → blend 3 points x 0 i = window points index m := by
    rintro i m rfl
    rfl
  -- the leaves are one, three, three and one times a control point
  have h0 := hleaf (i := index - 1 - 1 - 1) 0 (by show _ = index - 3 + 0; omega)
  have h1 := hleaf (i := index - 1 - 1) 1 (by show _ = index - 3 + 1; omega)
  have h2 := hleaf (i := index - 1) 2 (by show _ = index - 3 + 2; omega)
  have h3 := hleaf (i := index) 3 (by show _ = index - 3 + 3; omega)
  simp only [blend_succ, h0, h1, h2, h3, hadd, hmul, Fin.sum_univ_four, weight, Matrix.cons_val]
  push_cast
  ring

/-- **A piece is the cubic mean** of its four control points. -/
theorem evaluate_eq_mix (h : points ≠ #[]) (index : ℤ) (x : ℚ) :
    evaluate 3 3 index x points = mix (weight (x - index)) (window points index) := by
  have hx := coordinate_blend (c := Vec.x) (fun _ _ => rfl) (fun _ _ => rfl) points index x
  have hy := coordinate_blend (c := Vec.y) (fun _ _ => rfl) (fun _ _ => rfl) points index x
  have hempty : points.isEmpty = false := Array.isEmpty_eq_false_iff.2 h
  unfold evaluate mix
  rw [hempty, ← hx, ← hy]
  rfl

/-- **Two pieces meet at the knot between them.** -/
theorem evaluate_knot (h : points ≠ #[]) (k : ℤ) :
    evaluate 3 3 (k - 1) (k : ℚ) points = evaluate 3 3 k (k : ℚ) points := by
  have hend : (k : ℚ) - (k - 1 : ℤ) = 1 := by
    push_cast
    ring
  have hshift : ∀ m : Fin 3, window points (k - 1) m.succ = window points k m.castSucc := by
    intro m
    unfold window
    congr 1
    simp only [Fin.val_succ, Fin.val_castSucc]
    omega
  rw [evaluate_eq_mix h, evaluate_eq_mix h, hend, sub_self, mix_knot hshift]

/-! ## The curve -/

/-- The point of the curve at a parameter is on the piece of the knot at or before it. -/
def curve (points : Array (Vec ℚ)) (x : ℚ) : Vec ℚ := evaluate 3 3 ⌊x⌋ x points

/-- A point comes as close to another as the filter says, in both coordinates. -/
structure Approaches (f : ℚ → Vec ℚ) (l : Filter ℚ) (v : Vec ℚ) : Prop where
  x : Tendsto (fun t => (f t).x) l (𝓝 v.x)
  y : Tendsto (fun t => (f t).y) l (𝓝 v.y)

/-- A piece is continuous, whatever its parameter. -/
theorem approaches_piece (h : points ≠ #[]) (index : ℤ) (x : ℚ) :
    Approaches (fun t => evaluate 3 3 index t points) (𝓝 x) (evaluate 3 3 index x points) := by
  have hmean : ∀ f : Fin 4 → ℚ, Continuous fun t : ℚ => ∑ m, weight (t - index) m * f m := fun f =>
    continuous_finsetSum _ fun m _ =>
      ((continuous_weight m).comp (continuous_id.sub continuous_const)).mul continuous_const
  simp only [evaluate_eq_mix h]
  exact ⟨(hmean fun m => (window points index m).x).tendsto x, (hmean fun m => (window points index m).y).tendsto x⟩

/-- Where the curve is on one piece, it goes where the piece goes. -/
theorem approaches_of_floor (h : points ≠ #[]) {index : ℤ} {x : ℚ} {l : Filter ℚ} (hl : l ≤ 𝓝 x)
    (hfloor : ∀ᶠ t : ℚ in l, ⌊t⌋ = index) : Approaches (curve points) l (evaluate 3 3 index x points) := by
  have hpiece := approaches_piece h index x
  have hcurve : (fun t => evaluate 3 3 index t points) =ᶠ[l] curve points := by
    filter_upwards [hfloor] with t ht
    rw [curve, ht]
  exact ⟨(hpiece.x.mono_left hl).congr' (hcurve.fun_comp Vec.x), (hpiece.y.mono_left hl).congr' (hcurve.fun_comp Vec.y)⟩

/-- **Nothing tears at a knot**: from both sides the curve comes to its point there. -/
theorem approaches_knot (h : points ≠ #[]) (k : ℤ) :
    Approaches (curve points) (𝓝[<] (k : ℚ)) (curve points k) ∧
      Approaches (curve points) (𝓝[>] (k : ℚ)) (curve points k) := by
  have hknot : curve points k = evaluate 3 3 k (k : ℚ) points := by rw [curve, Int.floor_intCast]
  have hbefore : ∀ᶠ t : ℚ in 𝓝[<] (k : ℚ), ⌊t⌋ = k - 1 := tendsto_pure.1 (tendsto_floor_left_pure_sub_one k)
  have hbehind : ∀ᶠ t : ℚ in 𝓝[>] (k : ℚ), ⌊t⌋ = k :=
    (tendsto_pure.1 (tendsto_floor_right_pure k)).filter_mono (nhdsWithin_mono _ Set.Ioi_subset_Ici_self)
  rw [hknot]
  constructor
  · rw [← evaluate_knot h]
    exact approaches_of_floor h nhdsWithin_le_nhds hbefore
  · exact approaches_of_floor h nhdsWithin_le_nhds hbehind

/-- At a knot whose first three control points are one point, the curve is at that point. -/
theorem curve_anchored (h : points ≠ #[]) {k : ℤ} {i : ℕ}
    (hclamped : ∀ m : Fin 4, m ≠ Fin.last 3 → clamped points.size (k - 3 + m.val) = i) :
    points[i]? = some (curve points k) := by
  have hi : points[i]? = some (window points k 0) := by
    rw [← hclamped 0 (by decide), getElem?_clamped h]
    rfl
  have hmean : mix (weight 0) (window points k) = window points k 0 := by
    refine mix_const (sum_weight 0) fun m hm => ?_
    have hcounts : m ≠ Fin.last 3 := by
      rintro rfl
      exact hm weight_zero_last
    have hm := getElem?_clamped h (k - 3 + m.val)
    rw [hclamped m hcounts, hi] at hm
    exact (Option.some.inj hm).symm
  rw [hi, curve, evaluate_eq_mix h, Int.floor_intCast, sub_self, hmean]

/-- **The curve is the uniform cubic spline of its control points.** At every parameter it is the mean of four
neighbouring control points with the four cubic weights, so between the least and the greatest of them in both
coordinates. Knots that are numbered by machine words give the same curve. It starts at the first control point, ends at
the last and has the same limits on both sides of every knot. -/
theorem curve_uniform (h : points ≠ #[]) :
    (∀ x : ℚ, ∃ p : Fin 4 → Vec ℚ, (∀ m, points[clamped points.size (⌊x⌋ - 3 + m.val)]? = some (p m)) ∧
      curve points x = mix (weight (x - ⌊x⌋)) p ∧
      (∀ m, 0 ≤ weight (x - ⌊x⌋) m) ∧ ∑ m, weight (x - ⌊x⌋) m = 1 ∧
      (curve points x).x ∈ Set.Icc (Finset.univ.inf' Finset.univ_nonempty fun m => (p m).x)
        (Finset.univ.sup' Finset.univ_nonempty fun m => (p m).x) ∧
      (curve points x).y ∈ Set.Icc (Finset.univ.inf' Finset.univ_nonempty fun m => (p m).y)
        (Finset.univ.sup' Finset.univ_nonempty fun m => (p m).y)) ∧
    (∀ (index : Int32) (x : ℚ), index.toInt = ⌊x⌋ → -2 ^ 31 + 3 ≤ ⌊x⌋ →
      evaluate 3 3 index x points = curve points x) ∧
    points[0]? = some (curve points 1) ∧ points.back? = some (curve points (points.size + 2)) ∧
    ∀ k : ℤ, Approaches (curve points) (𝓝[<] (k : ℚ)) (curve points k) ∧
      Approaches (curve points) (𝓝[>] (k : ℚ)) (curve points k) := by
  have hpos : 0 < points.size := Array.size_pos_iff.2 h
  refine ⟨fun x => ?_, fun index x hindex hlow => ?_, ?_, ?_, approaches_knot h⟩
  · have hmix : curve points x = mix (weight (x - ⌊x⌋)) (window points ⌊x⌋) := evaluate_eq_mix h ⌊x⌋ x
    have hnonneg := weight_nonneg (sub_nonneg.2 (Int.floor_le x)) (by linarith [Int.lt_floor_add_one x])
    have hsum := sum_weight (x - ⌊x⌋)
    refine ⟨window points ⌊x⌋, fun m => getElem?_clamped h _, hmix, hnonneg, hsum, ?_, ?_⟩
    · rw [hmix]
      exact ⟨inf'_le_mean hnonneg hsum, mean_le_sup' hnonneg hsum⟩
    · rw [hmix]
      exact ⟨inf'_le_mean hnonneg hsum, mean_le_sup' hnonneg hsum⟩
  · rw [evaluate_toInt (by rw [hindex]; simpa using by omega), hindex, curve]
  · have hfirst := @curve_anchored points h 1 0 fun m hm => by
      unfold clamped
      have := Fin.val_lt_last hm
      omega
    exact_mod_cast hfirst
  · have hlast := @curve_anchored points h (points.size + 2) (points.size - 1) fun m hm => by
      unfold clamped
      omega
    rw [Array.back?_eq_getElem?]
    exact_mod_cast hlast

/-- A corner of three control points, which ends at the third. -/
theorem curve_uniform_corner : (#[⟨0, 0⟩, ⟨1, 2⟩, ⟨3, 1⟩] : Array (Vec ℚ)) ≠ #[] ∧
    curve #[⟨0, 0⟩, ⟨1, 2⟩, ⟨3, 1⟩] 5 = ⟨3, 1⟩ := by
  have hcorner : (#[⟨0, 0⟩, ⟨1, 2⟩, ⟨3, 1⟩] : Array (Vec ℚ)) ≠ #[] := by simp
  have hlast := (curve_uniform hcorner).2.2.2.1
  norm_num at hlast
  exact ⟨hcorner, hlast.symm⟩

end MotionScript.Spline
