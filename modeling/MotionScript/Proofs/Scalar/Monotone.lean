import MotionScript.Proofs.Scalar.Difference

/-!
# Rounding keeps order

Exact results in order are in order when they are rounded, also where they overflow. So a term that is not greater
makes a sum that is not greater, and a factor of at most one makes a product that is not greater.

* `Holds.mono`: rounded results are in the order of the exact ones.
* `add_le_add_of_toRat_le`: sums with finite second terms are in the order of these.
* `abs_mul_le_of_within_one`: a product with a factor of at most one is no greater than the other factor.
* `not_isNaN_add`, `not_isNaN_div`: sums with finite numbers and parts of numbers are numbers.
-/

namespace MotionScript.Scalar

open Float.Model (UnpackedFloat Format)

variable {x y z : Scalar}

/-- What is below all finite numbers is rounded to negative infinity. -/
theorem Holds.ofParts_overflow_neg {u : UnpackedFloat} {v : ℚ} (h : Holds u v) (hv : v ≤ -2 ^ 128) :
    (Scalar.ofParts u).parts = .infinity .negative := by
  have hpow : (0 : ℚ) < 2 ^ 128 := by positivity
  have hi : ¬InRange u := fun hi => by
    have hlt := abs_valueOf_lt h.rounded hi
    rw [h.value, abs_of_nonpos (by linarith)] at hlt
    linarith
  obtain ⟨-, hf, hval⟩ := h
  rcases u with s | _ | s | ⟨s, m, e, hm⟩
  · exact absurd trivial hi
  · exact absurd trivial hi
  · exact absurd trivial hi
  rw [Scalar.ofParts_overflow s hm (by simp only [InRange] at hi; omega)]
  cases s with
  | negative => rfl
  | positive =>
    have := valueOf_positive_pos (e := e) hm
    linarith

/-- **Rounded results are in the order of the exact ones**, overflow included. -/
theorem Holds.mono {u u' : UnpackedFloat} {v v' : ℚ} (h : Holds u v) (h' : Holds u' v') (hle : v ≤ v') :
    Scalar.ofParts u ≤ Scalar.ofParts u' := by
  rcases le_or_gt (2 ^ 128) v' with hover | hlt'
  · exact le_infinity h.not_isNaN (h'.ofParts_overflow hover)
  rcases le_or_gt v (-2 ^ 128) with hunder | hlt
  · exact infinity_le (h.ofParts_overflow_neg hunder) h'.not_isNaN
  obtain ⟨hf, hval⟩ := h.ofParts (abs_lt.2 ⟨hlt, hle.trans_lt hlt'⟩)
  obtain ⟨hf', hval'⟩ := h'.ofParts (abs_lt.2 ⟨hlt.trans_le hle, hlt'⟩)
  rwa [le_iff hf hf', hval, hval']

/-! ## Numbers -/

/-- A number is finite, or it is one of the infinities. -/
theorem isFinite_or_exists (h : ¬x.isNaN) : x.isFinite ∨ ∃ s, x.parts = .infinity s := by
  rcases isFinite_or_infinity h with hf | hinf | hinf
  · exact .inl hf
  · exact .inr ⟨_, hinf⟩
  · exact .inr ⟨_, hinf⟩

theorem not_isNaN_of_infinity {s : UnpackedFloat.Sign} (h : x.parts = .infinity s) : ¬x.isNaN := by
  rw [isNaN_eq, h]
  exact Bool.false_ne_true

/-- Nothing finite moves an infinity. -/
theorem infinity_add_finite {s : UnpackedFloat.Sign} (hx : x.parts = .infinity s) (hy : y.isFinite) :
    (x + y).parts = .infinity s ∧ (y + x).parts = .infinity s := by
  rw [isFinite_eq] at hy
  rw [add_def, add_def, hx]
  generalize y.parts = u at hy
  have hpacked := parts_ofParts (u := .infinity s) trivial trivial
  rcases u with s' | _ | s' | ⟨s', m, e, hm⟩
  · cases hy
  · cases hy
  · exact ⟨hpacked, hpacked⟩
  · exact ⟨hpacked, hpacked⟩

/-- A number and a finite one make a number. -/
theorem not_isNaN_add (hx : ¬x.isNaN) (hy : y.isFinite) : ¬(x + y).isNaN ∧ ¬(y + x).isNaN := by
  rcases isFinite_or_exists hx with hf | ⟨s, hinf⟩
  · exact ⟨(add_holds hf hy).not_isNaN, (add_holds hy hf).not_isNaN⟩
  · obtain ⟨hsum, hsum'⟩ := infinity_add_finite hinf hy
    exact ⟨not_isNaN_of_infinity hsum, not_isNaN_of_infinity hsum'⟩

/-- A part of a number is a number. -/
theorem not_isNaN_div (hx : ¬x.isNaN) (hy : y.isFinite) (h0 : y.toRat ≠ 0) : ¬(x / y).isNaN := by
  rcases isFinite_or_exists hx with hf | ⟨s, hinf⟩
  · exact (div_holds hf hy h0).not_isNaN
  · obtain ⟨s', hdiv⟩ : ∃ s', UnpackedFloat.div Format.binary32 x.parts y.parts = .infinity s' := by
      rw [isFinite_eq] at hy
      rw [hinf]
      generalize y.parts = v at hy
      cases v with
      | infinity => cases hy
      | notANumber => cases hy
      | zero => exact ⟨_, rfl⟩
      | finite => exact ⟨_, rfl⟩
    apply not_isNaN_of_infinity (s := s')
    rw [div_def, hdiv, parts_ofParts (u := .infinity s') trivial trivial]

/-! ## Sums -/

/-- **Sums are in the order of their second terms**, whatever number comes first. -/
theorem add_le_add_of_toRat_le (hx : ¬x.isNaN) (hy : y.isFinite) (hz : z.isFinite) (h : y.toRat ≤ z.toRat) :
    x + y ≤ x + z := by
  rcases isFinite_or_infinity hx with hf | hinf | hinf
  · exact (add_holds hf hy).mono (add_holds hf hz) (nearest_mono (add_le_add_right h _))
  · exact le_infinity (not_isNaN_add hx hy).1 (infinity_add_finite hinf hz).1
  · exact infinity_le (infinity_add_finite hinf hy).1 (not_isNaN_add hx hz).1

/-! ## Products -/

/-- A product with a factor of at most one is no greater than the other factor. -/
theorem abs_mul_le_of_within_one (hx : Within 0 x) (hy : y.isFinite) :
    (x * y).isFinite ∧ |(x * y).toRat| ≤ |y.toRat| := by
  have hone : |x.toRat| ≤ 1 := by simpa using hx.abs_le
  have hexact : |x.toRat * y.toRat| ≤ |y.toRat| := by
    rw [abs_mul]
    exact mul_le_of_le_one_left (abs_nonneg _) hone
  have hround : |nearest (x.toRat * y.toRat)| ≤ |y.toRat| := by
    obtain ⟨hlow, hhigh⟩ := abs_le.1 hexact
    have habs : nearest |y.toRat| = |y.toRat| := by
      rcases abs_choice y.toRat with h | h
      · rw [h, nearest_toRat]
      · rw [h, nearest_neg, nearest_toRat]
    rw [abs_le]
    constructor
    · calc -|y.toRat| = nearest (-|y.toRat|) := by rw [nearest_neg, habs]
        _ ≤ nearest (x.toRat * y.toRat) := nearest_mono hlow
    · calc nearest (x.toRat * y.toRat) ≤ nearest |y.toRat| := nearest_mono hhigh
        _ = |y.toRat| := habs
  obtain ⟨hf, hval⟩ := (mul_holds hx.finite hy).ofParts (hround.trans_lt (abs_toRat_lt y))
  exact ⟨hf, hval ▸ hround⟩

/-! ## Counts and halves -/

/-- What a machine word counts, as a scalar: within its range, and from one on unless there is nothing. -/
theorem ofNat_bounds {n : ℕ} (hn : n ≤ 2 ^ 64) :
    Within 64 (Float32.ofNat n) ∧ (0 < n → 1 ≤ toRat (Float32.ofNat n)) := by
  obtain ⟨hwithin, hval⟩ := toRat_ofNat hn (by norm_num)
  refine ⟨hwithin, fun hpos => ?_⟩
  have hone : (1 : ℚ) ≤ n := by exact_mod_cast hpos
  calc (1 : ℚ) = nearest 1 := nearest_one.symm
    _ ≤ nearest n := nearest_mono hone
    _ = toRat (Float32.ofNat n) := hval.symm

/-- Half of a finite number is finite. -/
theorem isFinite_half {x : Scalar} (hx : x.isFinite) : (x / 2).isFinite := by
  have htwo : toRat 2 = 2 := by decide +kernel
  have hne : toRat 2 ≠ 0 := by rw [htwo]; norm_num
  have hexact : |x.toRat / toRat 2| ≤ 2 ^ 127 := by
    have hlt := abs_toRat_lt x
    rw [htwo, abs_div, abs_of_pos (two_pos : (0 : ℚ) < 2)]
    linarith
  exact (div_within hx rfl hne hexact (by norm_num)).1.finite

end MotionScript.Scalar
