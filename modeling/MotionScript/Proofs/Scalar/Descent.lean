import MotionScript.Proofs.Scalar.Bounds

/-!
# Taking a number off again and again

A difference is rounded, so that taking off a number that is too small changes nothing. A number that has made less of
another one twice is not too small, and it goes on making less of what is left.

* `sub_cases`: what taking off a positive number makes of a number that is not less.
* `Counts`: a number is more than half of the unit in the last place of another one.
* `Counts.sub`: then taking it off makes less.
* `counts_of_steps`, `counts_of_lt`: when it is.
-/

namespace MotionScript.Scalar

open Float.Model (UnpackedFloat Format)

/-! ## Differences that are rounded -/

section Rounding

variable {t v : ℚ}

/-- What rounding keeps is a multiple of every unit up to that of its last place. -/
theorem exists_multiple (ht : nearest t = t) (h0 : 0 < t) {p : ℤ} (hp : p ≤ lastPlace t) : ∃ n : ℤ, t = n * 2 ^ p := by
  have hnearest : nearest t = nearestPos t := if_neg (not_lt.2 h0.le)
  obtain ⟨n, hn⟩ : ∃ n : ℤ, t = n * 2 ^ lastPlace t := ⟨_, ht.symm.trans hnearest⟩
  refine ⟨n * 2 ^ (lastPlace t - p).toNat, ?_⟩
  calc t = n * 2 ^ lastPlace t := hn
    _ = _ := by
        rw [zpow_split hp]
        push_cast
        ring

/-- Less is left if more than half of a unit of the last place is taken off. -/
theorem nearest_sub_lt (hle : v ≤ t) (h0 : 0 < v) (h : 2 ^ lastPlace t < 2 * v) : nearest (t - v) < t := by
  rcases hle.eq_or_lt with heq | hlt
  · rw [sub_eq_zero_of_eq heq.symm, nearest_zero]
    linarith
  · have hpos : 0 < t - v := by linarith
    have hnearest : nearest (t - v) = nearestPos (t - v) := if_neg (not_lt.2 hpos.le)
    have herr := (abs_le.1 (abs_nearestPos_sub_le (t - v))).2
    have hunit : (2 : ℚ) ^ lastPlace (t - v) ≤ 2 ^ lastPlace t :=
      zpow_le_zpow_right₀ one_le_two (lastPlace_mono hpos (by linarith))
    rw [hnearest]
    linarith

/-- Up to half of a unit is rounded away, unless it is the half and the even neighbour is below. -/
theorem halfEven_sub_lt {n : ℤ} {d : ℚ} (h0 : 0 < d) (hd : 2 * d ≤ 1) (h : halfEven (n - d) < n) :
    2 * d = 1 ∧ halfEven (n - d) = n - 1 ∧ (n - 1) % 2 = 0 := by
  have hfloor : ⌊(n : ℚ) - d⌋ = n - 1 := by
    rw [Int.floor_eq_iff]
    push_cast
    constructor <;> linarith
  have hrest : (n : ℚ) - d - ((n - 1 : ℤ) : ℚ) = 1 - d := by
    push_cast
    ring
  unfold halfEven at h ⊢
  rw [hfloor, hrest] at h ⊢
  rw [if_neg (by linarith)] at h ⊢
  split_ifs at h ⊢ with hhalf
  · exact ⟨by linarith, by omega, by omega⟩
  · omega

/-- If half of a unit or less makes less, it is the half, and what is left is an even multiple of the unit. -/
theorem nearest_sub_of_le_half (ht : nearest t = t) (h0 : 0 < v) (hlt : v < t) {p : ℤ}
    (hp : p ≤ lastPlace (t - v)) (hv : 2 * v ≤ 2 ^ p) (h : nearest (t - v) < t) :
    ∃ n : ℤ, t = n * 2 ^ p ∧ nearest (t - v) = (n - 1 : ℤ) * 2 ^ p ∧ (n - 1) % 2 = 0 := by
  have hpos : 0 < t - v := by linarith
  obtain ⟨n, hn⟩ := exists_multiple ht (h0.trans hlt) (lastPlace_mono hpos (by linarith))
  have hnearest : nearest (t - v) = halfEven ((t - v) / 2 ^ lastPlace (t - v)) * 2 ^ lastPlace (t - v) :=
    if_neg (not_lt.2 hpos.le)
  rw [hnearest] at h ⊢
  have hunits : (2 : ℚ) ^ p ≤ 2 ^ lastPlace (t - v) := zpow_le_zpow_right₀ one_le_two hp
  generalize lastPlace (t - v) = q at *
  have hq : (0 : ℚ) < 2 ^ q := by positivity
  have hquotient : (t - v) / 2 ^ q = n - v / 2 ^ q := by
    rw [sub_div, hn, mul_div_cancel_right₀ _ hq.ne']
  rw [hquotient] at h ⊢
  have hless : halfEven (n - v / 2 ^ q) < n := by
    have hmul : (halfEven (n - v / 2 ^ q) : ℚ) * 2 ^ q < n * 2 ^ q := by rwa [← hn]
    exact_mod_cast lt_of_mul_lt_mul_right hmul hq.le
  have hhalf : 2 * (v / 2 ^ q) ≤ 1 := by
    rw [← mul_div_assoc, div_le_one hq]
    linarith
  obtain ⟨heq, hvalue, heven⟩ := halfEven_sub_lt (by positivity) hhalf hless
  have hunit : (2 : ℚ) ^ p = 2 ^ q := by
    rw [← mul_div_assoc, div_eq_one_iff_eq hq.ne'] at heq
    linarith
  rw [hvalue, hunit]
  exact ⟨n, hn, rfl, heven⟩

/-- **A number that makes less twice is more than half of a unit in the last place** of what is left then. -/
theorem lt_of_steps {t₁ t₂ : ℚ} (ht : nearest t = t) (ht₁ : nearest t₁ = t₁) (ht₂ : nearest t₂ = t₂) (h0 : 0 < v)
    (h₁ : nearest (t - v) = t₁) (h₂ : nearest (t₁ - v) = t₂) (hlt₁ : t₁ < t) (hlt₂ : t₂ < t₁) (hpos : 0 < t₂) :
    2 ^ lastPlace t₂ < 2 * v := by
  by_contra hle
  rw [not_lt] at hle
  have hpos₁ : 0 < t₁ := hpos.trans hlt₂
  obtain ⟨b, hb⟩ := exists_multiple ht₁ hpos₁ (lastPlace_mono hpos hlt₂.le)
  obtain ⟨c, hc⟩ := exists_multiple ht₂ hpos le_rfl
  -- the units keep the numbers apart
  have hunit : (0 : ℚ) < 2 ^ lastPlace t₂ := by positivity
  have hgap : t₂ + 2 ^ lastPlace t₂ ≤ t₁ := by
    have hless : c < b := by
      have hmul : (c : ℚ) * 2 ^ lastPlace t₂ < b * 2 ^ lastPlace t₂ := by rwa [← hc, ← hb]
      exact_mod_cast lt_of_mul_lt_mul_right hmul hunit.le
    have hsucc : (c : ℚ) + 1 ≤ b := by exact_mod_cast hless
    calc t₂ + 2 ^ lastPlace t₂ = (c + 1) * 2 ^ lastPlace t₂ := by
          rw [add_mul, one_mul, ← hc]
      _ ≤ b * 2 ^ lastPlace t₂ := mul_le_mul_of_nonneg_right hsucc hunit.le
      _ = t₁ := hb.symm
  -- so each step is a tie, and both ends of the second one are even
  obtain ⟨n, -, hn, heven⟩ := nearest_sub_of_le_half ht h0 (by linarith)
    (lastPlace_mono hpos (by linarith : t₂ ≤ t - v)) hle (by rwa [h₁])
  obtain ⟨m, hm, -, heven'⟩ := nearest_sub_of_le_half ht₁ h0 (by linarith)
    (lastPlace_mono hpos (by linarith : t₂ ≤ t₁ - v)) hle (by rwa [h₂])
  have hsame : n - 1 = m := by
    have hmul : ((n - 1 : ℤ) : ℚ) * 2 ^ lastPlace t₂ = m * 2 ^ lastPlace t₂ := by rw [← hn, ← hm, h₁]
    exact_mod_cast mul_right_cancel₀ hunit.ne' hmul
  omega

end Rounding

/-! ## Differences of scalars -/

variable {x y : Scalar}

/-- The difference to a positive number that is not greater. -/
theorem toRat_sub_of_le (hx : x.isFinite) (hy : y.isFinite) (h0 : 0 < y.toRat) (h : y.toRat ≤ x.toRat) :
    (x - y).isFinite ∧ (x - y).toRat = nearest (x.toRat - y.toRat) ∧ 0 ≤ (x - y).toRat ∧
      (x - y).toRat ≤ x.toRat := by
  have hvalue : x.toRat + (-y).toRat = x.toRat - y.toRat := by
    rw [toRat_neg]
    ring
  have hlow : 0 ≤ nearest (x.toRat - y.toRat) := nearest_nonneg (by linarith)
  have hhigh : nearest (x.toRat - y.toRat) ≤ x.toRat :=
    calc nearest (x.toRat - y.toRat) ≤ nearest x.toRat := nearest_mono (by linarith)
      _ = x.toRat := nearest_toRat x
  have hlt : |nearest (x.toRat + (-y).toRat)| < 2 ^ 128 := by
    rw [hvalue, abs_of_nonneg hlow]
    exact hhigh.trans_lt ((le_abs_self _).trans_lt (abs_toRat_lt x))
  obtain ⟨hfinite, hsum⟩ := toRat_add hx (isFinite_neg hy) hlt
  rw [hvalue] at hsum
  rw [sub_eq_add_neg, hsum]
  exact ⟨hfinite, rfl, hlow, hhigh⟩

/-- **What taking off a positive number makes** of a number that is not less: less, the same, or no number. -/
theorem sub_cases (h0 : 0 < y) (h : y ≤ x) :
    x.isFinite ∧ y.isFinite ∧ x - y < x ∨ x - y = x ∨ (x - y).isNaN := by
  have hsub : x - y = ofParts (UnpackedFloat.sub Format.binary32 x.parts y.parts) := rfl
  rcases le_cases h with ⟨hy, hx, hle⟩ | ⟨hinf, -⟩ | ⟨hy, hinf⟩
  · have hpos : 0 < y.toRat := (lt_iff rfl hy).1 h0
    obtain ⟨hfinite, -, -, hless⟩ := toRat_sub_of_le hx hy hpos hle
    rcases hless.lt_or_eq with hlt | heq
    · exact .inl ⟨hx, hy, (lt_iff hfinite hx).2 hlt⟩
    · exact .inr (.inl (eq_of_toRat hfinite hx heq (by linarith)))
  · exact absurd h0 (not_lt_infinity hinf)
  · right
    rcases isFinite_or_infinity hy with hfinite | hinf' | hinf'
    · -- infinity stays what it is
      left
      have hparts := infinity_add hinf (isFinite_neg hfinite)
      rw [sub_eq_add_neg, ← ofParts_parts (x + -y), hparts, ← hinf, ofParts_parts]
    · right
      rw [hsub, hinf, hinf']
      rfl
    · exact absurd h0 (not_lt_infinity hinf')

/-- **A number counts in another one**: it is more than half of the unit in its last place. -/
def Counts (y x : Scalar) : Prop := 2 ^ lastPlace x.toRat < 2 * y.toRat

/-- Taking off what counts makes less, and counts in what is left. -/
theorem Counts.sub (h : Counts y x) (hx : x.isFinite) (hy : y.isFinite) (h0 : 0 < y.toRat)
    (hle : y.toRat ≤ x.toRat) : (x - y).toRat < x.toRat ∧ (0 < (x - y).toRat → Counts y (x - y)) := by
  obtain ⟨-, hvalue, -, hless⟩ := toRat_sub_of_le hx hy h0 hle
  refine ⟨?_, fun hpos => ?_⟩
  · rw [hvalue]
    exact nearest_sub_lt hle h0 h
  · calc (2 : ℚ) ^ lastPlace (x - y).toRat ≤ 2 ^ lastPlace x.toRat :=
          zpow_le_zpow_right₀ one_le_two (lastPlace_mono hpos hless)
      _ < 2 * y.toRat := h

/-- **What has made less twice counts.** -/
theorem counts_of_steps (hx : x.isFinite) (hy : y.isFinite) (h0 : 0 < y.toRat) (hle : y.toRat ≤ x.toRat)
    (hless : x - y < x) (hle' : y.toRat ≤ (x - y).toRat) (hless' : x - y - y < x - y)
    (hpos : 0 < (x - y - y).toRat) : Counts y (x - y - y) := by
  obtain ⟨hfinite, hvalue, -, -⟩ := toRat_sub_of_le hx hy h0 hle
  obtain ⟨hfinite', hvalue', -, -⟩ := toRat_sub_of_le hfinite hy h0 hle'
  exact lt_of_steps (nearest_toRat x) (nearest_toRat (x - y)) (nearest_toRat (x - y - y)) h0 hvalue.symm hvalue'.symm
    ((lt_iff hfinite hx).1 hless) ((lt_iff hfinite' hfinite).1 hless') hpos

/-- A positive number is at least the unit of the least last place. -/
theorem unit_le (h : 0 < y.toRat) : (2 : ℚ) ^ (-149 : ℤ) ≤ y.toRat := by
  obtain ⟨n, hn⟩ := exists_multiple (nearest_toRat y) h (le_max_right _ _)
  have hunit : (0 : ℚ) < 2 ^ (-149 : ℤ) := by positivity
  have hpos : 0 < n := by
    rw [hn] at h
    exact_mod_cast pos_of_mul_pos_left h hunit.le
  have hone : (1 : ℚ) ≤ n := by exact_mod_cast hpos
  calc (2 : ℚ) ^ (-149 : ℤ) = 1 * 2 ^ (-149 : ℤ) := (one_mul _).symm
    _ ≤ n * 2 ^ (-149 : ℤ) := mul_le_mul_of_nonneg_right hone hunit.le
    _ = y.toRat := hn.symm

/-- **A number counts in what is less than 2 ^ 24 times as great.** -/
theorem counts_of_lt (h0 : 0 < y.toRat) (hx : 0 < x.toRat) (h : x.toRat < 2 ^ 24 * y.toRat) : Counts y x := by
  unfold Counts
  by_cases hplace : lastPlace x.toRat = -149
  · have hunit := unit_le h0
    rw [hplace]
    linarith
  · have hlead := lastPlace_le hx hplace
    linarith

end MotionScript.Scalar
