import MotionScript.Proofs.Scalar.Grid

/-!
# The words of scalars

A scalar that is not negative is written as a word that grows with it, exponent first and mantissa behind it.

* `toNat_toBits`: the word of a positive number.
* `Clock.toBits_lt`: a clock that shows less has a lesser word.
-/

namespace MotionScript.Scalar

open Float.Model (UnpackedFloat Format)

open Float.Model.UnpackedFloat

/-- A word without a sign, from its two fields. -/
theorem toNat_packComponents_positive {e m : ℕ} (he : e < 2 ^ 8) (hm : m < 2 ^ 23) :
    (packComponents Format.binary32 .positive (.ofNat 8 e) (.ofNat 23 m)).toNat = e * 2 ^ 23 + m := by
  have hexponent : (0#1 ++ BitVec.ofNat 8 e).toNat = e := by
    rw [BitVec.toNat_append, BitVec.toNat_zero, Nat.zero_shiftLeft, Nat.zero_or, BitVec.toNat_ofNat,
      Nat.mod_eq_of_lt he]
  show ((0#1 ++ BitVec.ofNat 8 e) ++ BitVec.ofNat 23 m).toNat = _
  rw [BitVec.toNat_append, hexponent, BitVec.toNat_ofNat, Nat.mod_eq_of_lt hm, ← Nat.shiftLeft_add_eq_or_of_lt hm,
    Nat.shiftLeft_eq]

/-- **The word of a positive number.** The leading bit of the mantissa carries into the exponent, so that numbers
with it and without it are written alike. -/
theorem toNat_toBits {x : Scalar} {m : ℕ} {e : ℤ} {hm : 0 < m} (h : x.parts = .finite .positive m e hm) :
    x.toBits.toNat = (e + 149).toNat * 2 ^ 23 + m := by
  have hfits := fits_parts x
  rw [h] at hfits
  obtain ⟨⟨hlt, hmin, hnormal⟩, hmax⟩ := hfits
  have hmax' : e ≤ 104 := hmax
  have hword : x.toBits.toNat = (UnpackedFloat.pack Format.binary32 (.finite .positive m e hm)).toNat := by
    conv_lhs => rw [← ofParts_parts x, h]
    rfl
  rw [hword]
  by_cases hlead : 2 ^ 23 ≤ m
  · have hfraction : BitVec.ofNat 23 m = BitVec.ofNat 23 (m - 2 ^ 23) := by
      apply BitVec.eq_of_toNat_eq
      rw [BitVec.toNat_ofNat, BitVec.toNat_ofNat]
      omega
    rw [pack_normal .positive (e := (e + 150).toNat) (by omega) hlead hlt hm (by omega), hfraction,
      toNat_packComponents_positive (by omega) (by omega)]
    omega
  · obtain rfl := hnormal.resolve_left hlead
    rw [pack_subnormal .positive (by omega) hm rfl]
    exact toNat_packComponents_positive (by norm_num) (by omega)

/-- The parts of a number that is greater than zero. -/
theorem parts_of_toRat_pos {x : Scalar} (hx : x.isFinite) (h : 0 < x.toRat) :
    ∃ m e hm, x.parts = .finite .positive m e hm := by
  rw [isFinite_eq] at hx
  unfold toRat at h
  generalize x.parts = u at *
  rcases u with _ | _ | s | ⟨s, m, e, hm⟩
  · cases hx
  · cases hx
  · exact absurd h (lt_irrefl _)
  · cases s with
    | positive => exact ⟨m, e, hm, rfl⟩
    | negative =>
      have hpos := valueOf_positive_pos (e := e) hm
      rw [valueOf_negative] at h
      linarith

/-- **Words grow with positive numbers.** -/
theorem toBits_lt_of_pos {x y : Scalar} (hx : x.isFinite) (hy : y.isFinite) (h0 : 0 < x.toRat)
    (h : x.toRat < y.toRat) : x.toBits < y.toBits := by
  obtain ⟨m₁, e₁, hm₁, h₁⟩ := parts_of_toRat_pos hx h0
  obtain ⟨m₂, e₂, hm₂, h₂⟩ := parts_of_toRat_pos hy (h0.trans h)
  have hfits₁ := (fits_parts x).1
  have hfits₂ := (fits_parts y).1
  rw [h₁] at hfits₁
  rw [h₂] at hfits₂
  obtain ⟨hlt₁, hmin₁, hnormal₁⟩ := hfits₁
  obtain ⟨hlt₂, hmin₂, hnormal₂⟩ := hfits₂
  unfold toRat at h
  rw [h₁, h₂, valueOf_positive, valueOf_positive] at h
  rw [UInt32.lt_iff_toNat_lt, toNat_toBits h₁, toNat_toBits h₂]
  rcases lt_trichotomy e₁ e₂ with he | rfl | he
  · -- the greater exponent makes up for any mantissa
    have hlead : 2 ^ 23 ≤ m₂ := hnormal₂.resolve_right (by omega)
    have hexponents : (e₁ + 149).toNat + 1 ≤ (e₂ + 149).toNat := by omega
    omega
  · have hp : (0 : ℚ) < 2 ^ e₁ := by positivity
    have hm : m₁ < m₂ := by exact_mod_cast lt_of_mul_lt_mul_right h hp.le
    omega
  · exact absurd h (magnitude_lt hlt₂ hmin₂ hnormal₁ he).le.not_gt

/-- **A clock that shows less has a lesser word.** -/
theorem Clock.toBits_lt {x y : Scalar} {a b : ℕ} (hx : Clock x a) (hy : Clock y b) (h : a < b) :
    x.toBits < y.toBits := by
  have hvalues : x.toRat < y.toRat := (lt_iff hx.finite hy.finite).1 ((hx.toTicks.lt_iff hy.toTicks).2 h)
  rcases Nat.eq_zero_or_pos a with rfl | ha
  · have hpos : 0 < y.toRat := by
      rw [hx.plain rfl, toRat_zero] at hvalues
      exact hvalues
    obtain ⟨m, e, hm, hparts⟩ := parts_of_toRat_pos hy.finite hpos
    have hzero : (0 : Scalar).toBits.toNat = 0 := rfl
    rw [hx.plain rfl, UInt32.lt_iff_toNat_lt, hzero, toNat_toBits hparts]
    omega
  · refine toBits_lt_of_pos hx.finite hy.finite ?_ hvalues
    rw [hx.value]
    positivity

end MotionScript.Scalar
