import MotionScript.Proofs.Scalar.Floor

/-!
# Differences of scalars

Differences of numbers that are close are not rounded away: there are numbers enough below the normal ones. Sums of
squares are never negative, and overflow makes them infinite but nothing that is not a number.

* `zero_lt_sub`: the difference of two numbers in order is positive, the infinities included.
* `sub_beq_zero`, `div_beq_zero`: the difference of a number to itself, and a part of it, are zeros.
* `sameNumber_add_mul_zero`: a step that is multiplied by zero moves nothing.
* `zero_le_add`, `zero_le_add_of_neg_le`, `zero_le_mul_self`, `zero_le_sqrt`: sums, squares and roots that are not
  negative.
-/

namespace MotionScript.Scalar

open Float.Model (UnpackedFloat Format)

variable {x y z : Scalar}

/-! ## Numbers in order -/

theorem beq_iff : x == y ↔ x ≤ y ∧ y ≤ x := by
  have hbeq : (x == y) = (x.parts.compare y.parts == some .eq) := rfl
  rw [hbeq, le_def, le_def, UnpackedFloat.le, UnpackedFloat.le, compare_swap x.parts y.parts]
  generalize x.parts.compare y.parts = o
  rcases o with _ | _ | _ | _ <;> decide

theorem beq_comm : x == y ↔ y == x := by rw [beq_iff, beq_iff, and_comm]

/-- What equals a finite number is finite. -/
theorem isFinite_of_beq (hx : x.isFinite) (h : x == y) : y.isFinite := by
  obtain ⟨hle, hge⟩ := beq_iff.1 h
  rcases isFinite_or_infinity (not_isNaN_of_ge hle) with hf | hinf | hinf
  · exact hf
  · exact absurd hge (not_le_of_lt (lt_infinity hx hinf))
  · rcases le_cases hle with ⟨-, hf, -⟩ | ⟨hx', -⟩ | ⟨-, hy⟩
    · exact hf
    · rw [isFinite_eq, hx'] at hx
      cases hx
    · rw [hinf] at hy
      cases hy

protected theorem le_of_lt (h : x < y) : x ≤ y := by
  rw [lt_def, UnpackedFloat.lt] at h
  rw [le_def, UnpackedFloat.le]
  generalize x.parts.compare y.parts = o at *
  rcases o with _ | _ | _ | _ <;> revert h <;> decide

protected theorem lt_of_le_of_lt (h : x ≤ y) (h' : y < z) : x < z :=
  lt_of_not_le (not_isNaN_of_lt h') (not_isNaN_of_le h) fun hle => not_lt_of_le (Scalar.le_trans hle h) h'

/-- The greater of a number and anything is a number. -/
theorem not_isNaN_max (hx : ¬x.isNaN) : ¬(Scalar.max x y).isNaN := by
  unfold Scalar.max
  split
  · exact hx
  · split
    · exact hx
    · next hy => exact hy

/-- What is between two numbers is finite. -/
theorem isFinite_of_lt_of_lt (h : x < y) (h' : y < z) : y.isFinite := by
  rcases isFinite_or_infinity (not_isNaN_of_lt h) with hf | hinf | hinf
  · exact hf
  · exact absurd (le_infinity (not_isNaN_of_lt h') hinf) (not_le_of_lt h')
  · exact absurd h (not_lt_infinity hinf)

/-! ## Differences -/

/-- Every scalar is a multiple of the least one. -/
theorem exists_units (x : Scalar) : ∃ n : ℤ, x.toRat = n * 2 ^ (-149 : ℤ) := by
  have hr := (fits_parts x).1
  unfold toRat
  generalize x.parts = u at hr
  rcases u with s | _ | s | ⟨s, m, e, hm⟩
  · exact ⟨0, by simp [valueOf]⟩
  · exact ⟨0, by simp [valueOf]⟩
  · exact ⟨0, by simp [valueOf]⟩
  · refine ⟨s.apply m * 2 ^ (e - -149).toNat, ?_⟩
    have hvalue : valueOf (.finite s m e hm) = (s.apply m : ℤ) * 2 ^ e := rfl
    rw [hvalue, zpow_split hr.2.1]
    push_cast
    ring

/-- The least positive scalar. -/
def least : Scalar := .ofBits 1

theorem toRat_least : least.toRat = 2 ^ (-149 : ℤ) := by decide +kernel

/-- What is no negative infinity is moved to positive infinity. -/
theorem add_infinity (hx : ¬x.isNaN) (hne : x.parts ≠ .infinity .negative) (hy : y.parts = .infinity .positive) :
    (x + y).parts = .infinity .positive := by
  rw [isNaN_eq] at hx
  rw [add_def, hy]
  generalize x.parts = u at hx hne
  rcases u with (_ | _) | _ | s | ⟨s, m, e, hm⟩
  · exact absurd rfl hne
  · exact parts_ofParts (u := .infinity .positive) trivial trivial
  · exact absurd rfl hx
  · exact parts_ofParts (u := .infinity .positive) trivial trivial
  · exact parts_ofParts (u := .infinity .positive) trivial trivial

/-- **The difference of numbers in order is positive**, however close they are. -/
theorem zero_lt_sub (h : x < y) : 0 < y - x := by
  have hx := not_isNaN_of_gt h
  have hy := not_isNaN_of_lt h
  rw [sub_eq_add_neg]
  rcases isFinite_or_infinity hx with hxf | hxi | hxi
  · rcases isFinite_or_infinity hy with hyf | hyi | hyi
    · rw [lt_iff hxf hyf] at h
      obtain ⟨n, hn⟩ := exists_units x
      obtain ⟨m, hm⟩ := exists_units y
      have hunit : (0 : ℚ) < 2 ^ (-149 : ℤ) := by positivity
      -- the exact difference is a whole number of units, and not none
      have hlt : n < m := by
        rw [hn, hm] at h
        exact_mod_cast lt_of_mul_lt_mul_right h hunit.le
      have hgap : least.toRat ≤ y.toRat + (-x).toRat := by
        have hone : (1 : ℚ) ≤ m - n := by exact_mod_cast (by omega : 1 ≤ m - n)
        calc least.toRat = 1 * 2 ^ (-149 : ℤ) := by rw [toRat_least, one_mul]
          _ ≤ (m - n) * 2 ^ (-149 : ℤ) := mul_le_mul_of_nonneg_right hone hunit.le
          _ = y.toRat + (-x).toRat := by
              rw [toRat_neg, hn, hm]
              ring
      rcases add_of_toRat_le hyf (isFinite_neg hxf) hgap with ⟨hf, hle⟩ | hinf
      · rw [lt_iff within_zero.finite hf, toRat_zero]
        rw [toRat_least] at hle
        exact hunit.trans_le hle
      · exact lt_infinity within_zero.finite hinf
    · exact lt_infinity within_zero.finite (infinity_add hyi (isFinite_neg hxf))
    · exact absurd h (not_lt_infinity hyi)
  · exact absurd (le_infinity hy hxi) (not_le_of_lt h)
  · have hneg : (-x).parts = .infinity .positive := by
      rw [parts_neg, hxi]
      rfl
    exact lt_infinity within_zero.finite (add_infinity hy (fun hyi => not_lt_infinity hyi h) hneg)

/-- Only finite scalars have a finite difference. -/
theorem isFinite_of_sub (h : (x - y).isFinite) : x.isFinite ∧ y.isFinite := by
  rw [sub_eq_add_neg] at h
  obtain ⟨hx, hy⟩ := isFinite_of_add h
  rw [isFinite_eq, parts_neg] at hy
  rw [isFinite_eq y]
  generalize y.parts = v at *
  cases v <;> exact ⟨hx, hy⟩

theorem sub_beq_zero (hx : x.isFinite) (h : x == y) : x - y == 0 := by
  have hy := isFinite_of_beq hx h
  have hval : x.toRat = y.toRat := by
    by_contra hne
    rw [(beq_eq_false_iff hx hy).2 hne] at h
    cases h
  have hsum : x.toRat + (-y).toRat = 0 := by rw [toRat_neg, hval, add_neg_cancel]
  rw [sub_eq_add_neg]
  obtain ⟨hf, hsub⟩ := toRat_add hx (isFinite_neg hy) (by rw [hsum, nearest_zero]; norm_num)
  rw [hsum, nearest_zero] at hsub
  exact beq_zero_iff.2 (parts_of_toRat_zero hf hsub)

/-- A part of nothing is nothing. -/
theorem div_beq_zero (hx : x == 0) (hy : 0 < y) : x / y == 0 := by
  obtain ⟨s, hs⟩ := beq_zero_iff.1 hx
  obtain ⟨hxf, hx0⟩ := toRat_of_zero hs
  rcases isFinite_or_infinity (not_isNaN_of_lt hy) with hyf | hinf | hinf
  · rw [lt_iff within_zero.finite hyf, toRat_zero] at hy
    have hquotient : x.toRat / y.toRat = 0 := by rw [hx0, zero_div]
    obtain ⟨hwithin, hval⟩ := div_within (k := 0) hxf hyf hy.ne' (by rw [hquotient]; norm_num) (by norm_num)
    rw [hquotient, nearest_zero] at hval
    exact beq_zero_iff.2 (parts_of_toRat_zero hwithin.finite hval)
  · exact beq_zero_iff.2 (div_infinity hxf hinf)
  · exact absurd hy (not_lt_infinity hinf)

/-- **A step that is multiplied by zero moves nothing**, if it is finite. -/
theorem sameNumber_add_mul_zero (hy : y.isFinite) (hz : z == 0) : SameNumber (x + y * z) x := by
  apply sameNumber_add_zero
  obtain ⟨s, hs⟩ := beq_zero_iff.1 hz
  obtain ⟨hzf, hz0⟩ := toRat_of_zero hs
  have hproduct : y.toRat * z.toRat = 0 := by rw [hz0, mul_zero]
  obtain ⟨hwithin, hval⟩ := mul_within (k := 0) hy hzf (by rw [hproduct]; norm_num) (by norm_num)
  rw [hproduct, nearest_zero] at hval
  exact beq_zero_iff.2 (parts_of_toRat_zero hwithin.finite hval)

theorem SameNumber.beq (h : SameNumber x y) (hy : y.isFinite) : x == y := by
  have hval : x.isFinite ∧ x.toRat = y.toRat := by
    rcases h with rfl | ⟨hx0, hy0⟩
    · exact ⟨hy, rfl⟩
    · obtain ⟨s, hs⟩ := beq_zero_iff.1 hx0
      obtain ⟨t, ht⟩ := beq_zero_iff.1 hy0
      exact ⟨(toRat_of_zero hs).1, (toRat_of_zero hs).2.trans (toRat_of_zero ht).2.symm⟩
  by_contra hne
  exact (beq_eq_false_iff hval.1 hy).1 (Bool.eq_false_iff.2 hne) hval.2

/-! ## Sums of squares -/

theorem zero_le_iff : 0 ≤ x ↔ x.isFinite ∧ 0 ≤ x.toRat ∨ x.parts = .infinity .positive := by
  constructor
  · intro h
    rcases le_cases h with ⟨-, hf, hle⟩ | ⟨hinf, -⟩ | ⟨-, hinf⟩
    · exact .inl ⟨hf, toRat_zero.ge.trans hle⟩
    · cases hinf
    · exact .inr hinf
  · rintro (⟨hf, hle⟩ | hinf)
    · exact (le_iff within_zero.finite hf).2 (toRat_zero.trans_le hle)
    · exact le_infinity (not_isNaN_of_isFinite within_zero.finite) hinf

theorem zero_le_add (hx : 0 ≤ x) (hy : 0 ≤ y) : 0 ≤ x + y := by
  rw [zero_le_iff] at hx hy ⊢
  rcases hx with ⟨hxf, hx0⟩ | hxi
  · rcases hy with ⟨hyf, hy0⟩ | hyi
    · exact add_of_toRat_le (z := 0) hxf hyf (by rw [toRat_zero]; exact add_nonneg hx0 hy0)
    · refine .inr (add_infinity (not_isNaN_of_isFinite hxf) (fun hxi => ?_) hyi)
      rw [isFinite_eq, hxi] at hxf
      cases hxf
  · rcases hy with ⟨hyf, -⟩ | hyi
    · exact .inr (infinity_add hxi hyf)
    · refine .inr (add_infinity ?_ (fun hneg => ?_) hyi)
      · rw [isNaN_eq, hxi]
        exact Bool.false_ne_true
      · rw [hxi] at hneg
        cases hneg

/-- A number that is no farther below zero than another is above it makes up for nothing less than zero. -/
theorem zero_le_add_of_neg_le (hy : y.isFinite) (h : -y ≤ x) : 0 ≤ x + y := by
  rw [zero_le_iff]
  rcases le_cases h with ⟨-, hx, hle⟩ | ⟨hinf, -⟩ | ⟨-, hinf⟩
  · rw [toRat_neg] at hle
    have hsum : (0 : Scalar).toRat ≤ x.toRat + y.toRat := by
      rw [toRat_zero]
      linarith
    have hadd := add_of_toRat_le hx hy hsum
    rwa [toRat_zero] at hadd
  · have hf := isFinite_neg hy
    rw [isFinite_eq, hinf] at hf
    cases hf
  · exact .inr (infinity_add hinf hy)

theorem zero_le_mul_self (hx : ¬x.isNaN) : 0 ≤ x * x := by
  rw [zero_le_iff]
  rcases isFinite_or_infinity hx with hf | hinf | hinf
  · rcases mul_cases hf hf (mul_self_nonneg _) with ⟨hfin, hval⟩ | hover
    · exact .inl ⟨hfin, by rw [hval]; exact nearest_nonneg (mul_self_nonneg _)⟩
    · exact .inr hover
  · right
    rw [mul_def, hinf]
    exact parts_ofParts (u := .infinity .positive) trivial trivial
  · right
    rw [mul_def, hinf]
    exact parts_ofParts (u := .infinity .positive) trivial trivial

theorem zero_le_sqrt (hx : 0 ≤ x) : 0 ≤ Float32.sqrt x := by
  rw [zero_le_iff] at hx ⊢
  rcases hx with ⟨hf, h0⟩ | hinf
  · have hwithin : Within (2 * 64) x := ⟨hf, (abs_toRat_lt x).le⟩
    obtain ⟨hroot, hroot0⟩ := hwithin.sqrt h0 (by norm_num)
    exact .inl ⟨hroot.finite, hroot0⟩
  · right
    have hsqrt : Float32.sqrt x = ofParts (UnpackedFloat.sqrt Format.binary32 x.parts) := rfl
    rw [hsqrt, hinf]
    exact parts_ofParts (u := .infinity .positive) trivial trivial

/-- What is rounded is a number, or too great. -/
theorem Holds.not_isNaN {u : UnpackedFloat} {v : ℚ} (h : Holds u v) : ¬(Scalar.ofParts u).isNaN := by
  have hf := h.finite
  by_cases hr : InRange u
  · apply not_isNaN_of_isFinite
    rwa [isFinite_eq, parts_ofParts h.rounded hr]
  · rcases u with s | _ | s | ⟨s, m, e, hm⟩
    · cases hf
    · cases hf
    · exact absurd trivial hr
    · rw [isNaN_eq, Scalar.ofParts_overflow s hm (by simp only [InRange] at hr; omega)]
      exact Bool.false_ne_true

theorem not_isNaN_sub (hx : x.isFinite) (hy : y.isFinite) : ¬(x - y).isNaN := by
  rw [sub_eq_add_neg]
  exact (add_holds hx (isFinite_neg hy)).not_isNaN

end MotionScript.Scalar
