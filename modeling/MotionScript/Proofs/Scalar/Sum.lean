import MotionScript.Proofs.Scalar.Order
import MotionScript.Proofs.Scalar.Rounding

/-!
# Sums of scalars

* `add_holds`: a sum of finite scalars holds the exact sum, rounded.
* `toRat_add`: as long as it does not overflow, its value is the exact sum, rounded.
* `sub_eq_add_neg`: a difference is the sum with the negated number.
-/

namespace MotionScript.Scalar

open Float.Model (UnpackedFloat Format)

open Float.Model.UnpackedFloat

/-! ## Parts that hold a number -/

theorem abs_valueOf_finite (s : Sign) {m : ℕ} {e : ℤ} (hm : 0 < m) :
    |valueOf (.finite s m e hm)| = m * 2 ^ e := by
  have : (0 : ℚ) ≤ m * 2 ^ e := by positivity
  rw [valueOf_finite]
  cases s <;> simp only [signed, abs_neg, abs_of_nonneg this]

theorem abs_valueOf_lt {u : UnpackedFloat} (hr : Rounded u) (hi : InRange u) : |valueOf u| < 2 ^ 128 := by
  rcases u with s | _ | s | ⟨s, m, e, hm⟩
  · simp [valueOf]
  · simp [valueOf]
  · simp [valueOf]
  · have hm' : (m : ℚ) < 2 ^ 24 := by exact_mod_cast hr.1
    have he : (2 : ℚ) ^ e ≤ 2 ^ (104 : ℤ) := zpow_le_zpow_right₀ one_le_two hi
    calc |valueOf (.finite s m e hm)| = m * 2 ^ e := abs_valueOf_finite s hm
      _ < 2 ^ 24 * 2 ^ e := by gcongr
      _ ≤ 2 ^ 24 * 2 ^ (104 : ℤ) := by gcongr
      _ = 2 ^ 128 := by norm_num

theorem inRange_of_abs_lt {u : UnpackedFloat} (hr : Rounded u) (h : |valueOf u| < 2 ^ 128) : InRange u := by
  rcases u with s | _ | s | ⟨s, m, e, hm⟩
  · trivial
  · trivial
  · trivial
  · by_contra hi
    have he : 105 ≤ e := by simp only [InRange] at hi; omega
    have hm' : (2 : ℚ) ^ 23 ≤ m := by exact_mod_cast hr.2.2.resolve_right (by omega)
    have hp : (2 : ℚ) ^ (105 : ℤ) ≤ 2 ^ e := zpow_le_zpow_right₀ one_le_two he
    have hmul : (2 : ℚ) ^ 23 * 2 ^ (105 : ℤ) ≤ m * 2 ^ e := by gcongr
    norm_num at hmul h
    rw [abs_valueOf_finite] at h
    linarith

/-- Parts make up the scalar of the value that they hold, if there is one. -/
theorem Holds.ofParts {u : UnpackedFloat} {v : ℚ} (h : Holds u v) (hv : |v| < 2 ^ 128) :
    (ofParts u).isFinite ∧ (ofParts u).toRat = v := by
  have hp := parts_ofParts h.rounded (inRange_of_abs_lt h.rounded (by rwa [h.value]))
  refine ⟨?_, ?_⟩
  · rw [isFinite_eq, hp, h.finite]
  · unfold toRat
    rw [hp, h.value]

/-- Else they make up an infinity. -/
theorem Holds.ofParts_overflow {u : UnpackedFloat} {v : ℚ} (h : Holds u v) (hv : 2 ^ 128 ≤ v) :
    (Scalar.ofParts u).parts = .infinity .positive := by
  have hi : ¬InRange u := fun hi => by
    have := abs_valueOf_lt h.rounded hi
    rw [h.value, abs_of_nonneg (by linarith [show (0 : ℚ) ≤ 2 ^ 128 by positivity])] at this
    linarith
  obtain ⟨-, hf, hval⟩ := h
  rcases u with s | _ | s | ⟨s, m, e, hm⟩
  · exact absurd trivial hi
  · exact absurd trivial hi
  · exact absurd trivial hi
  rw [Scalar.ofParts_overflow s hm (by simp only [InRange] at hi; omega)]
  cases s with
  | positive => rfl
  | negative =>
    have := valueOf_positive_pos (e := e) hm
    rw [valueOf_negative] at hval
    linarith [show (0 : ℚ) < 2 ^ 128 by positivity]

/-! ## Sums -/

theorem add_def (x y : Scalar) : x + y = ofParts (UnpackedFloat.add Format.binary32 x.parts y.parts) := rfl

theorem decreaseExponent_value (s : Sign) (m : ℕ) {e t : ℤ} (h : t ≤ e) :
    ((s.apply (decreaseExponent m e t).1 : ℤ) : ℚ) * 2 ^ t = (s.apply m : ℤ) * 2 ^ e := by
  unfold decreaseExponent
  dsimp only
  rw [Nat.shiftLeft_eq, zpow_split h]
  cases s <;> simp only [Sign.apply] <;> push_cast <;> ring

theorem add_parts {u v : UnpackedFloat} (hu : Rounded u) (hv : Rounded v) (hfu : u.isFinite) (hfv : v.isFinite) :
    Holds (UnpackedFloat.add Format.binary32 u v) (nearest (valueOf u + valueOf v)) := by
  rcases u with _ | _ | s₁ | ⟨s₁, m₁, e₁, hm₁⟩
  · cases hfu
  · cases hfu
  · rcases v with _ | _ | s₂ | ⟨s₂, m₂, e₂, hm₂⟩
    · cases hfv
    · cases hfv
    · have h0 : nearest (valueOf (.zero s₁) + valueOf (.zero s₂)) = 0 := by simp [valueOf, nearest]
      rw [h0]
      cases s₁ <;> cases s₂ <;> exact ⟨trivial, rfl, rfl⟩
    · refine ⟨hv, rfl, ?_⟩
      rw [show valueOf (.zero s₁) = 0 from rfl, zero_add, nearest_valueOf hv]
      rfl
  · rcases v with _ | _ | s₂ | ⟨s₂, m₂, e₂, hm₂⟩
    · cases hfv
    · cases hfv
    · refine ⟨hu, rfl, ?_⟩
      rw [show valueOf (.zero s₂) = 0 from rfl, add_zero, nearest_valueOf hu]
      rfl
    · -- at the lesser of the two exponents both are integers
      have h := normalize_spec (s₁.apply (decreaseExponent m₁ e₁ (min e₁ e₂)).1 +
        s₂.apply (decreaseExponent m₂ e₂ (min e₁ e₂)).1) (min e₁ e₂)
      push_cast at h
      rw [add_mul, decreaseExponent_value s₁ m₁ (min_le_left e₁ e₂),
        decreaseExponent_value s₂ m₂ (min_le_right e₁ e₂)] at h
      exact h

/-- **A sum holds the exact sum, rounded.** -/
theorem add_holds {x y : Scalar} (hx : x.isFinite) (hy : y.isFinite) :
    Holds (UnpackedFloat.add Format.binary32 x.parts y.parts) (nearest (x.toRat + y.toRat)) :=
  add_parts (fits_parts x).1 (fits_parts y).1 hx hy

/-- The value of a sum that does not overflow. -/
theorem toRat_add {x y : Scalar} (hx : x.isFinite) (hy : y.isFinite)
    (h : |nearest (x.toRat + y.toRat)| < 2 ^ 128) :
    (x + y).isFinite ∧ (x + y).toRat = nearest (x.toRat + y.toRat) :=
  (add_holds hx hy).ofParts h

/-! ## Differences -/

theorem parts_neg (x : Scalar) : (-x).parts = x.parts.neg := by
  show (ofParts x.parts.neg).parts = _
  have h := fits_parts x
  apply parts_ofParts <;> generalize x.parts = u at h ⊢ <;> cases u <;> first | trivial | exact h.1 | exact h.2

theorem isFinite_neg {x : Scalar} (hx : x.isFinite) : (-x).isFinite := by
  rw [isFinite_eq] at hx ⊢
  rw [parts_neg]
  generalize x.parts = u at hx
  cases u <;> exact hx

theorem toRat_neg (x : Scalar) : (-x).toRat = -x.toRat := by
  unfold toRat
  rw [parts_neg]
  generalize x.parts = u
  rcases u with s | _ | s | ⟨s, m, e, hm⟩
  · exact neg_zero.symm
  · exact neg_zero.symm
  · exact neg_zero.symm
  · simp only [UnpackedFloat.neg, valueOf_finite]
    cases s
    · exact (neg_neg _).symm
    · rfl

theorem sub_eq_add_neg (x y : Scalar) : x - y = x + -y := by
  have hsub : x - y = ofParts (UnpackedFloat.sub Format.binary32 x.parts y.parts) := rfl
  rw [hsub, add_def, parts_neg]
  congr 1
  generalize x.parts = u
  generalize y.parts = v
  rcases u with s₁ | _ | s₁ | ⟨s₁, m₁, e₁, hm₁⟩ <;> rcases v with s₂ | _ | s₂ | ⟨s₂, m₂, e₂, hm₂⟩ <;>
    try rfl
  -- only here the arithmetic of the mantissas differs
  cases s₂
  · simp only [UnpackedFloat.sub, UnpackedFloat.add, UnpackedFloat.neg, Sign.apply, sub_neg_eq_add]
  · rfl

theorem nearest_nonneg {v : ℚ} (hv : 0 ≤ v) : 0 ≤ nearest v := by
  rw [nearest, if_neg (not_lt.2 hv)]
  exact nearestPos_nonneg hv

@[simp]
theorem toRat_zero : toRat 0 = 0 := rfl

end MotionScript.Scalar
