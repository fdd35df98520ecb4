import MotionScript.Proofs.Scalar.Parts

/-!
# The order of scalars

In lowest terms numbers compare by their exponents first, so the comparisons of scalars are those of
the numbers that they stand for.

* `le_iff`, `lt_iff`: among finite scalars the comparisons are those of their values.
* `beq_eq_false_iff`, `eq_of_toRat`: the value of a finite scalar fixes it, but for the sign of a zero.
* `compare_swap`, `lt_of_not_le`: what holds of all scalars, whether they are finite or not.
-/

namespace MotionScript.Scalar

open Float.Model (UnpackedFloat Format)

open Float.Model.UnpackedFloat

/-- In lowest terms the exponent decides. -/
theorem magnitude_lt {m₁ m₂ : ℕ} {e₁ e₂ : ℤ} (h₁ : m₁ < 2 ^ 24) (hmin : -149 ≤ e₁)
    (h₂ : 2 ^ 23 ≤ m₂ ∨ e₂ = -149) (he : e₁ < e₂) : (m₁ : ℚ) * 2 ^ e₁ < m₂ * 2 ^ e₂ := by
  have hn : 2 ^ 23 ≤ m₂ := h₂.resolve_right (by omega)
  have hp : (0 : ℚ) < 2 ^ e₁ := by positivity
  rw [zpow_split he.le, ← mul_assoc]
  apply mul_lt_mul_of_pos_right _ hp
  have h2 : 2 ≤ 2 ^ (e₂ - e₁).toNat := Nat.le_self_pow (by omega) 2
  have : m₁ < m₂ * 2 ^ (e₂ - e₁).toNat :=
    lt_of_lt_of_le h₁ (Nat.mul_le_mul (show 2 ^ 23 ≤ m₂ from hn) h2)
  exact_mod_cast this

theorem compare_magnitudes {m₁ m₂ : ℕ} {e₁ e₂ : ℤ} (h₁ : m₁ < 2 ^ 24) (h₂ : m₂ < 2 ^ 24)
    (hmin₁ : -149 ≤ e₁) (hmin₂ : -149 ≤ e₂) (hn₁ : 2 ^ 23 ≤ m₁ ∨ e₁ = -149)
    (hn₂ : 2 ^ 23 ≤ m₂ ∨ e₂ = -149) :
    ((compare e₁ e₂).then (compare m₁ m₂)).Compares ((m₁ : ℚ) * 2 ^ e₁) (m₂ * 2 ^ e₂) := by
  rcases lt_trichotomy e₁ e₂ with h | h | h
  · rw [compare_lt_iff_lt.2 h]
    exact magnitude_lt h₁ hmin₁ hn₂ h
  · subst h
    have hp : (0 : ℚ) < 2 ^ e₁ := by positivity
    rw [compare_eq_iff_eq.2 rfl]
    rcases lt_trichotomy m₁ m₂ with h | h | h
    · rw [compare_lt_iff_lt.2 h]
      exact mul_lt_mul_of_pos_right (by exact_mod_cast h) hp
    · subst h
      rw [compare_eq_iff_eq.2 rfl]
      rfl
    · rw [compare_gt_iff_gt.2 h]
      exact mul_lt_mul_of_pos_right (by exact_mod_cast h) hp
  · rw [compare_gt_iff_gt.2 h]
    exact magnitude_lt h₂ hmin₂ hn₁ h

theorem valueOf_positive {m : ℕ} {e : ℤ} (hm : 0 < m) : valueOf (.finite .positive m e hm) = m * 2 ^ e := by
  simp [valueOf, Sign.apply]

theorem valueOf_positive_pos {m : ℕ} {e : ℤ} (hm : 0 < m) : 0 < valueOf (.finite .positive m e hm) := by
  rw [valueOf_positive]
  positivity

theorem valueOf_negative {m : ℕ} {e : ℤ} (hm : 0 < m) :
    valueOf (.finite .negative m e hm) = -valueOf (.finite .positive m e hm) := by
  simp [valueOf, Sign.apply]

theorem compare_parts {u v : UnpackedFloat} (hu : u.isFinite) (hv : v.isFinite) (hru : Rounded u)
    (hrv : Rounded v) : ∃ o, u.compare v = some o ∧ o.Compares (valueOf u) (valueOf v) := by
  rcases u with _ | _ | s₁ | ⟨s₁, m₁, e₁, hm₁⟩
  · cases hu
  · cases hu
  · rcases v with _ | _ | s₂ | ⟨s₂, m₂, e₂, hm₂⟩
    · cases hv
    · cases hv
    · exact ⟨.eq, rfl, rfl⟩
    · cases s₂
      · refine ⟨.gt, rfl, ?_⟩
        have := valueOf_positive_pos (e := e₂) hm₂
        rw [valueOf_negative]
        simp only [Ordering.compares_gt, gt_iff_lt]
        show _ < (0 : ℚ)
        linarith
      · exact ⟨.lt, rfl, valueOf_positive_pos hm₂⟩
  · rcases v with _ | _ | s₂ | ⟨s₂, m₂, e₂, hm₂⟩
    · cases hv
    · cases hv
    · cases s₁
      · refine ⟨.lt, rfl, ?_⟩
        have := valueOf_positive_pos (e := e₁) hm₁
        rw [valueOf_negative]
        simp only [Ordering.compares_lt]
        show _ < (0 : ℚ)
        linarith
      · exact ⟨.gt, rfl, valueOf_positive_pos hm₁⟩
    · -- of two numbers below zero the one with the greater magnitude is the lesser
      have hp₁ := valueOf_positive_pos (e := e₁) hm₁
      have hp₂ := valueOf_positive_pos (e := e₂) hm₂
      have key := compare_magnitudes hru.1 hrv.1 hru.2.1 hrv.2.1 hru.2.2 hrv.2.2
      cases s₁ <;> cases s₂
      · refine ⟨_, rfl, ?_⟩
        rw [valueOf_negative, valueOf_negative, Ordering.compares_swap]
        generalize (compare e₁ e₂).then (compare m₁ m₂) = o at key ⊢
        cases o with
        | lt => simpa [valueOf, Sign.apply] using key
        | eq => simpa [valueOf, Sign.apply] using key.symm
        | gt => simpa [valueOf, Sign.apply] using key
      · refine ⟨_, rfl, ?_⟩
        rw [valueOf_negative]
        simp only [Ordering.compares_lt]
        linarith
      · refine ⟨_, rfl, ?_⟩
        rw [valueOf_negative]
        simp only [Ordering.compares_gt]
        linarith
      · exact ⟨_, rfl, by simpa [valueOf, Sign.apply] using key⟩

theorem compare_finite {x y : Scalar} (hx : x.isFinite) (hy : y.isFinite) :
    ∃ o, x.parts.compare y.parts = some o ∧ o.Compares x.toRat y.toRat :=
  compare_parts hx hy (fits_parts x).1 (fits_parts y).1

/-- Among finite scalars `≤` is that of their values. -/
theorem le_iff {x y : Scalar} (hx : x.isFinite) (hy : y.isFinite) : x ≤ y ↔ x.toRat ≤ y.toRat := by
  obtain ⟨o, ho, hc⟩ := compare_finite hx hy
  rw [le_def, UnpackedFloat.le, ho]
  cases o with
  | lt => exact ⟨fun _ => hc.le, fun _ => rfl⟩
  | eq => exact ⟨fun _ => hc.le, fun _ => rfl⟩
  | gt => exact ⟨fun h => (by cases h), fun h => absurd hc (not_lt_of_ge h)⟩

/-- Among finite scalars `<` is that of their values. -/
theorem lt_iff {x y : Scalar} (hx : x.isFinite) (hy : y.isFinite) : x < y ↔ x.toRat < y.toRat := by
  obtain ⟨o, ho, hc⟩ := compare_finite hx hy
  rw [lt_def, UnpackedFloat.lt, ho]
  cases o with
  | lt => exact ⟨fun _ => hc, fun _ => rfl⟩
  | eq => exact ⟨fun h => (by cases h), fun h => absurd hc (ne_of_lt h)⟩
  | gt => exact ⟨fun h => (by cases h), fun h => absurd hc (lt_asymm h)⟩

/-- Finite scalars are told apart by their values. -/
theorem beq_eq_false_iff {x y : Scalar} (hx : x.isFinite) (hy : y.isFinite) : (x == y) = false ↔ x.toRat ≠ y.toRat := by
  obtain ⟨o, ho, hc⟩ := compare_finite hx hy
  have hbeq : (x == y) = (x.parts.compare y.parts == some .eq) := rfl
  rw [hbeq, ho]
  cases o with
  | lt => exact ⟨fun _ => hc.ne, fun _ => rfl⟩
  | eq => exact ⟨fun h => (by cases h), fun h => absurd hc h⟩
  | gt => exact ⟨fun _ => hc.ne', fun _ => rfl⟩

/-- The value of a finite scalar fixes it, but for the sign of a zero. -/
theorem eq_of_toRat {x y : Scalar} (hx : x.isFinite) (hy : y.isFinite) (h : x.toRat = y.toRat)
    (h0 : x.toRat ≠ 0) : x = y := by
  have hr₁ := (fits_parts x).1
  have hr₂ := (fits_parts y).1
  suffices x.parts = y.parts by rw [← ofParts_parts x, this, ofParts_parts]
  rw [isFinite_eq] at hx hy
  unfold toRat at h h0
  generalize x.parts = u at *
  generalize y.parts = v at *
  rcases u with _ | _ | s₁ | ⟨s₁, m₁, e₁, hm₁⟩
  · cases hx
  · cases hx
  · exact absurd rfl h0
  rcases v with _ | _ | s₂ | ⟨s₂, m₂, e₂, hm₂⟩
  · cases hy
  · cases hy
  · exact absurd h h0
  have hp₁ := valueOf_positive_pos (e := e₁) hm₁
  have hp₂ := valueOf_positive_pos (e := e₂) hm₂
  -- a magnitude has one form in lowest terms
  have same : valueOf (.finite .positive m₁ e₁ hm₁) = valueOf (.finite .positive m₂ e₂ hm₂) →
      m₁ = m₂ ∧ e₁ = e₂ := by
    intro hv
    rw [valueOf_positive, valueOf_positive] at hv
    rcases lt_trichotomy e₁ e₂ with h | h | h
    · exact absurd hv (magnitude_lt hr₁.1 hr₁.2.1 hr₂.2.2 h).ne
    · subst h
      exact ⟨by exact_mod_cast mul_right_cancel₀ (zpow_ne_zero e₁ two_ne_zero) hv, rfl⟩
    · exact absurd hv (magnitude_lt hr₂.1 hr₂.2.1 hr₁.2.2 h).ne'
  cases s₁ <;> cases s₂ <;> (try rw [valueOf_negative] at h) <;> (try rw [valueOf_negative] at h)
  · obtain ⟨rfl, rfl⟩ := same (by linarith)
    rfl
  · linarith
  · linarith
  · obtain ⟨rfl, rfl⟩ := same h
    rfl

/-! ## All scalars -/

theorem compare_swap (u v : UnpackedFloat) : v.compare u = (u.compare v).map Ordering.swap := by
  rcases u with s₁ | _ | s₁ | ⟨s₁, m₁, e₁, hm₁⟩ <;> rcases v with s₂ | _ | s₂ | ⟨s₂, m₂, e₂, hm₂⟩
  -- in all other cases the signs decide
  case finite.finite =>
    have hmagnitude : (compare e₂ e₁).then (compare m₂ m₁) = ((compare e₁ e₂).then (compare m₁ m₂)).swap := by
      rw [Ordering.swap_then, ← Std.OrientedOrd.eq_swap, ← Std.OrientedOrd.eq_swap]
    cases s₁ <;> cases s₂
    · simp only [UnpackedFloat.compare, hmagnitude, Option.map_some]
    · rfl
    · rfl
    · simp only [UnpackedFloat.compare, hmagnitude, Option.map_some]
  all_goals first | rfl | (cases s₁ <;> rfl) | (cases s₂ <;> rfl) | (cases s₁ <;> cases s₂ <;> rfl)

theorem not_lt_of_le {x y : Scalar} (h : x ≤ y) : ¬y < x := by
  rw [le_def, UnpackedFloat.le] at h
  rw [lt_def, UnpackedFloat.lt, compare_swap x.parts y.parts]
  generalize x.parts.compare y.parts = o at *
  rcases o with _ | _ | _ | _ <;> revert h <;> decide

theorem not_le_of_lt {x y : Scalar} (h : x < y) : ¬y ≤ x := fun h' => not_lt_of_le h' h

/-- Numbers are in order, the infinities included. -/
theorem lt_of_not_le {x y : Scalar} (hx : ¬x.isNaN) (hy : ¬y.isNaN) (h : ¬x ≤ y) : y < x := by
  rw [le_def, UnpackedFloat.le] at h
  rw [lt_def, UnpackedFloat.lt, compare_swap x.parts y.parts]
  rw [isNaN_eq] at hx hy
  have hcompare : x.parts.compare y.parts ≠ none := by
    generalize x.parts = u at *
    generalize y.parts = v at *
    rcases u with (_ | _) | _ | s | ⟨s | s, m, e, hm⟩ <;> rcases v with (_ | _) | _ | t | ⟨t | t, m', e', hm'⟩ <;>
      first | exact absurd rfl hx | exact absurd rfl hy | exact Option.some_ne_none _
  generalize x.parts.compare y.parts = o at *
  rcases o with _ | _ | _ | _ <;> revert h hcompare <;> decide

theorem not_lt_of_lt {x y : Scalar} (h : x < y) : ¬y < x := by
  rw [lt_def, UnpackedFloat.lt] at h
  rw [lt_def, UnpackedFloat.lt, compare_swap x.parts y.parts]
  generalize x.parts.compare y.parts = o at *
  rcases o with _ | _ | _ | _ <;> revert h <;> decide

end MotionScript.Scalar
