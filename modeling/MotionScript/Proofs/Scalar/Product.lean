import MotionScript.Proofs.Scalar.Sum

/-!
# Products, quotients and roots of scalars

* `mul_holds`, `div_holds`: a product and a quotient hold the exact ones, rounded.
* `div_infinity`, `infinity_div`: quotients with infinity.
* `sqrt_parts`: a root holds a number in the place of the exact root, rounded.
-/

namespace MotionScript.Scalar

open Float.Model (UnpackedFloat Format totalExponent)

open Float.Model.UnpackedFloat

theorem signed_mul (s t : Sign) (v w : ℚ) : signed s v * signed t w = signed (s * t) (v * w) := by
  cases s <;> cases t
  · exact neg_mul_neg v w
  · exact neg_mul v w
  · exact mul_neg v w
  · rfl

theorem signed_div (s t : Sign) (v w : ℚ) : signed s v / signed t w = signed (s / t) (v / w) := by
  have hst : s / t = s * t := by cases s <;> cases t <;> rfl
  have hinv : (signed t w)⁻¹ = signed t w⁻¹ := by
    cases t with
    | negative => exact inv_neg
    | positive => rfl
  rw [hst, div_eq_mul_inv, div_eq_mul_inv, hinv, signed_mul]

theorem nearest_signed (s : Sign) {v : ℚ} (hv : 0 < v) : nearest (signed s v) = signed s (nearestPos v) := by
  have hpos : nearest v = nearestPos v := if_neg (not_lt.2 hv.le)
  cases s with
  | negative => rw [signed, nearest_neg, hpos, signed]
  | positive => exact hpos

@[simp]
theorem nearest_zero : nearest 0 = 0 := by simp [nearest]

/-! ## Products -/

theorem mul_def (x y : Scalar) : x * y = ofParts (UnpackedFloat.mul Format.binary32 x.parts y.parts) := rfl

/-- The mantissas of two numbers have bits enough for the mantissa of their product. -/
theorem add_exponents_le {m₁ m₂ : ℕ} {e₁ e₂ : ℤ} (h₁ : 0 < m₁) (h₂ : 0 < m₂) (hn₁ : 2 ^ 23 ≤ m₁ ∨ e₁ = -149)
    (hn₂ : 2 ^ 23 ≤ m₂ ∨ e₂ = -149) : e₁ + e₂ ≤ lastPlace ((m₁ * m₂ : ℕ) * 2 ^ (e₁ + e₂)) := by
  have hpos : 0 < m₁ * m₂ := Nat.mul_pos h₁ h₂
  rw [lastPlace_natCast_mul hpos]
  rcases hn₁ with hn₁ | rfl
  · have hlog : 23 ≤ (m₁ * m₂).log2 := (Nat.le_log2 hpos.ne').2 (hn₁.trans (Nat.le_mul_of_pos_right m₁ h₂))
    omega
  · rcases hn₂ with hn₂ | rfl
    · have hlog : 23 ≤ (m₁ * m₂).log2 := (Nat.le_log2 hpos.ne').2 (hn₂.trans (Nat.le_mul_of_pos_left m₂ h₁))
      omega
    · omega

theorem mul_parts {u v : UnpackedFloat} (hu : Rounded u) (hv : Rounded v) (hfu : u.isFinite) (hfv : v.isFinite) :
    Holds (UnpackedFloat.mul Format.binary32 u v) (nearest (valueOf u * valueOf v)) := by
  rcases u with _ | _ | s₁ | ⟨s₁, m₁, e₁, hm₁⟩
  · cases hfu
  · cases hfu
  · have hzero : nearest (valueOf (.zero s₁) * valueOf v) = 0 := by simp [valueOf]
    rw [hzero]
    rcases v with _ | _ | s₂ | ⟨s₂, m₂, e₂, hm₂⟩
    · cases hfv
    · cases hfv
    · exact ⟨trivial, rfl, rfl⟩
    · exact ⟨trivial, rfl, rfl⟩
  · rcases v with _ | _ | s₂ | ⟨s₂, m₂, e₂, hm₂⟩
    · cases hfv
    · cases hfv
    · have hzero : nearest (valueOf (.finite s₁ m₁ e₁ hm₁) * valueOf (.zero s₂)) = 0 := by simp [valueOf]
      rw [hzero]
      exact ⟨trivial, rfl, rfl⟩
    · have h := roundWithAccuracy_spec (s₁ * s₂) (Nat.mul_pos hm₁ hm₂) (add_exponents_le hm₁ hm₂ hu.2.2 hv.2.2)
      have hvalue : ((m₁ * m₂ : ℕ) : ℚ) * 2 ^ (e₁ + e₂) = m₁ * 2 ^ e₁ * (m₂ * 2 ^ e₂) := by
        rw [zpow_add₀ two_ne_zero]
        push_cast
        ring
      rw [hvalue] at h
      rw [valueOf_finite, valueOf_finite, signed_mul, nearest_signed _ (by positivity)]
      exact h

/-- **A product holds the exact product, rounded.** -/
theorem mul_holds {x y : Scalar} (hx : x.isFinite) (hy : y.isFinite) :
    Holds (UnpackedFloat.mul Format.binary32 x.parts y.parts) (nearest (x.toRat * y.toRat)) :=
  mul_parts (fits_parts x).1 (fits_parts y).1 hx hy

/-! ## Quotients -/

theorem div_def (x y : Scalar) : x / y = ofParts (UnpackedFloat.div Format.binary32 x.parts y.parts) := rfl

/-- A quotient of naturals with a remainder reads the exact quotient. -/
theorem reads_quotient (n : ℕ) {d : ℕ} (hd : 0 < d) :
    Reads (.ofMantissaAndAccuracy (n / d) (accuracyOfFraction (n % d) d)) ((n : ℚ) / d) := by
  have hdq : (0 : ℚ) < d := by exact_mod_cast hd
  have hdecomp : (n : ℚ) / d = (n / d : ℕ) + ((n % d : ℕ) : ℚ) / d := by
    rw [eq_comm, ← mul_div_cancel_left₀ (((n / d : ℕ) : ℚ)) hdq.ne', ← add_div]
    congr 1
    exact_mod_cast Nat.div_add_mod n d
  have hlt : ((n % d : ℕ) : ℚ) < d := by exact_mod_cast Nat.mod_lt n hd
  refine ⟨((n % d : ℕ) : ℚ) / d, ?_, by positivity, (div_lt_one hdq).2 hlt, ?_, ?_⟩
  · rw [mantissa_ofMantissaAndAccuracy]
    exact hdecomp
  all_goals
    unfold accuracyOfFraction
    rcases Nat.eq_zero_or_pos (n % d) with h0 | hpos
    · rw [if_pos h0, h0]
      simp [ExtendedMantissa.ofMantissaAndAccuracy]
    · have hposq : (0 : ℚ) < ((n % d : ℕ) : ℚ) / d := by
        have : (0 : ℚ) < (n % d : ℕ) := by exact_mod_cast hpos
        positivity
      have htwice : 2 * (((n % d : ℕ) : ℚ) / d) = (2 * (n % d) : ℕ) / d := by
        push_cast
        ring
      rw [if_neg hpos.ne', htwice]
      rcases lt_trichotomy (2 * (n % d)) d with h | h | h
      · have hq : ((2 * (n % d) : ℕ) : ℚ) / d < 1 := (div_lt_one hdq).2 (by exact_mod_cast h)
        rw [compare_lt_iff_lt.2 h]
        simp only [ExtendedMantissa.ofMantissaAndAccuracy]
        grind
      · have hq : ((2 * (n % d) : ℕ) : ℚ) / d = 1 := (div_eq_one_iff_eq hdq.ne').2 (by exact_mod_cast h)
        rw [compare_eq_iff_eq.2 h]
        simp only [ExtendedMantissa.ofMantissaAndAccuracy]
        grind
      · have hq : 1 < ((2 * (n % d) : ℕ) : ℚ) / d := (one_lt_div hdq).2 (by exact_mod_cast h)
        rw [compare_gt_iff_gt.2 h]
        simp only [ExtendedMantissa.ofMantissaAndAccuracy]
        grind

/-- A quotient is less than half as great as the powers of two in it tell. -/
theorem log_div_ge {m₁ m₂ : ℕ} (h₁ : 0 < m₁) (h₂ : 0 < m₂) (e₁ e₂ : ℤ) :
    ((m₁.log2 : ℤ) + e₁) - (m₂.log2 + e₂) - 1 ≤ Int.log 2 ((m₁ : ℚ) * 2 ^ e₁ / (m₂ * 2 ^ e₂)) := by
  have hv : (0 : ℚ) < (m₁ : ℚ) * 2 ^ e₁ / (m₂ * 2 ^ e₂) := by positivity
  have hlow : (2 : ℚ) ^ ((m₁.log2 : ℤ) + e₁) ≤ m₁ * 2 ^ e₁ := by
    have hle : (2 : ℚ) ^ (m₁.log2 : ℤ) ≤ m₁ := by exact_mod_cast Nat.log2_self_le h₁.ne'
    rw [zpow_add₀ two_ne_zero]
    gcongr
  have hhigh : (m₂ : ℚ) * 2 ^ e₂ ≤ 2 ^ ((m₂.log2 : ℤ) + e₂ + 1) := by
    have hle : (m₂ : ℚ) ≤ 2 ^ ((m₂.log2 : ℤ) + 1) := by exact_mod_cast (Nat.lt_log2_self (n := m₂)).le
    rw [add_right_comm, zpow_add₀ two_ne_zero]
    gcongr
  rw [← Int.zpow_le_iff_le_log one_lt_two hv, le_div_iff₀ (by positivity)]
  push_cast
  calc (2 : ℚ) ^ ((m₁.log2 : ℤ) + e₁ - (m₂.log2 + e₂) - 1) * (m₂ * 2 ^ e₂)
      ≤ 2 ^ ((m₁.log2 : ℤ) + e₁ - (m₂.log2 + e₂) - 1) * 2 ^ ((m₂.log2 : ℤ) + e₂ + 1) := by gcongr
    _ = 2 ^ ((m₁.log2 : ℤ) + e₁) := by
        rw [← zpow_add₀ two_ne_zero]
        congr 1
        omega
    _ ≤ m₁ * 2 ^ e₁ := hlow

theorem div_parts {u v : UnpackedFloat} (hfu : u.isFinite) (hfv : v.isFinite) (h0 : valueOf v ≠ 0) :
    Holds (UnpackedFloat.div Format.binary32 u v) (nearest (valueOf u / valueOf v)) := by
  rcases v with _ | _ | s₂ | ⟨s₂, m₂, e₂, hm₂⟩
  · cases hfv
  · cases hfv
  · exact absurd rfl h0
  · rcases u with _ | _ | s₁ | ⟨s₁, m₁, e₁, hm₁⟩
    · cases hfu
    · cases hfu
    · have hzero : nearest (valueOf (.zero s₁) / valueOf (.finite s₂ m₂ e₂ hm₂)) = 0 := by simp [valueOf]
      rw [hzero]
      exact ⟨trivial, rfl, rfl⟩
    · rw [valueOf_finite, valueOf_finite, signed_div, nearest_signed _ (by positivity)]
      -- the unit at which the quotient is cut off, no more than that of its last place
      obtain ⟨t, ht⟩ : ∃ t, t = min (e₁ - e₂)
        (Format.binary32.targetExponent (totalExponent m₁ e₁ - totalExponent m₂ e₂)) := ⟨_, rfl⟩
      have hvalue : ((m₁ * 2 ^ (e₁ - e₂ - t).toNat : ℕ) : ℚ) / m₂ * 2 ^ t = m₁ * 2 ^ e₁ / (m₂ * 2 ^ e₂) := by
        have hpow : (2 : ℚ) ^ (e₁ - e₂ - t).toNat * 2 ^ t = 2 ^ e₁ / 2 ^ e₂ := by
          rw [← zpow_natCast, Int.toNat_of_nonneg (by omega), ← zpow_add₀ two_ne_zero, ← zpow_sub₀ two_ne_zero]
          congr 1
          omega
        have hm : (m₂ : ℚ) ≠ 0 := by exact_mod_cast hm₂.ne'
        push_cast
        calc (m₁ : ℚ) * 2 ^ (e₁ - e₂ - t).toNat / m₂ * 2 ^ t
            = m₁ / m₂ * (2 ^ (e₁ - e₂ - t).toNat * 2 ^ t) := by ring
          _ = m₁ * 2 ^ e₁ / (m₂ * 2 ^ e₂) := by rw [hpow, div_mul_div_comm]
      have hplace : t ≤ lastPlace ((m₁ : ℚ) * 2 ^ e₁ / (m₂ * 2 ^ e₂)) := by
        have hlog := log_div_ge hm₁ hm₂ e₁ e₂
        have htarget : Format.binary32.targetExponent (totalExponent m₁ e₁ - totalExponent m₂ e₂) =
            max (((m₁.log2 : ℤ) + 1 + e₁) - (m₂.log2 + 1 + e₂) - 24) (-149) := rfl
        unfold lastPlace
        omega
      rw [← hvalue] at hplace ⊢
      have h := roundWithAccuracy_of_reads (s₁ / s₂) (reads_quotient (m₁ * 2 ^ (e₁ - e₂ - t).toNat) hm₂)
        (by positivity) hplace
      unfold UnpackedFloat.div divCore
      simp only [← ht, Nat.shiftLeft_eq]
      exact h

/-- **A quotient holds the exact quotient, rounded.** -/
theorem div_holds {x y : Scalar} (hx : x.isFinite) (hy : y.isFinite) (h0 : y.toRat ≠ 0) :
    Holds (UnpackedFloat.div Format.binary32 x.parts y.parts) (nearest (x.toRat / y.toRat)) :=
  div_parts hx hy h0

/-- A part of infinity that is finite is a zero. -/
theorem div_infinity {x y : Scalar} (hx : x.isFinite) (hy : y.parts = .infinity .positive) :
    ∃ s, (x / y).parts = .zero s := by
  rw [isFinite_eq] at hx
  rw [div_def, hy]
  generalize x.parts = u at hx
  cases u with
  | infinity => cases hx
  | notANumber => cases hx
  | zero => exact ⟨_, parts_ofParts (u := .zero _) trivial trivial⟩
  | finite => exact ⟨_, parts_ofParts (u := .zero _) trivial trivial⟩

/-- A part of infinity is infinite. -/
theorem infinity_div {x y : Scalar} (hx : x.parts = .infinity .positive) (hy : y.isFinite) : ¬(x / y).isFinite := by
  have hinfinite : ∃ s, UnpackedFloat.div Format.binary32 x.parts y.parts = .infinity s := by
    rw [isFinite_eq] at hy
    rw [hx]
    generalize y.parts = v at hy
    cases v with
    | infinity => cases hy
    | notANumber => cases hy
    | zero => exact ⟨_, rfl⟩
    | finite => exact ⟨_, rfl⟩
  obtain ⟨s, hs⟩ := hinfinite
  rw [isFinite_eq, div_def, hs, parts_ofParts (u := .infinity s) trivial trivial]
  exact Bool.false_ne_true

/-! ## Roots -/

/-- A number in the place of the root of `n`: the root if it is whole, else a number on the same side of the half. -/
def rootReading (n : ℕ) : ℚ :=
  if n - Nat.sqrt n * Nat.sqrt n = 0 then Nat.sqrt n
  else if n - Nat.sqrt n * Nat.sqrt n ≤ Nat.sqrt n then Nat.sqrt n + 1 / 4
  else Nat.sqrt n + 3 / 4

theorem reads_root (n : ℕ) :
    Reads (.ofMantissaAndAccuracy (Nat.sqrt n) (if n - Nat.sqrt n * Nat.sqrt n = 0 then .exact
      else .inexact (if n - Nat.sqrt n * Nat.sqrt n ≤ Nat.sqrt n then .lt else .gt))) (rootReading n) := by
  unfold rootReading
  split_ifs
  · exact reads_exact _
  · exact ⟨1 / 4, by simp [ExtendedMantissa.ofMantissaAndAccuracy]; norm_num⟩
  · exact ⟨3 / 4, by simp [ExtendedMantissa.ofMantissaAndAccuracy]; norm_num⟩

theorem le_rootReading (n : ℕ) : (Nat.sqrt n : ℚ) ≤ rootReading n := by
  unfold rootReading
  split_ifs <;> linarith

theorem rootReading_le {n b : ℕ} (h : n ≤ b * b) : rootReading n ≤ b := by
  have hle : Nat.sqrt n ≤ b := (Nat.sqrt_le_sqrt h).trans_eq (Nat.sqrt_eq b)
  rcases hle.lt_or_eq with hlt | heq
  · have hsucc : (Nat.sqrt n : ℚ) + 1 ≤ b := by exact_mod_cast hlt
    unfold rootReading
    split_ifs <;> linarith
  · -- then `n` is the square of `b`
    have hsq : n - Nat.sqrt n * Nat.sqrt n = 0 := by
      rw [heq]
      omega
    unfold rootReading
    rw [if_pos hsq, heq]

/-- **A root holds a number in the place of the exact root, rounded**: one that is no greater than any power of two
whose square the exact number does not exceed. -/
theorem sqrt_parts {m : ℕ} (hm : 0 < m) (e : ℤ) :
    ∃ v : ℚ, Holds (UnpackedFloat.sqrt Format.binary32 (.finite .positive m e hm)) (nearestPos v) ∧ 0 < v ∧
      ∀ k : ℤ, (m : ℚ) * 2 ^ e ≤ 2 ^ (2 * k) → v ≤ 2 ^ k := by
  -- the unit at which the root is cut off, no more than that of its last place
  obtain ⟨t, ht⟩ : ∃ t, t = min (e.ediv 2) (Format.binary32.targetExponent ((totalExponent m e + 1).ediv 2)) :=
    ⟨_, rfl⟩
  have htarget : Format.binary32.targetExponent ((totalExponent m e + 1).ediv 2) =
      max ((((m.log2 : ℤ) + 1 + e + 1) / 2) - 24) (-149) := rfl
  have hediv : e.ediv 2 = e / 2 := rfl
  obtain ⟨n, hn⟩ : ∃ n, n = m * 2 ^ (e - 2 * t).toNat := ⟨_, rfl⟩
  have hnpos : 0 < n := by
    rw [hn]
    positivity
  have hvalue : (n : ℚ) * 2 ^ (2 * t) = m * 2 ^ e := by
    have hpow : (2 : ℚ) ^ e = 2 ^ (e - 2 * t).toNat * 2 ^ (2 * t) := zpow_split (by omega)
    rw [hpow, hn]
    push_cast
    ring
  have hroot : 0 < Nat.sqrt n := Nat.sqrt_pos.2 hnpos
  have hpos : 0 < rootReading n := by
    have : (0 : ℚ) < Nat.sqrt n := by exact_mod_cast hroot
    linarith [le_rootReading n]
  have hplace : t ≤ lastPlace (rootReading n * 2 ^ t) := by
    have hv : (0 : ℚ) < rootReading n * 2 ^ t := by positivity
    rcases le_or_gt t (-149) with hlow | hhigh
    · unfold lastPlace
      omega
    · -- the root has as many bits as half of those of the number
      have hbits : 23 ≤ (Nat.sqrt n).log2 := by
        rw [Nat.le_log2 hroot.ne', Nat.le_sqrt]
        have hlog : m.log2 + (e - 2 * t).toNat ≤ n.log2 := by
          rw [Nat.le_log2 hnpos.ne', hn, pow_add]
          exact Nat.mul_le_mul_right _ (Nat.log2_self_le hm.ne')
        calc 2 ^ 23 * 2 ^ 23 = 2 ^ 46 := by norm_num
          _ ≤ 2 ^ n.log2 := Nat.pow_le_pow_right (by norm_num) (by omega)
          _ ≤ n := Nat.log2_self_le hnpos.ne'
      have hlog : (Nat.sqrt n).log2 + t ≤ Int.log 2 (rootReading n * 2 ^ t) := by
        rw [← Int.zpow_le_iff_le_log one_lt_two hv]
        push_cast
        rw [zpow_add₀ two_ne_zero]
        have hle : (2 : ℚ) ^ ((Nat.sqrt n).log2 : ℤ) ≤ Nat.sqrt n := by exact_mod_cast Nat.log2_self_le hroot.ne'
        have := hle.trans (le_rootReading n)
        gcongr
      unfold lastPlace
      omega
  refine ⟨rootReading n * 2 ^ t, ?_, by positivity, fun k hk => ?_⟩
  · have h := roundWithAccuracy_of_reads .positive (reads_root n) hpos hplace
    unfold UnpackedFloat.sqrt sqrtCore
    simp only [← ht, Nat.shiftLeft_eq, ← hn]
    exact h
  · rw [← hvalue] at hk
    have ht2 : (0 : ℚ) < 2 ^ (2 * t) := by positivity
    have hn1 : (1 : ℚ) ≤ n := by exact_mod_cast hnpos
    have htk : t ≤ k := by
      by_contra hlt
      have hpow : (2 : ℚ) ^ (2 * k) < 2 ^ (2 * t) := zpow_lt_zpow_right₀ one_lt_two (by omega)
      nlinarith
    have hsquare : n ≤ 2 ^ (k - t).toNat * 2 ^ (k - t).toNat := by
      rw [zpow_split (show 2 * t ≤ 2 * k by omega)] at hk
      have hle : (n : ℚ) ≤ 2 ^ (2 * k - 2 * t).toNat := le_of_mul_le_mul_right hk ht2
      rw [← pow_add, show (k - t).toNat + (k - t).toNat = (2 * k - 2 * t).toNat by omega]
      exact_mod_cast hle
    have hle := rootReading_le hsquare
    push_cast at hle
    rw [zpow_split htk]
    gcongr

end MotionScript.Scalar
