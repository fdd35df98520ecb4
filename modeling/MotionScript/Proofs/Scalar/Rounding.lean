import MotionScript.Proofs.Scalar.Parts

/-!
# Rounding

The arithmetic of scalars is exact arithmetic followed by one rounding. Here rounding is a function
of the rationals, and it is shown to be what the arithmetic does.

* `nearest`: the number that binary32 has for a rational one, were its range unbounded.
* `nearest_mono`, `nearest_neg`, `nearest_valueOf`: it is monotone and odd, and keeps what fits.
* `normalize_spec`: the parts that the arithmetic makes of a dyadic number.
-/

namespace MotionScript.Scalar

open Float.Model (UnpackedFloat Format totalExponent)

open Float.Model.UnpackedFloat

/-- The integer nearest to a number; of two the even one. -/
def halfEven (r : ℚ) : ℤ :=
  if 2 * (r - ⌊r⌋) < 1 then ⌊r⌋ else if 2 * (r - ⌊r⌋) = 1 then ⌊r⌋ + ⌊r⌋ % 2 else ⌊r⌋ + 1

theorem floor_le_halfEven (r : ℚ) : ⌊r⌋ ≤ halfEven r ∧ halfEven r ≤ ⌊r⌋ + 1 := by
  unfold halfEven
  split_ifs <;> omega

@[simp]
theorem halfEven_intCast (n : ℤ) : halfEven n = n := by simp [halfEven]

theorem halfEven_mono {r s : ℚ} (h : r ≤ s) : halfEven r ≤ halfEven s := by
  rcases (Int.floor_mono h).lt_or_eq with hlt | heq
  · have hr := (floor_le_halfEven r).2
    have hs := (floor_le_halfEven s).1
    omega
  · unfold halfEven
    rw [heq]
    split_ifs <;> grind

/-- A mantissa with its residual bits reads a number: its integer part, and how what is left compares
with a half. -/
def Reads (em : ExtendedMantissa) (r : ℚ) : Prop :=
  ∃ f : ℚ, r = em.mantissa + f ∧ 0 ≤ f ∧ f < 1 ∧ (em.roundBit = true ↔ 1 ≤ 2 * f) ∧
    (em.stickyBit = true ↔ 2 * f ≠ 0 ∧ 2 * f ≠ 1)

theorem reads_exact (m : ℕ) : Reads (.ofMantissaAndAccuracy m .exact) m :=
  ⟨0, by simp [ExtendedMantissa.ofMantissaAndAccuracy]⟩

/-- Some residual bit is set unless the mantissa is the whole number. -/
theorem residual_iff {em : ExtendedMantissa} {f : ℚ} (h0 : 0 ≤ f) (hr : em.roundBit = true ↔ 1 ≤ 2 * f)
    (hs : em.stickyBit = true ↔ 2 * f ≠ 0 ∧ 2 * f ≠ 1) : (em.roundBit || em.stickyBit) = true ↔ 0 < f := by
  rw [Bool.or_eq_true, hr, hs]
  grind

theorem Reads.shiftRightOne {em : ExtendedMantissa} {r : ℚ} (h : Reads em r) :
    Reads em.shiftRightOne (r / 2) := by
  obtain ⟨f, hr, h0, h1, hround, hsticky⟩ := h
  have hm : (em.mantissa : ℚ) = 2 * (em.mantissa / 2 : ℕ) + (em.mantissa % 2 : ℕ) := by
    exact_mod_cast (Nat.div_add_mod em.mantissa 2).symm
  -- the bit that goes becomes the round bit, and what was behind it sticks
  have hres := residual_iff h0 hround hsticky
  have hbit := Nat.mod_two_eq_zero_or_one em.mantissa
  refine ⟨((em.mantissa % 2 : ℕ) + f) / 2, ?_, by positivity, ?_, ?_, ?_⟩
  · rw [hr, hm]
    simp only [ExtendedMantissa.shiftRightOne]
    ring
  · rcases hbit with h | h <;> rw [h] <;> push_cast <;> linarith
  · rcases hbit with h | h <;> simp only [ExtendedMantissa.shiftRightOne, h] <;> grind
  · simp only [ExtendedMantissa.shiftRightOne, hres]
    rcases hbit with h | h <;> rw [h] <;> push_cast <;> grind

theorem Reads.shiftRight {em : ExtendedMantissa} {r : ℚ} (h : Reads em r) (n : ℕ) :
    Reads (em >>> n) (r / 2 ^ n) := by
  show Reads (n.repeat ExtendedMantissa.shiftRightOne em) _
  induction n with
  | zero => simpa [Nat.repeat] using h
  | succ n ih =>
    rw [pow_succ, ← div_div]
    exact ih.shiftRightOne

theorem Reads.roundedMantissa {em : ExtendedMantissa} {r : ℚ} (h : Reads em r) :
    (em.roundedMantissa : ℤ) = halfEven r := by
  obtain ⟨f, hr, h0, h1, hround, hsticky⟩ := h
  have hfloor : ⌊r⌋ = em.mantissa := by
    rw [Int.floor_eq_iff]
    push_cast
    constructor <;> linarith
  have hf : r - ⌊r⌋ = f := by rw [hfloor, hr]; push_cast; ring
  unfold halfEven
  rw [hf, hfloor]
  obtain ⟨m, b, s⟩ := em
  cases b <;> cases s <;>
    simp only [ExtendedMantissa.roundedMantissa, ExtendedMantissa.accuracy,
      Accuracy.roundToNearestEven] <;> split_ifs <;> grind

/-! ## Rounding to binary32 -/

/-- The exponent of the last place of a positive number. -/
def lastPlace (v : ℚ) : ℤ := max (Int.log 2 v - 23) (-149)

/-- The multiple of its last place that is nearest to a number which is not negative. -/
def nearestPos (v : ℚ) : ℚ := halfEven (v / 2 ^ lastPlace v) * 2 ^ lastPlace v

/-- The number that binary32 has for `v`, were its range unbounded. -/
def nearest (v : ℚ) : ℚ := if v < 0 then -nearestPos (-v) else nearestPos v

theorem lastPlace_mono {v w : ℚ} (hv : 0 < v) (h : v ≤ w) : lastPlace v ≤ lastPlace w :=
  max_le_max_right _ (by have := Int.log_mono_right (b := 2) hv h; omega)

theorem lt_lastPlace (v : ℚ) : v < 2 ^ 24 * 2 ^ lastPlace v := by
  have h := Int.lt_zpow_succ_log_self (b := 2) one_lt_two v
  calc v < 2 ^ (Int.log 2 v + 1) := by exact_mod_cast h
    _ ≤ 2 ^ (24 + lastPlace v) := by
        apply zpow_le_zpow_right₀ one_le_two
        have := le_max_left (Int.log 2 v - 23) (-149)
        unfold lastPlace
        omega
    _ = 2 ^ 24 * 2 ^ lastPlace v := by rw [zpow_add₀ two_ne_zero]; norm_num

theorem lastPlace_le {v : ℚ} (hv : 0 < v) (h : lastPlace v ≠ -149) : 2 ^ 23 * 2 ^ lastPlace v ≤ v := by
  have hlog : lastPlace v = Int.log 2 v - 23 := by unfold lastPlace at *; omega
  have h' := Int.zpow_log_le_self (b := 2) one_lt_two hv
  calc (2 : ℚ) ^ 23 * 2 ^ lastPlace v = 2 ^ (Int.log 2 v) := by
        rw [hlog, sub_eq_neg_add, zpow_add₀ two_ne_zero, ← mul_assoc]
        norm_num
    _ ≤ v := by exact_mod_cast h'

theorem halfEven_le {r : ℚ} {n : ℤ} (h : r ≤ n) : halfEven r ≤ n :=
  (halfEven_mono h).trans_eq (halfEven_intCast n)

theorem le_halfEven {r : ℚ} {n : ℤ} (h : n ≤ r) : n ≤ halfEven r :=
  (halfEven_intCast n).symm.trans_le (halfEven_mono h)

theorem nearestPos_nonneg {v : ℚ} (hv : 0 ≤ v) : 0 ≤ nearestPos v := by
  have h : (0 : ℤ) ≤ halfEven (v / 2 ^ lastPlace v) := le_halfEven (by push_cast; positivity)
  have : (0 : ℚ) ≤ halfEven (v / 2 ^ lastPlace v) := by exact_mod_cast h
  unfold nearestPos
  positivity

/-- The mantissa of a rounded number has 24 bits, or is the next power of two. -/
theorem halfEven_lastPlace_le (v : ℚ) : halfEven (v / 2 ^ lastPlace v) ≤ 2 ^ 24 := by
  apply halfEven_le
  rw [div_le_iff₀ (by positivity)]
  push_cast
  exact (lt_lastPlace v).le

theorem le_halfEven_lastPlace {v : ℚ} (hv : 0 < v) (h : lastPlace v ≠ -149) :
    2 ^ 23 ≤ halfEven (v / 2 ^ lastPlace v) := by
  apply le_halfEven
  rw [le_div_iff₀ (by positivity)]
  push_cast
  exact lastPlace_le hv h

theorem nearestPos_mono {v w : ℚ} (hv : 0 < v) (h : v ≤ w) : nearestPos v ≤ nearestPos w := by
  have hw := hv.trans_le h
  rcases (lastPlace_mono hv h).lt_or_eq with hlt | heq
  · -- a power of two stands between the two
    have hbot : lastPlace w ≠ -149 := by
      have : -149 ≤ lastPlace v := le_max_right _ _
      omega
    have h₁ : (halfEven (v / 2 ^ lastPlace v) : ℚ) ≤ 2 ^ 24 := by
      exact_mod_cast halfEven_lastPlace_le v
    have h₂ : (2 : ℚ) ^ 23 ≤ halfEven (w / 2 ^ lastPlace w) := by
      exact_mod_cast le_halfEven_lastPlace hw hbot
    calc nearestPos v ≤ 2 ^ 24 * 2 ^ lastPlace v := mul_le_mul_of_nonneg_right h₁ (by positivity)
      _ = 2 ^ 23 * 2 ^ (lastPlace v + 1) := by rw [zpow_add₀ two_ne_zero]; ring
      _ ≤ 2 ^ 23 * 2 ^ lastPlace w := by
          gcongr
          · exact one_le_two
          · omega
      _ ≤ nearestPos w := mul_le_mul_of_nonneg_right h₂ (by positivity)
  · unfold nearestPos
    rw [heq]
    have : halfEven (v / 2 ^ lastPlace w) ≤ halfEven (w / 2 ^ lastPlace w) :=
      halfEven_mono (by gcongr)
    gcongr

@[simp]
theorem nearestPos_zero : nearestPos 0 = 0 := by
  have h : halfEven 0 = 0 := halfEven_intCast 0
  simp [nearestPos, h]

theorem nearest_neg (v : ℚ) : nearest (-v) = -nearest v := by
  unfold nearest
  rcases lt_trichotomy v 0 with h | rfl | h
  · rw [if_neg (by linarith), if_pos h, neg_neg]
  · simp
  · rw [if_pos (by linarith), if_neg (by linarith), neg_neg]

/-- **Rounding is monotone.** -/
theorem nearest_mono {v w : ℚ} (h : v ≤ w) : nearest v ≤ nearest w := by
  unfold nearest
  split_ifs with hv hw hw
  · exact neg_le_neg (nearestPos_mono (by linarith) (by linarith))
  · have h₁ := nearestPos_nonneg (v := -v) (by linarith)
    have h₂ := nearestPos_nonneg (v := w) (by linarith)
    linarith
  · linarith
  · rcases (not_lt.1 hv).lt_or_eq with h0 | rfl
    · exact nearestPos_mono h0 h
    · rw [nearestPos_zero]
      exact nearestPos_nonneg h

/-- Rounding keeps what fits in 24 bits. -/
theorem nearestPos_natCast_mul {m : ℕ} {e : ℤ} (hm : 0 < m) (hlt : m < 2 ^ 24) (he : -149 ≤ e) :
    nearestPos (m * 2 ^ e) = m * 2 ^ e := by
  have hv : (0 : ℚ) < m * 2 ^ e := by positivity
  have hle : lastPlace (m * 2 ^ e) ≤ e := by
    have h : Int.log 2 ((m : ℚ) * 2 ^ e) < 24 + e := by
      rw [← Int.lt_zpow_iff_log_lt one_lt_two hv]
      push_cast
      rw [zpow_add₀ two_ne_zero]
      have : (m : ℚ) < 2 ^ (24 : ℤ) := by exact_mod_cast hlt
      gcongr
    unfold lastPlace
    omega
  have hdiv : (m * 2 ^ e : ℚ) / 2 ^ lastPlace (m * 2 ^ e) =
      ((m * 2 ^ (e - lastPlace (m * 2 ^ e)).toNat : ℕ) : ℤ) := by
    rw [div_eq_iff (by positivity)]
    push_cast
    rw [mul_assoc, ← zpow_natCast, ← zpow_add₀ two_ne_zero, Int.toNat_of_nonneg (by omega)]
    congr 2
    omega
  unfold nearestPos
  rw [hdiv, halfEven_intCast, ← hdiv, div_mul_cancel₀ _ (by positivity)]

/-! ## The rounding of parts -/

theorem log_mul_zpow {m : ℕ} {r : ℚ} (hm : 0 < m) (h0 : m ≤ r) (h1 : r < m + 1) (e : ℤ) :
    Int.log 2 (r * 2 ^ e) = m.log2 + e := by
  have hv : (0 : ℚ) < r * 2 ^ e := by
    have : (0 : ℚ) < m := by exact_mod_cast hm
    have : 0 < r := by linarith
    positivity
  have hp : (0 : ℚ) < 2 ^ e := by positivity
  apply le_antisymm
  · rw [← Int.lt_add_one_iff, ← Int.lt_zpow_iff_log_lt one_lt_two hv]
    push_cast
    rw [add_right_comm, zpow_add₀ two_ne_zero]
    have hlt : (m : ℚ) + 1 ≤ 2 ^ ((m.log2 : ℤ) + 1) := by
      exact_mod_cast Nat.succ_le_of_lt (Nat.lt_log2_self (n := m))
    exact mul_lt_mul_of_pos_right (h1.trans_le hlt) hp
  · rw [← Int.zpow_le_iff_le_log one_lt_two hv]
    push_cast
    rw [zpow_add₀ two_ne_zero]
    have hle : (2 : ℚ) ^ (m.log2 : ℤ) ≤ m := by exact_mod_cast Nat.log2_self_le hm.ne'
    exact mul_le_mul_of_nonneg_right (hle.trans h0) hp.le

theorem lastPlace_natCast_mul {m : ℕ} (hm : 0 < m) (e : ℤ) :
    lastPlace (m * 2 ^ e) = max ((m.log2 : ℤ) + e - 23) (-149) := by
  unfold lastPlace
  rw [log_mul_zpow hm le_rfl (by linarith) e]

theorem targetExponent_totalExponent (m : ℕ) (e : ℤ) :
    Format.binary32.targetExponent (totalExponent m e) = max ((m.log2 : ℤ) + e - 23) (-149) := by
  show max ((m.log2 : ℤ) + 1 + e - 24) (-149) = _
  congr 1
  omega

/-- What the arithmetic takes for the last place, which it tells by the mantissa alone. -/
theorem targetExponent_of_floor {m : ℕ} {r : ℚ} (hr : 0 < r) (h0 : m ≤ r) (h1 : r < m + 1) {e : ℤ}
    (he : e ≤ lastPlace (r * 2 ^ e)) :
    Format.binary32.targetExponent (totalExponent m e) = lastPlace (r * 2 ^ e) := by
  rw [targetExponent_totalExponent]
  rcases Nat.eq_zero_or_pos m with rfl | hm
  · -- a number below one unit has no last place of its own, so the unit is at most the least one
    have hv : (0 : ℚ) < r * 2 ^ e := by positivity
    have hlt : Int.log 2 (r * 2 ^ e) < e := by
      rw [← Int.lt_zpow_iff_log_lt one_lt_two hv]
      push_cast
      have hp : (0 : ℚ) < 2 ^ e := by positivity
      have hr1 : r < 1 := by simpa using h1
      nlinarith
    have hlog : (Nat.log2 0 : ℤ) = 0 := by decide
    unfold lastPlace at he ⊢
    omega
  · unfold lastPlace
    rw [log_mul_zpow hm h0 h1 e]

theorem targetExponent_eq {m : ℕ} (hm : 0 < m) (e : ℤ) :
    Format.binary32.targetExponent (totalExponent m e) = lastPlace (m * 2 ^ e) := by
  rw [targetExponent_totalExponent, lastPlace_natCast_mul hm]

theorem Reads.bounds {em : ExtendedMantissa} {r : ℚ} (h : Reads em r) : em.mantissa ≤ r ∧ r < em.mantissa + 1 := by
  obtain ⟨f, rfl, h0, h1, -⟩ := h
  constructor <;> linarith

theorem mantissa_ofMantissaAndAccuracy (m : ℕ) (accuracy : Accuracy) :
    (ExtendedMantissa.ofMantissaAndAccuracy m accuracy).mantissa = m := by
  rcases accuracy with _ | _ | _ | _ <;> rfl

/-- Shifting to the last place leaves the number to be rounded there. -/
theorem reads_shift {m : ℕ} {accuracy : Accuracy} {r : ℚ} (hr : Reads (.ofMantissaAndAccuracy m accuracy) r)
    (hpos : 0 < r) {e : ℤ} (he : e ≤ lastPlace (r * 2 ^ e)) :
    Reads (shiftToTargetExponent Format.binary32 m e accuracy).1 (r * 2 ^ e / 2 ^ lastPlace (r * 2 ^ e)) ∧
      (shiftToTargetExponent Format.binary32 m e accuracy).2 = lastPlace (r * 2 ^ e) := by
  obtain ⟨h0, h1⟩ := hr.bounds
  rw [mantissa_ofMantissaAndAccuracy] at h0 h1
  unfold shiftToTargetExponent shiftToExponent
  rw [targetExponent_of_floor hpos h0 h1 he]
  refine ⟨?_, by simp only; omega⟩
  have h := hr.shiftRight (lastPlace (r * 2 ^ e) - e).toNat
  convert h using 1
  have hp : (0 : ℚ) < 2 ^ e := by positivity
  rw [zpow_split he, mul_comm _ ((2 : ℚ) ^ e), mul_comm _ ((2 : ℚ) ^ e), mul_div_mul_left _ _ hp.ne']

theorem shiftToTargetExponent_zero (e : ℤ) :
    (shiftToTargetExponent Format.binary32 0 e .exact).1.mantissa = 0 := by
  obtain ⟨f, hf, h0, -⟩ := (reads_exact 0).shiftRight
    (Format.binary32.targetExponent (totalExponent 0 e) - e).toNat
  rw [Nat.cast_zero, zero_div] at hf
  have h : (((shiftToTargetExponent Format.binary32 0 e .exact).1.mantissa : ℕ) : ℚ) + f = 0 := hf.symm
  have hle : (((shiftToTargetExponent Format.binary32 0 e .exact).1.mantissa : ℕ) : ℚ) ≤ 0 := by linarith
  exact Nat.le_zero.1 (by exact_mod_cast hle)

theorem shiftToTargetExponent_small {m : ℕ} {e : ℤ} (hm : 0 < m) (hlt : m < 2 ^ 24) (he : -149 ≤ e) :
    shiftToTargetExponent Format.binary32 m e .exact = (⟨m, false, false⟩, e) := by
  have hlog : m.log2 < 24 := (Nat.log2_lt hm.ne').2 hlt
  unfold shiftToTargetExponent shiftToExponent
  rw [targetExponent_eq hm, lastPlace_natCast_mul hm]
  dsimp only
  rw [show (max ((m.log2 : ℤ) + e - 23) (-149) - e).toNat = 0 by omega]
  simp [HShiftRight.hShiftRight, Nat.repeat, ExtendedMantissa.ofMantissaAndAccuracy]

theorem shiftToTargetExponent_carry {e : ℤ} (he : -149 ≤ e) :
    shiftToTargetExponent Format.binary32 (2 ^ 24) e .exact = (⟨2 ^ 23, false, false⟩, e + 1) := by
  unfold shiftToTargetExponent shiftToExponent
  rw [targetExponent_eq (by norm_num), lastPlace_natCast_mul (by norm_num), Nat.log2_two_pow]
  dsimp only
  rw [show (max (((24 : ℕ) : ℤ) + e - 23) (-149) - e).toNat = 1 by omega]
  simp [HShiftRight.hShiftRight, Nat.repeat, ExtendedMantissa.ofMantissaAndAccuracy,
    ExtendedMantissa.shiftRightOne]

/-- A number with a sign. -/
def signed (s : Sign) (v : ℚ) : ℚ :=
  match s with
  | .negative => -v
  | .positive => v

theorem valueOf_finite (s : Sign) {m : ℕ} {e : ℤ} (hm : 0 < m) :
    valueOf (.finite s m e hm) = signed s (m * 2 ^ e) := by
  cases s <;> simp [valueOf, Sign.apply, signed]

/-- Parts hold a number, rounded. -/
structure Holds (u : UnpackedFloat) (v : ℚ) : Prop where
  rounded : Rounded u
  finite : u.isFinite
  value : valueOf u = v

/-- **Parts that read a number are rounded as the number is**, whatever of its mantissa has been cut off. -/
theorem roundWithAccuracy_of_reads (s : Sign) {m : ℕ} {accuracy : Accuracy} {r : ℚ}
    (hr : Reads (.ofMantissaAndAccuracy m accuracy) r) (hpos : 0 < r) {e : ℤ} (he : e ≤ lastPlace (r * 2 ^ e)) :
    Holds (roundWithAccuracy Format.binary32 s m e accuracy) (signed s (nearestPos (r * 2 ^ e))) := by
  have hv : (0 : ℚ) < r * 2 ^ e := by positivity
  obtain ⟨hreads, hexp⟩ := reads_shift hr hpos he
  have hmin : -149 ≤ lastPlace (r * 2 ^ e) := le_max_right _ _
  have hq := hreads.roundedMantissa
  have hle := halfEven_lastPlace_le (r * 2 ^ e)
  have hge := le_halfEven_lastPlace hv
  unfold nearestPos
  generalize lastPlace (r * 2 ^ e) = t at *
  rw [← hq] at hle hge ⊢
  unfold roundWithAccuracy
  generalize shiftToTargetExponent Format.binary32 m e accuracy = first at *
  obtain ⟨em, e₁⟩ := first
  obtain rfl : t = e₁ := hexp.symm
  dsimp only at *
  generalize em.roundedMantissa = q at *
  rcases Nat.eq_zero_or_pos q with rfl | hpos
  · rw [dif_pos (shiftToTargetExponent_zero _)]
    exact ⟨trivial, rfl, by cases s <;> simp [valueOf, signed]⟩
  rcases Nat.lt_or_ge q (2 ^ 24) with hlt | hge'
  · rw [shiftToTargetExponent_small hpos hlt hmin]
    dsimp only
    rw [dif_neg hpos.ne']
    exact ⟨⟨hlt, hmin, or_iff_not_imp_right.2 fun h => by have := hge h; omega⟩, rfl, valueOf_finite s hpos⟩
  · -- the carry makes a bit too many
    obtain rfl : q = 2 ^ 24 := by omega
    rw [shiftToTargetExponent_carry hmin]
    dsimp only
    rw [dif_neg (by norm_num)]
    refine ⟨⟨by norm_num, by omega, .inl le_rfl⟩, rfl, ?_⟩
    rw [valueOf_finite, zpow_add₀ two_ne_zero]
    congr 1
    push_cast
    ring

theorem roundWithAccuracy_spec (s : Sign) {m : ℕ} (hm : 0 < m) {e : ℤ} (he : e ≤ lastPlace (m * 2 ^ e)) :
    Holds (roundWithAccuracy Format.binary32 s m e .exact) (signed s (nearestPos (m * 2 ^ e))) :=
  roundWithAccuracy_of_reads s (reads_exact m) (by exact_mod_cast hm) he

theorem natCast_mul_zpow_sub (m k : ℕ) (e : ℤ) : ((m * 2 ^ k : ℕ) : ℚ) * 2 ^ (e - k) = m * 2 ^ e := by
  rw [zpow_sub₀ two_ne_zero, zpow_natCast]
  push_cast
  field_simp

theorem round_spec (s : Sign) {m : ℕ} (hm : 0 < m) (e : ℤ) :
    Holds (UnpackedFloat.round Format.binary32 s m e) (signed s (nearestPos (m * 2 ^ e))) := by
  unfold UnpackedFloat.round decreaseExponent
  dsimp only
  rw [targetExponent_eq hm, Nat.shiftLeft_eq]
  -- zeros are put behind a mantissa that is too short for its last place
  have hv := natCast_mul_zpow_sub m (e - lastPlace (m * 2 ^ e)).toNat e
  have h := roundWithAccuracy_spec s (m := m * 2 ^ (e - lastPlace (m * 2 ^ e)).toNat) (by positivity)
    (e := e - ((e - lastPlace (m * 2 ^ e)).toNat : ℤ)) (by rw [hv]; omega)
  rwa [hv] at h

/-- **What the arithmetic makes of a dyadic number** is the number that it is rounded to. -/
theorem normalize_spec (n : ℤ) (e : ℤ) :
    Holds (UnpackedFloat.normalize Format.binary32 n e .positive) (nearest (n * 2 ^ e)) := by
  have hp : (0 : ℚ) < 2 ^ e := by positivity
  unfold UnpackedFloat.normalize nearest
  rcases lt_trichotomy n 0 with h | rfl | h
  · have hq : (n : ℚ) < 0 := by exact_mod_cast h
    have hn : (((-n).toNat : ℕ) : ℚ) = -n := by
      exact_mod_cast congrArg (Int.cast (R := ℚ)) (Int.toNat_of_nonneg (show 0 ≤ -n by omega))
    rw [compare_lt_iff_lt.2 h, if_pos (mul_neg_of_neg_of_pos hq hp), ← neg_mul, ← hn]
    exact round_spec .negative (by omega) e
  · rw [compare_eq_iff_eq.2 rfl]
    simp only [Int.cast_zero, zero_mul, lt_irrefl, if_false, nearestPos_zero]
    exact ⟨trivial, rfl, rfl⟩
  · have hq : (0 : ℚ) < n := by exact_mod_cast h
    have hn : ((n.toNat : ℕ) : ℚ) = n := by
      exact_mod_cast congrArg (Int.cast (R := ℚ)) (Int.toNat_of_nonneg h.le)
    rw [compare_gt_iff_gt.2 h, if_neg (not_lt.2 (by positivity)), ← hn]
    exact round_spec .positive (by omega) e

/-- Rounding keeps what fits. -/
theorem nearest_valueOf {u : UnpackedFloat} (hr : Rounded u) : nearest (valueOf u) = valueOf u := by
  rcases u with s | _ | s | ⟨s, m, e, hm⟩
  · simp [valueOf, nearest]
  · simp [valueOf, nearest]
  · simp [valueOf, nearest]
  · have h : nearest (m * 2 ^ e) = m * 2 ^ e := by
      unfold nearest
      rw [if_neg (not_lt.2 (by positivity)), nearestPos_natCast_mul hm hr.1 hr.2.1]
    rw [valueOf_finite]
    cases s with
    | negative => exact (nearest_neg _).trans (congrArg Neg.neg h)
    | positive => exact h

end MotionScript.Scalar
