import MotionScript.Proofs.Scalar.Product
import MotionScript.Proofs.Scalar.Gap

/-!
# Bounds on scalars

How great the results of the arithmetic can be, told by powers of two, which are not rounded.

* `Within`: a scalar is finite, and at most a power of two away from zero.
* `Within.add`, `Within.mul`, `Within.div`, `Within.sqrt`: the results of the arithmetic.
* `abs_nearestPos_sub_le`, `abs_nearest_sub_le`: rounding errs by half a unit of the last place.
* `toRat_ofInt`: the scalar nearest to an integer.
-/

namespace MotionScript.Scalar

open Float.Model (UnpackedFloat Format)

open Float.Model.UnpackedFloat

variable {x y : Scalar} {j k : ℕ}

/-! ## Powers of two -/

theorem nearest_two_pow (k : ℕ) : nearest (2 ^ k) = 2 ^ k := by
  have h := nearestPos_natCast_mul (m := 1) (e := k) one_pos (by norm_num) (by omega)
  rw [Nat.cast_one, one_mul, zpow_natCast] at h
  rwa [nearest, if_neg (not_lt.2 (by positivity))]

theorem abs_nearest_le {v : ℚ} (h : |v| ≤ 2 ^ k) : |nearest v| ≤ 2 ^ k := by
  obtain ⟨hlow, hhigh⟩ := abs_le.1 h
  apply abs_le.2
  constructor
  · calc -(2 : ℚ) ^ k = nearest (-2 ^ k) := by rw [nearest_neg, nearest_two_pow]
      _ ≤ nearest v := nearest_mono hlow
  · calc nearest v ≤ nearest (2 ^ k) := nearest_mono hhigh
      _ = 2 ^ k := nearest_two_pow k

/-- **A scalar is within a power of two**: it is finite, and at most so far from zero. -/
structure Within (k : ℕ) (x : Scalar) : Prop where
  finite : x.isFinite
  abs_le : |x.toRat| ≤ 2 ^ k

theorem two_pow_lt (hk : k < 128) : (2 : ℚ) ^ k < 2 ^ 128 := pow_lt_pow_right₀ one_lt_two hk

/-- What holds an exact result, rounded, is within the powers of two that the exact result is within. -/
theorem Holds.within {u : UnpackedFloat} {v : ℚ} (h : Holds u (nearest v)) (hv : |v| ≤ 2 ^ k) (hk : k < 128) :
    Within k (Scalar.ofParts u) ∧ (Scalar.ofParts u).toRat = nearest v := by
  have hle := abs_nearest_le hv
  obtain ⟨hf, hval⟩ := h.ofParts (hle.trans_lt (two_pow_lt hk))
  exact ⟨⟨hf, by rwa [hval]⟩, hval⟩

theorem Within.mono (h : Within j x) (hjk : j ≤ k) : Within k x :=
  ⟨h.finite, h.abs_le.trans (pow_le_pow_right₀ one_le_two hjk)⟩

theorem Within.neg (h : Within k x) : Within k (-x) :=
  ⟨isFinite_neg h.finite, by rw [toRat_neg, abs_neg]; exact h.abs_le⟩

theorem within_zero : Within 0 0 := ⟨rfl, by simp⟩

@[simp]
theorem toRat_one : toRat 1 = 1 := by decide +kernel

theorem within_one : Within 0 1 := ⟨rfl, by simp⟩

@[simp]
theorem nearest_one : nearest 1 = 1 := by simpa using nearest_two_pow 0

/-! A result that is no greater than a power of two, before it is rounded, is not greater after it. -/

theorem add_within (hx : x.isFinite) (hy : y.isFinite) (h : |x.toRat + y.toRat| ≤ 2 ^ k) (hk : k < 128) :
    Within k (x + y) ∧ (x + y).toRat = nearest (x.toRat + y.toRat) :=
  (add_holds hx hy).within h hk

theorem mul_within (hx : x.isFinite) (hy : y.isFinite) (h : |x.toRat * y.toRat| ≤ 2 ^ k) (hk : k < 128) :
    Within k (x * y) ∧ (x * y).toRat = nearest (x.toRat * y.toRat) :=
  (mul_holds hx hy).within h hk

theorem div_within (hx : x.isFinite) (hy : y.isFinite) (h0 : y.toRat ≠ 0) (h : |x.toRat / y.toRat| ≤ 2 ^ k)
    (hk : k < 128) : Within k (x / y) ∧ (x / y).toRat = nearest (x.toRat / y.toRat) :=
  (div_holds hx hy h0).within h hk

/-- A sum has one bit more than the greater of the two numbers. -/
theorem Within.add (hx : Within k x) (hy : Within k y) (hk : k + 1 < 128) : Within (k + 1) (x + y) := by
  refine (add_within hx.finite hy.finite ?_ hk).1
  calc |x.toRat + y.toRat| ≤ |x.toRat| + |y.toRat| := abs_add_le _ _
    _ ≤ 2 ^ k + 2 ^ k := add_le_add hx.abs_le hy.abs_le
    _ = 2 ^ (k + 1) := by ring

theorem Within.sub (hx : Within k x) (hy : Within k y) (hk : k + 1 < 128) : Within (k + 1) (x - y) := by
  rw [sub_eq_add_neg]
  exact hx.add hy.neg hk

theorem Within.abs_mul_le (hx : Within j x) (hy : Within k y) : |x.toRat * y.toRat| ≤ 2 ^ (j + k) :=
  calc |x.toRat * y.toRat| = |x.toRat| * |y.toRat| := abs_mul _ _
    _ ≤ 2 ^ j * 2 ^ k := mul_le_mul hx.abs_le hy.abs_le (abs_nonneg _) (by positivity)
    _ = 2 ^ (j + k) := (pow_add _ _ _).symm

/-- A product has the bits of both numbers. -/
theorem Within.mul (hx : Within j x) (hy : Within k y) (hjk : j + k < 128) : Within (j + k) (x * y) :=
  (mul_within hx.finite hy.finite (hx.abs_mul_le hy) hjk).1

/-- Rounding turns no product that is not negative into one that is. -/
theorem Within.mul_nonneg (hx : Within j x) (hy : Within k y) (hjk : j + k < 128) (h : 0 ≤ x.toRat * y.toRat) :
    0 ≤ (x * y).toRat := by
  rw [(mul_within hx.finite hy.finite (hx.abs_mul_le hy) hjk).2]
  exact nearest_nonneg h

/-- A product that is not negative is rounded, or too great. -/
theorem mul_cases (hx : x.isFinite) (hy : y.isFinite) (h : 0 ≤ x.toRat * y.toRat) :
    (x * y).isFinite ∧ (x * y).toRat = nearest (x.toRat * y.toRat) ∨ (x * y).parts = .infinity .positive := by
  rcases lt_or_ge (nearest (x.toRat * y.toRat)) (2 ^ 128) with hlt | hge
  · exact .inl ((mul_holds hx hy).ofParts (by rwa [abs_of_nonneg (nearest_nonneg h)]))
  · exact .inr ((mul_holds hx hy).ofParts_overflow hge)

/-- A multiple of zero is a number only if the factor is finite. -/
theorem isFinite_of_zero_mul {s : UnpackedFloat.Sign} (hx : x.parts = .zero s) (h : ¬(x * y).isNaN) : y.isFinite := by
  have hnan : (ofParts .notANumber).isNaN := rfl
  rw [mul_def, hx] at h
  rw [isFinite_eq]
  generalize y.parts = v at h ⊢
  cases v with
  | infinity => exact absurd hnan h
  | notANumber => exact absurd hnan h
  | zero => rfl
  | finite => rfl

/-- Division by what is at least one makes nothing greater. -/
theorem Within.div (hx : Within k x) (hy : y.isFinite) (h1 : 1 ≤ y.toRat) (hk : k < 128) : Within k (x / y) := by
  refine (div_within hx.finite hy (by linarith) ?_ hk).1
  calc |x.toRat / y.toRat| = |x.toRat| / y.toRat := by rw [abs_div, abs_of_nonneg (show 0 ≤ y.toRat by linarith)]
    _ ≤ |x.toRat| := div_le_self (abs_nonneg _) h1
    _ ≤ 2 ^ k := hx.abs_le

/-- The root of a number that is not negative is none either, and has half as many bits. -/
theorem Within.sqrt (hx : Within (2 * k) x) (h0 : 0 ≤ x.toRat) (hk : k < 128) :
    Within k x.sqrt ∧ 0 ≤ toRat x.sqrt := by
  have hsqrt : x.sqrt = ofParts (UnpackedFloat.sqrt Format.binary32 x.parts) := rfl
  have hle := (le_abs_self _).trans hx.abs_le
  have hf := hx.finite
  rw [isFinite_eq] at hf
  rw [hsqrt]
  unfold toRat at hle h0
  generalize x.parts = u at *
  rcases u with _ | _ | s | ⟨s, m, e, hm⟩
  · cases hf
  · cases hf
  · have hzero : Holds (UnpackedFloat.sqrt Format.binary32 (.zero s)) (nearest 0) :=
      ⟨trivial, rfl, by rw [nearest_zero]; rfl⟩
    obtain ⟨hwithin, hval⟩ := hzero.within (k := k) (by simp) hk
    rw [hval, nearest_zero]
    exact ⟨hwithin, le_rfl⟩
  · cases s with
    | negative =>
      have := valueOf_positive_pos (e := e) hm
      rw [valueOf_negative] at h0
      linarith
    | positive =>
      rw [valueOf_positive] at hle
      obtain ⟨v, hholds, hpos, hroot⟩ := sqrt_parts hm e
      have hv : v ≤ 2 ^ k := by
        have hdouble : (m : ℚ) * 2 ^ e ≤ 2 ^ (2 * (k : ℤ)) := by exact_mod_cast hle
        exact_mod_cast hroot k hdouble
      have hnearest : nearestPos v = nearest v := (if_neg (not_lt.2 hpos.le)).symm
      rw [hnearest] at hholds
      obtain ⟨hwithin, hval⟩ := hholds.within (by rwa [abs_of_pos hpos]) hk
      rw [hval]
      exact ⟨hwithin, nearest_nonneg hpos.le⟩

/-! ## The error of rounding -/

theorem abs_halfEven_sub_le (r : ℚ) : |halfEven r - r| ≤ 1 / 2 := by
  have hlow := Int.floor_le r
  have hhigh := Int.lt_floor_add_one r
  unfold halfEven
  rw [abs_le]
  split_ifs with h1 h2
  · constructor <;> linarith
  · rcases Int.emod_two_eq_zero_or_one ⌊r⌋ with h | h <;> rw [h] <;> push_cast <;> constructor <;> linarith
  · push_cast
    have : 1 ≤ 2 * (r - ⌊r⌋) := not_lt.1 h1
    constructor <;> linarith

/-- **Rounding errs by half a unit of the last place** at most. -/
theorem abs_nearestPos_sub_le (v : ℚ) : |nearestPos v - v| ≤ 2 ^ lastPlace v / 2 := by
  have hp : (0 : ℚ) < 2 ^ lastPlace v := by positivity
  have herr := abs_halfEven_sub_le (v / 2 ^ lastPlace v)
  calc |nearestPos v - v| = |(halfEven (v / 2 ^ lastPlace v) - v / 2 ^ lastPlace v) * 2 ^ lastPlace v| := by
        rw [sub_mul, div_mul_cancel₀ _ hp.ne', nearestPos]
    _ = |halfEven (v / 2 ^ lastPlace v) - v / 2 ^ lastPlace v| * 2 ^ lastPlace v := by rw [abs_mul, abs_of_pos hp]
    _ ≤ 1 / 2 * 2 ^ lastPlace v := by gcongr
    _ = 2 ^ lastPlace v / 2 := by ring

/-- The unit of the last place is told by a power of two above the number. -/
theorem abs_nearest_sub_le {v : ℚ} (hv : |v| < 2 ^ (k + 24)) : |nearest v - v| ≤ 2 ^ k / 2 := by
  -- the claim is about magnitudes
  have hpos : ∀ w : ℚ, 0 ≤ w → w < 2 ^ (k + 24) → |nearestPos w - w| ≤ 2 ^ k / 2 := by
    intro w h0 hw
    rcases h0.eq_or_lt with rfl | hw0
    · rw [nearestPos_zero]
      simp
      positivity
    · have hplace : lastPlace w ≤ k := by
        have hlog : Int.log 2 w < k + 24 := by
          rw [← Int.lt_zpow_iff_log_lt one_lt_two hw0]
          exact_mod_cast hw
        unfold lastPlace
        omega
      have hunit : (2 : ℚ) ^ lastPlace w ≤ 2 ^ (k : ℤ) := zpow_le_zpow_right₀ one_le_two hplace
      rw [zpow_natCast] at hunit
      have herr := abs_nearestPos_sub_le w
      linarith
  unfold nearest
  split_ifs with hneg
  · have hodd : -nearestPos (-v) - v = -(nearestPos (-v) - -v) := by ring
    rw [hodd, abs_neg]
    exact hpos (-v) (by linarith) ((neg_le_abs v).trans_lt hv)
  · exact hpos v (not_lt.1 hneg) ((le_abs_self v).trans_lt hv)

/-! ## Integers -/

theorem toFloat32_holds (n : UInt64) : ∃ u, n.toFloat32 = ofParts u ∧ Holds u (nearest n.toNat) := by
  refine ⟨_, rfl, ?_⟩
  have h := normalize_spec n.toNat 0
  rw [zpow_zero, mul_one] at h
  exact_mod_cast h

theorem parts_ofBits_one : parts (.ofBits 0x3F800000) = .finite .positive (2 ^ 23) (-23) (by norm_num) := by
  rfl

/-- A number below the bits of a mantissa is the product of a word with one. -/
theorem ofNat_small {n : ℕ} (hn : n < 2 ^ 23) : ∃ u, Float32.ofNat n = ofParts u ∧ Holds u (nearest n) := by
  have hofNat : Float32.ofNat n = n.toUInt64.toFloat32 * .ofBits 0x3F800000 := dif_pos ⟨hn, Nat.zero_le _⟩
  have hexact : nearest (n : ℚ) = n := by
    have h := nearest_dyadic (k := n) (n := 0) (by omega) (by norm_num)
    simpa using h
  have hone : toRat (.ofBits 0x3F800000) = 1 := by
    rw [toRat, parts_ofBits_one, valueOf_positive]
    norm_num
  have hword : n.toUInt64.toNat = n := Nat.mod_eq_of_lt (by omega)
  obtain ⟨u, hu, hholds⟩ := toFloat32_holds n.toUInt64
  rw [hword] at hholds
  have hsmall : |(n : ℚ)| ≤ 2 ^ 23 := by
    rw [abs_of_nonneg (by positivity)]
    exact_mod_cast hn.le
  obtain ⟨hfin, hval⟩ := hholds.within hsmall (by norm_num)
  have h := mul_holds (x := ofParts u) (y := .ofBits 0x3F800000) hfin.finite rfl
  rw [hval, hone, mul_one, hexact] at h
  rw [hofNat, hu]
  exact ⟨_, rfl, h⟩

/-- Any other number is rounded behind zeros that are cut off again. -/
theorem ofNat_large {n : ℕ} (hn : 2 ^ 23 ≤ n) : ∃ u, Float32.ofNat n = ofParts u ∧ Holds u (nearest n) := by
  have hofNat : Float32.ofNat n = .ofModel (.ofScientific n 0) := dif_neg fun h => absurd h.1 (by omega)
  have hpos : 0 < n := by omega
  obtain ⟨m, hm⟩ : ∃ m, m = n <<< 24 * 10 ^ 0 := ⟨_, rfl⟩
  have hm' : m = n * 2 ^ 24 := by rw [hm, Nat.shiftLeft_eq, pow_zero, mul_one]
  have hmpos : 0 < m := by
    rw [hm']
    positivity
  have hround : Float32.ofNat n = ofParts (roundWithAccuracy Format.binary32 .positive m (-24) .exact) := by
    rw [hofNat, hm]
    have hbits : (0 : ℤ) ≤ 2 ^ Format.binary32.exponentBits := by positivity
    unfold Float32.Model.ofScientific UnpackedFloat.ofScientific
    rw [dif_neg hpos.ne', if_neg (by decide), if_neg (by omega), if_pos le_rfl]
    rfl
  have hvalue : (m : ℚ) * 2 ^ (-24 : ℤ) = n := by
    rw [hm']
    push_cast
    rw [mul_assoc, zpow_neg]
    norm_num
  have hplace : (-24 : ℤ) ≤ lastPlace ((m : ℚ) * 2 ^ (-24 : ℤ)) := by
    have hlog : 23 ≤ m.log2 := by
      rw [Nat.le_log2 hmpos.ne', hm']
      exact hn.trans (Nat.le_mul_of_pos_right n (by norm_num))
    rw [lastPlace_natCast_mul hmpos]
    omega
  have h := roundWithAccuracy_spec .positive hmpos hplace
  have hnearest : nearest (n : ℚ) = nearestPos n := if_neg (not_lt.2 (by positivity))
  rw [hvalue] at h
  rw [hnearest, hround]
  exact ⟨_, rfl, h⟩

theorem ofNat_holds (n : ℕ) : ∃ u, Float32.ofNat n = ofParts u ∧ Holds u (nearest n) := by
  rcases Nat.lt_or_ge n (2 ^ 23) with h | h
  · exact ofNat_small h
  · exact ofNat_large h

/-- The scalar nearest to a natural number. -/
theorem toRat_ofNat {n : ℕ} (hn : n ≤ 2 ^ k) (hk : k < 128) :
    Within k (Float32.ofNat n) ∧ toRat (Float32.ofNat n) = nearest n := by
  have habs : |(n : ℚ)| ≤ 2 ^ k := by
    rw [abs_of_nonneg (by positivity)]
    exact_mod_cast hn
  obtain ⟨u, hu, hholds⟩ := ofNat_holds n
  rw [hu]
  exact hholds.within habs hk

/-- The scalar nearest to an integer. -/
theorem toRat_ofInt {n : ℤ} (hn : n.natAbs ≤ 2 ^ k) (hk : k < 128) :
    Within k (Float32.ofInt n) ∧ toRat (Float32.ofInt n) = nearest n := by
  cases n with
  | ofNat n => exact toRat_ofNat hn hk
  | negSucc n =>
    obtain ⟨hwithin, hval⟩ := toRat_ofNat (n := n + 1) hn hk
    have hneg : Float32.ofInt (Int.negSucc n) = -Float32.ofNat (n + 1) := rfl
    rw [hneg]
    refine ⟨hwithin.neg, ?_⟩
    rw [toRat_neg, hval, Int.cast_negSucc, nearest_neg]

end MotionScript.Scalar
