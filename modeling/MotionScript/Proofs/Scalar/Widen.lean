import MotionScript.Proofs.Scalar.Narrow
import MotionScript.Proofs.Scalar.Rounding

/-!
# Widening

Every finite scalar is a number of the wide format as well. The word of the one is shifted to that of the other, where
a magnitude without a leading bit is given one.

* `toNat_widen`: the word of a scalar that is widened.
* `valueOf_widen`: widening is exact.
* `narrow_widen`: narrowing undoes it.
-/

namespace MotionScript.Scalar

open Float.Model (UnpackedFloat Format)

open Float.Model.UnpackedFloat

/-! ## Words -/

/-- The word of the wide format in the place of a magnitude. -/
def wideWord (n : ℕ) : ℕ :=
  if n = 0 then 0
  else if n < 2 ^ 23 then n * 2 ^ (52 - n.log2) + (873 + n.log2) * 2 ^ 52
  else n * 2 ^ 29 + 0x3800000000000000

theorem roundedOff_mul (c : ℕ) {k : ℕ} (hk : 1 ≤ k) : roundedOff (c * 2 ^ k) k = c :=
  le_antisymm (roundedOff_le le_rfl hk) (le_roundedOff le_rfl)

/-- A magnitude without a leading bit is shifted until it has one. -/
theorem shifted_bounds {n : ℕ} (h0 : n ≠ 0) (h : n < 2 ^ 23) :
    n.log2 ≤ 22 ∧ 2 ^ 52 ≤ n * 2 ^ (52 - n.log2) ∧ n * 2 ^ (52 - n.log2) < 2 ^ 53 := by
  have hlog : n.log2 < 23 := (Nat.log2_lt h0).2 h
  refine ⟨by omega, ?_, ?_⟩
  · calc 2 ^ 52 = 2 ^ n.log2 * 2 ^ (52 - n.log2) := by rw [← pow_add, Nat.add_sub_cancel' (by omega)]
      _ ≤ n * 2 ^ (52 - n.log2) := Nat.mul_le_mul_right _ (Nat.log2_self_le h0)
  · calc n * 2 ^ (52 - n.log2) < 2 ^ (n.log2 + 1) * 2 ^ (52 - n.log2) :=
          Nat.mul_lt_mul_of_pos_right Nat.lt_log2_self (by positivity)
      _ = 2 ^ 53 := by
          rw [← pow_add]
          congr 1
          omega

theorem wideWord_lt {n : ℕ} (h : n < 0x7f800000) : wideWord n < 0x7ff0000000000000 := by
  unfold wideWord
  split_ifs with h0 hlow
  · norm_num
  · have := shifted_bounds h0 hlow
    omega
  · omega

/-- What a word is shifted by is shifted back, and nothing is rounded off. -/
theorem narrowWord_wideWord {n : ℕ} (h : n < 0x7f800000) : narrowWord (wideWord n) = n := by
  unfold wideWord
  split_ifs with h0 hlow
  · rw [h0]
    rfl
  · obtain ⟨hlog, hlead, hlt⟩ := shifted_bounds h0 hlow
    have hexponent : (n * 2 ^ (52 - n.log2) + (873 + n.log2) * 2 ^ 52) / 2 ^ 52 = 874 + n.log2 := by omega
    have hmantissa : (n * 2 ^ (52 - n.log2) + (873 + n.log2) * 2 ^ 52) % 2 ^ 52 + 2 ^ 52 = n * 2 ^ (52 - n.log2) := by
      omega
    have hshift : min (926 - (874 + n.log2)) 54 = 52 - n.log2 := by omega
    unfold narrowWord
    rw [hexponent, hmantissa, hshift, if_pos (by omega), roundedOff_mul n (by omega)]
  · unfold narrowWord
    rw [if_neg (by omega), Nat.add_sub_cancel, roundedOff_mul n (by norm_num), min_eq_left (by omega)]

/-- The part of `widen` that works on words. -/
def wide (size : UInt64) : UInt64 :=
  let shift := 52 - size.log2
  if size = 0 then 0
  else if size < 0x800000 then (size <<< shift) + ((925 - shift) <<< 52)
  else if size < 0x7f800000 then (size <<< 29) + 0x3800000000000000
  else 0x7ff0000000000000

theorem toNat_wide {size : UInt64} (h : size.toNat < 0x7f800000) : (wide size).toNat = wideWord size.toNat := by
  have hzero : size = 0 ↔ size.toNat = 0 := by
    rw [← UInt64.toNat_inj]
    rfl
  have hless : size < 0x800000 ↔ size.toNat < 2 ^ 23 := UInt64.lt_iff_toNat_lt
  have htop : size < 0x7f800000 := UInt64.lt_iff_toNat_lt.2 h
  unfold wide wideWord
  dsimp only
  by_cases h0 : size.toNat = 0
  · rw [if_pos (hzero.2 h0), if_pos h0]
    rfl
  rw [if_neg (mt hzero.1 h0), if_neg h0]
  by_cases hlow : size.toNat < 2 ^ 23
  · rw [if_pos (hless.2 hlow), if_pos hlow]
    obtain ⟨hlog, hlead, hlt⟩ := shifted_bounds h0 hlow
    have hlog2 : size.log2.toNat = size.toNat.log2 := rfl
    have hshift : (52 - size.log2).toNat = 52 - size.toNat.log2 := by
      rw [UInt64.toNat_sub_of_le _ _ (by rw [UInt64.le_iff_toNat_le, hlog2]; show _ ≤ 52; omega), hlog2]
      rfl
    have hexponent : (925 - (52 - size.log2)).toNat = 873 + size.toNat.log2 := by
      rw [UInt64.toNat_sub_of_le _ _ (by rw [UInt64.le_iff_toNat_le, hshift]; show _ ≤ 925; omega), hshift]
      show 925 - _ = _
      omega
    have hfraction : (size <<< (52 - size.log2)).toNat = size.toNat * 2 ^ (52 - size.toNat.log2) := by
      rw [UInt64.toNat_shiftLeft, hshift, Nat.mod_eq_of_lt (by omega : 52 - size.toNat.log2 < 64), Nat.shiftLeft_eq,
        Nat.mod_eq_of_lt (by omega)]
    have hfields : ((925 - (52 - size.log2)) <<< (52 : UInt64)).toNat = (873 + size.toNat.log2) * 2 ^ 52 := by
      rw [UInt64.toNat_shiftLeft, hexponent, show (52 : UInt64).toNat % 64 = 52 from rfl, Nat.shiftLeft_eq,
        Nat.mod_eq_of_lt (by omega)]
    rw [UInt64.toNat_add, hfraction, hfields, Nat.mod_eq_of_lt (by omega)]
  · have hbias : (0x3800000000000000 : UInt64).toNat = 0x3800000000000000 := rfl
    have hfraction : (size <<< 29).toNat = size.toNat * 2 ^ 29 := by
      rw [UInt64.toNat_shiftLeft, show (29 : UInt64).toNat % 64 = 29 from rfl, Nat.shiftLeft_eq,
        Nat.mod_eq_of_lt (by omega)]
    rw [if_neg (mt hless.1 hlow), if_pos htop, if_neg hlow, UInt64.toNat_add, hfraction, hbias,
      Nat.mod_eq_of_lt (by omega)]

/-! ## Numbers -/

variable {format : Format} {x : Scalar}

/-- A word with the greatest exponent is no finite number. -/
theorem not_isFinite_unpack {b : BitVec format.numBits}
    (h : b.toNat / fractions format % 2 ^ format.exponentBits = 2 ^ format.exponentBits - 1) :
    ¬(unpack format b).isFinite := by
  unfold UnpackedFloat.unpack
  dsimp only
  rw [if_pos ((unpackExponent_eq_top_iff b).2 h)]
  split <;> exact Bool.false_ne_true

/-- The finite number of a word, from its sign, its exponent and its fraction. -/
theorem valueOf_unpack {b : BitVec format.numBits} {e m : ℕ}
    (he : b.toNat / fractions format % 2 ^ format.exponentBits = e) (hm : b.toNat % fractions format = m)
    (h : e ≠ 2 ^ format.exponentBits - 1) :
    (unpack format b).isFinite ∧ valueOf (unpack format b) = signed (.ofBitVec (unpackSign b))
      (((if e = 0 then 0 else fractions format) + m : ℕ) *
        2 ^ (max (e : ℤ) 1 - ((format.exponentBias : ℤ) + format.mantissaBitsWithoutImplicit))) := by
  subst he hm
  have hE := toNat_unpackExponent b
  have hM := toNat_unpackMantissa b
  unfold UnpackedFloat.unpack
  dsimp only
  rw [if_neg (mt (unpackExponent_eq_top_iff b).1 h)]
  by_cases h0 : b.toNat / fractions format % 2 ^ format.exponentBits = 0
  · rw [if_pos ((unpackExponent_eq_zero_iff b).2 h0), if_pos h0]
    by_cases hzero : b.toNat % fractions format = 0
    · rw [dif_pos ((unpackMantissa_eq_zero_iff b).2 hzero), hzero]
      refine ⟨rfl, ?_⟩
      cases Sign.ofBitVec (unpackSign b) <;> simp [valueOf, signed]
    · rw [dif_neg (mt (unpackMantissa_eq_zero_iff b).1 hzero)]
      refine ⟨rfl, ?_⟩
      rw [valueOf_finite, hM, hE, h0, zero_add, max_eq_right (by norm_num)]
      congr 3
      push_cast
      ring
  · rw [if_neg (mt (unpackExponent_eq_zero_iff b).1 h0), if_neg h0]
    refine ⟨rfl, ?_⟩
    rw [valueOf_finite, toNat_withImplicit, hM, hE, max_eq_left (by exact_mod_cast Nat.one_le_iff_ne_zero.2 h0)]
    rfl

theorem not_isNaN_of_finite {u : UnpackedFloat} (h : u.isFinite) : ¬u.isNaN := by
  cases u with
  | notANumber => cases h
  | infinity => exact Bool.false_ne_true
  | zero => exact Bool.false_ne_true
  | finite => exact Bool.false_ne_true

/-- The magnitude of a scalar, without the sign. -/
theorem toNat_magnitude (x : Scalar) : x.magnitude.toNat = x.toBits.toNat % 2 ^ 31 := by
  unfold magnitude
  rw [UInt32.toNat_and]
  exact Nat.and_two_pow_sub_one_eq_mod _ 31

theorem magnitude_lt_infinity (hx : x.isFinite) : x.toBits.toNat % 2 ^ 31 < 0x7f800000 := by
  by_contra hge
  refine @not_isFinite_unpack Format.binary32 x.toBits.toBitVec ?_ hx
  show x.toBits.toNat / 2 ^ 23 % 2 ^ 8 = 2 ^ 8 - 1
  omega

/-- A word of the wide format is that of the number it is read as, unless it has the greatest exponent. -/
theorem toBits_ofBits_wide {v : UInt64} (h : v.toNat % 2 ^ 63 < 0x7ff0000000000000) : (Float.ofBits v).toBits = v := by
  have hbits : (Float.ofBits v).toBits.toBitVec =
      UnpackedFloat.pack Format.binary64 (UnpackedFloat.unpack Format.binary64 v.toBitVec) := rfl
  have hexponent : ¬@isNaNBits Format.binary64 v.toBitVec := by
    intro hnan
    have htop := (@unpackExponent_eq_top_iff Format.binary64 v.toBitVec).1 (of_decide_eq_true hnan).1
    have hlow : v.toNat / 2 ^ 52 % 2 ^ 11 = 2 ^ 11 - 1 := htop
    omega
  have hpack := @UnpackedFloat.pack_unpack Format.binary64 v.toBitVec (by decide)
  apply UInt64.toBitVec_inj.1
  rw [hbits, hpack, if_neg hexponent]

/-- **The word of a scalar that is widened**: the sign stays in front. -/
theorem toNat_widen (hx : x.isFinite) :
    x.widen.toBits.toNat = x.toBits.toNat / 2 ^ 31 * 2 ^ 63 + wideWord (x.toBits.toNat % 2 ^ 31) := by
  have hmagnitude := magnitude_lt_infinity hx
  have hwide := wideWord_lt hmagnitude
  have hlt := x.toBits.toNat_lt
  have hnan : ¬x.isNaN := not_isNaN_of_finite hx
  have hwiden : x.widen = if x.isNaN then .ofBits 0x7ff8000000000000 else
      .ofBits (((x.toBits >>> 31).toUInt64 <<< 63) ||| wide x.magnitude.toUInt64) := rfl
  have hsign : ((x.toBits >>> 31).toUInt64 <<< 63).toNat = (x.toBits.toNat / 2 ^ 31) <<< 63 := by
    rw [UInt64.toNat_shiftLeft, UInt32.toNat_toUInt64, UInt32.toNat_shiftRight, Nat.shiftRight_eq_div_pow]
    show (x.toBits.toNat / 2 ^ 31) <<< 63 % 2 ^ 64 = _
    rw [Nat.shiftLeft_eq, Nat.mod_eq_of_lt (by omega)]
  have hsize : (wide x.magnitude.toUInt64).toNat = wideWord (x.toBits.toNat % 2 ^ 31) := by
    have htoNat : x.magnitude.toUInt64.toNat = x.toBits.toNat % 2 ^ 31 := by
      rw [UInt32.toNat_toUInt64, toNat_magnitude]
    rw [toNat_wide (by omega), htoNat]
  have hword : (((x.toBits >>> 31).toUInt64 <<< 63) ||| wide x.magnitude.toUInt64).toNat =
      x.toBits.toNat / 2 ^ 31 * 2 ^ 63 + wideWord (x.toBits.toNat % 2 ^ 31) := by
    rw [UInt64.toNat_or, hsign, hsize, ← Nat.shiftLeft_add_eq_or_of_lt (by omega), Nat.shiftLeft_eq]
  rw [hwiden, if_neg hnan, toBits_ofBits_wide (by omega), hword]

/-- The two words of a magnitude stand for the same number. -/
theorem value_wideWord {n : ℕ} (h : n < 0x7f800000) :
    (((if wideWord n / 2 ^ 52 = 0 then 0 else 2 ^ 52) + wideWord n % 2 ^ 52 : ℕ) : ℚ) *
        2 ^ (max ((wideWord n / 2 ^ 52 : ℕ) : ℤ) 1 - 1075) =
      (((if n / 2 ^ 23 = 0 then 0 else 2 ^ 23) + n % 2 ^ 23 : ℕ) : ℚ) * 2 ^ (max ((n / 2 ^ 23 : ℕ) : ℤ) 1 - 150) := by
  by_cases hlow : n < 2 ^ 23
  · have hexponent : n / 2 ^ 23 = 0 := Nat.div_eq_of_lt hlow
    rw [hexponent, if_pos rfl, zero_add, Nat.mod_eq_of_lt hlow]
    by_cases h0 : n = 0
    · rw [h0]
      norm_num [wideWord]
    · obtain ⟨hlog, hlead, hlt⟩ := shifted_bounds h0 hlow
      have hword : wideWord n = n * 2 ^ (52 - n.log2) + (873 + n.log2) * 2 ^ 52 := by
        rw [wideWord, if_neg h0, if_pos hlow]
      have hmantissa : 2 ^ 52 + wideWord n % 2 ^ 52 = n * 2 ^ (52 - n.log2) := by omega
      have hwide : wideWord n / 2 ^ 52 = 874 + n.log2 := by omega
      have hplace : max ((874 + n.log2 : ℕ) : ℤ) 1 - 1075 = -149 - (52 - n.log2 : ℕ) := by omega
      rw [hwide, if_neg (by omega), hmantissa, hplace, natCast_mul_zpow_sub]
      norm_num
  · have hword : wideWord n = n * 2 ^ 29 + 0x3800000000000000 := by
      rw [wideWord, if_neg (by omega), if_neg hlow]
    have hmantissa : 2 ^ 52 + wideWord n % 2 ^ 52 = (2 ^ 23 + n % 2 ^ 23) * 2 ^ 29 := by omega
    have hwide : wideWord n / 2 ^ 52 = n / 2 ^ 23 + 896 := by omega
    have hplace : max ((n / 2 ^ 23 + 896 : ℕ) : ℤ) 1 - 1075 = max ((n / 2 ^ 23 : ℕ) : ℤ) 1 - 150 - (29 : ℕ) := by omega
    rw [hwide, if_neg (by omega), if_neg (by omega), hmantissa, hplace, natCast_mul_zpow_sub]

/-- **Widening is exact.** -/
theorem valueOf_widen (hx : x.isFinite) : (wideParts x.widen).isFinite ∧ valueOf (wideParts x.widen) = x.toRat := by
  have hmagnitude := magnitude_lt_infinity hx
  have hwide := wideWord_lt hmagnitude
  have hword := toNat_widen hx
  -- the two words have the same sign
  have hsign : @unpackSign Format.binary64 x.widen.toBits.toBitVec = @unpackSign Format.binary32 x.toBits.toBitVec := by
    apply BitVec.eq_of_toNat_eq
    rw [toNat_unpackSign, toNat_unpackSign]
    show x.widen.toBits.toNat / 2 ^ 63 % 2 = x.toBits.toNat / 2 ^ 31 % 2
    omega
  have hnarrow := @valueOf_unpack Format.binary32 x.toBits.toBitVec (x.toBits.toNat % 2 ^ 31 / 2 ^ 23)
    (x.toBits.toNat % 2 ^ 31 % 2 ^ 23) (by show x.toBits.toNat / 2 ^ 23 % 2 ^ 8 = _; omega)
    (by show x.toBits.toNat % 2 ^ 23 = _; omega) (by show _ ≠ 2 ^ 8 - 1; omega)
  have hwiden := @valueOf_unpack Format.binary64 x.widen.toBits.toBitVec (wideWord (x.toBits.toNat % 2 ^ 31) / 2 ^ 52)
    (wideWord (x.toBits.toNat % 2 ^ 31) % 2 ^ 52) (by show x.widen.toBits.toNat / 2 ^ 52 % 2 ^ 11 = _; omega)
    (by show x.widen.toBits.toNat % 2 ^ 52 = _; omega) (by show _ ≠ 2 ^ 11 - 1; omega)
  refine ⟨hwiden.1, ?_⟩
  refine hwiden.2.trans (Eq.trans ?_ hnarrow.2.symm)
  rw [hsign]
  congr 1
  exact value_wideWord hmagnitude

/-- **A finite scalar that is widened is narrowed to itself.** -/
theorem narrow_widen (hx : x.isFinite) : narrow x.widen = x := by
  have hmagnitude := magnitude_lt_infinity hx
  have hwide := wideWord_lt hmagnitude
  have hword := toNat_widen hx
  have hnan : ¬x.widen.isNaN := not_isNaN_of_finite (valueOf_widen hx).1
  obtain ⟨w, hw, hthin⟩ := narrow_word_signed hnan
  have hquotient : x.widen.toBits.toNat / 2 ^ 63 = x.toBits.toNat / 2 ^ 31 := by omega
  have hrest : x.widen.toBits.toNat % 2 ^ 63 = wideWord (x.toBits.toNat % 2 ^ 31) := by omega
  rw [hquotient, hrest, narrowWord_wideWord hmagnitude] at hthin
  have hbits : w = x.toBits := UInt32.toNat_inj.1 (by omega)
  rw [hw, hbits]
  exact ofParts_parts x

end MotionScript.Scalar
