import MotionScript.Proofs.Scalar.Bounds

/-!
# Whole numbers of scalars

* `toInt_truncate`, `toInt_floor`: the integer below a number that is not negative, as far as it fits in a word.
* `toInt_truncate_of_neg`: the integer above a negative number.
* `toNat_toUInt64_ofNat`, `toInt_truncate_ofInt`: whole numbers with no more than 24 bits are kept.
* `ofNat_eq`: a natural number that is a scalar is kept, however great it is.
-/

namespace MotionScript.Scalar

open Float.Model (UnpackedFloat Format)

open Float.Model.UnpackedFloat

variable {x : Scalar}

/-- What the arithmetic makes of a positive number when it cuts it to an integer. -/
theorem roundToInt_eq {m : ℕ} (e : ℤ) : roundToInt .positive m e = ⌊(m : ℚ) * 2 ^ e⌋ := by
  have hvalue : ((m * 2 ^ e.toNat : ℕ) : ℚ) / 2 ^ (-e).toNat = m * 2 ^ e := by
    rcases le_total 0 e with h | h
    · rw [show (-e).toNat = 0 by omega, pow_zero, div_one]
      push_cast
      rw [← zpow_natCast, Int.toNat_of_nonneg h]
    · rw [show e.toNat = 0 by omega, pow_zero, mul_one, div_eq_mul_inv, ← zpow_natCast, Int.toNat_of_nonneg (by omega),
        zpow_neg, inv_inv]
  have hshift : (0 - (e - ((e - 0).toNat : ℤ))).toNat = (-e).toNat := by omega
  have hreads := (reads_exact (m * 2 ^ e.toNat)).shiftRight (-e).toNat
  rw [hvalue] at hreads
  obtain ⟨hlow, hhigh⟩ := hreads.bounds
  unfold roundToInt decreaseExponent shiftToExponent
  dsimp only
  rw [hshift, Nat.shiftLeft_eq, show (e - 0).toNat = e.toNat by omega, eq_comm, Int.floor_eq_iff]
  simp only [Sign.apply, Int.cast_natCast]
  exact ⟨hlow, hhigh⟩

theorem toNat_ofNatClamp (n : ℕ) : (UInt32.ofNatClamp n).toNat = min n (2 ^ 32 - 1) := by
  unfold UInt32.ofNatClamp
  split
  · next h =>
    have : n < 2 ^ 32 := h
    rw [UInt32.toNat_ofNatLT]
    omega
  · next h =>
    have : ¬n < 2 ^ 32 := h
    rw [UInt32.toNat_ofNatLT]
    show 2 ^ 32 - 1 = _
    omega

/-- The integer below a number that is not negative, before it is fitted in a word. -/
theorem toInt_parts (hx : x.isFinite) (h0 : 0 ≤ x.toRat) (n : ℤ) : x.parts.toInt 0 n = ⌊x.toRat⌋ := by
  rw [isFinite_eq] at hx
  unfold toRat at h0 ⊢
  generalize x.parts = u at *
  rcases u with _ | _ | s | ⟨s, m, e, hm⟩
  · cases hx
  · cases hx
  · exact (Int.floor_zero).symm
  · cases s with
    | positive =>
      rw [valueOf_positive]
      exact roundToInt_eq e
    | negative =>
      have := valueOf_positive_pos (e := e) hm
      rw [valueOf_negative] at h0
      linarith

/-- The word of a number that is not negative. -/
theorem toNat_toUInt32 (hx : x.isFinite) (h0 : 0 ≤ x.toRat) : (x.toUInt32.toNat : ℤ) = min ⌊x.toRat⌋ (2 ^ 32 - 1) := by
  have hword : x.toUInt32 = UInt32.ofNatClamp (x.parts.toInt 0 (UInt32.size - 1)).toNat := rfl
  have hfloor : 0 ≤ ⌊x.toRat⌋ := Int.floor_nonneg.2 h0
  rw [hword, toNat_ofNatClamp, toInt_parts hx h0]
  omega

theorem toInt_toInt32 {n : UInt32} (h : n.toNat < 2 ^ 31) : n.toInt32.toInt = n.toNat := by
  show n.toBitVec.toInt = _
  rw [BitVec.toInt_eq_toNat_of_lt (by simpa using by omega)]
  rfl

theorem toNat_min (a b : UInt32) : (min a b).toNat = min a.toNat b.toNat := by
  have hmin : min a b = if a ≤ b then a else b := rfl
  rw [hmin]
  split
  · next h => rw [Nat.min_eq_left (UInt32.le_iff_toNat_le.1 h)]
  · next h =>
    rw [UInt32.le_iff_toNat_le] at h
    rw [Nat.min_eq_right (by omega)]

/-- **The integer below a number that is not negative**, as far as it fits in a word. -/
theorem toInt_truncate (hx : x.isFinite) (h0 : 0 ≤ x.toRat) : x.truncate.toInt = min ⌊x.toRat⌋ (2 ^ 31 - 1) := by
  have hnot : ¬x < 0 := by
    rw [lt_iff hx rfl, toRat_zero]
    exact not_lt.2 h0
  have hword := toNat_toUInt32 hx h0
  have hmin : (min x.toUInt32 0x7fffffff).toNat = min x.toUInt32.toNat (2 ^ 31 - 1) := toNat_min _ _
  unfold truncate
  rw [if_neg hnot, toInt_toInt32 (by omega), hmin]
  omega

/-- The floor of a number that is not negative is the number cut to an integer, though the integer may be rounded
when it is compared with the number. -/
theorem toInt_floor (hx : x.isFinite) (h0 : 0 ≤ x.toRat) : x.floor.toInt = min ⌊x.toRat⌋ (2 ^ 31 - 1) := by
  have htruncate := toInt_truncate hx h0
  have hfloor : 0 ≤ ⌊x.toRat⌋ := Int.floor_nonneg.2 h0
  have hnot : ¬x < Float32.ofInt x.truncate.toInt := by
    obtain ⟨hwithin, hval⟩ := toRat_ofInt (n := x.truncate.toInt) (k := 31) (by omega) (by norm_num)
    have hle : (x.truncate.toInt : ℚ) ≤ x.toRat := by
      have hcast : x.truncate.toInt ≤ ⌊x.toRat⌋ := by omega
      exact Int.le_floor.1 hcast
    rw [lt_iff hx hwithin.finite, hval, not_lt]
    calc nearest x.truncate.toInt ≤ nearest x.toRat := nearest_mono hle
      _ = x.toRat := nearest_toRat x
  unfold floor
  dsimp only
  rw [if_neg fun h => hnot h.1, htruncate]

theorem toInt_neg_toInt32 {n : UInt32} (h : n.toNat ≤ 2 ^ 31) : (-n.toInt32).toInt = -n.toNat := by
  rw [Int32.toInt_neg]
  rcases h.lt_or_eq with hlt | heq
  · rw [toInt_toInt32 hlt]
    exact Int.bmod_eq_of_le_mul_two (by omega) (by omega)
  · -- the least word is its own negative
    have hn : n = 0x80000000 := UInt32.toNat_inj.1 heq
    rw [hn]
    rfl

/-- **The integer above a negative number**, as far as it fits in a word. -/
theorem toInt_truncate_of_neg (hx : x.isFinite) (h0 : x.toRat < 0) :
    x.truncate.toInt = -min ⌊-x.toRat⌋ (2 ^ 31) := by
  have hneg : x < 0 := by
    rw [lt_iff hx rfl, toRat_zero]
    exact h0
  have hword := toNat_toUInt32 (isFinite_neg hx) (by rw [toRat_neg]; linarith)
  have hmin : (min (-x).toUInt32 0x80000000).toNat = min (-x).toUInt32.toNat (2 ^ 31) := toNat_min _ _
  rw [toRat_neg] at hword
  unfold truncate
  rw [if_pos hneg, toInt_neg_toInt32 (by omega), hmin]
  omega

/-! ## Whole numbers that are kept -/

theorem nearest_natCast {n : ℕ} (hn : n ≤ 2 ^ 24) : nearest n = n := by
  rcases hn.lt_or_eq with hlt | rfl
  · simpa using nearest_dyadic hlt (show 0 ≤ 149 by norm_num)
  · exact_mod_cast nearest_two_pow 24

/-- A natural number with no more than 24 bits is a scalar. -/
theorem toRat_ofNat_exact {n : ℕ} (hn : n ≤ 2 ^ 24) : (Float32.ofNat n).isFinite ∧ toRat (Float32.ofNat n) = n := by
  obtain ⟨hwithin, hval⟩ := toRat_ofNat hn (by norm_num)
  exact ⟨hwithin.finite, hval.trans (nearest_natCast hn)⟩

theorem toNat_ofNatClamp_wide {n : ℕ} (hn : n < 2 ^ 64) : (UInt64.ofNatClamp n).toNat = n := by
  have hsize : n < UInt64.size := hn
  unfold UInt64.ofNatClamp
  rw [dif_pos hsize, UInt64.toNat_ofNatLT]

theorem toNat_toUInt64_ofNat {n : ℕ} (hn : n ≤ 2 ^ 24) : (Float32.ofNat n).toUInt64.toNat = n := by
  obtain ⟨hfinite, hval⟩ := toRat_ofNat_exact hn
  have hword : (Float32.ofNat n).toUInt64 =
      UInt64.ofNatClamp ((parts (.ofNat n)).toInt 0 (UInt64.size - 1)).toNat := rfl
  have hint := toInt_parts hfinite (by rw [hval]; positivity) (UInt64.size - 1)
  rw [hval, Int.floor_natCast] at hint
  rw [hword, hint, Int.toNat_natCast, toNat_ofNatClamp_wide (by omega)]

theorem toInt_truncate_ofInt {n : ℤ} (hn : n.natAbs ≤ 2 ^ 24) : (truncate (.ofInt n)).toInt = n := by
  cases n with
  | ofNat n =>
    have hn' : n ≤ 2 ^ 24 := hn
    obtain ⟨hfinite, hval⟩ := toRat_ofNat_exact hn'
    have hnonneg : 0 ≤ toRat (.ofNat n) := by
      rw [hval]
      positivity
    have htruncate := toInt_truncate hfinite hnonneg
    rw [hval, Int.floor_natCast] at htruncate
    refine htruncate.trans ?_
    rw [Int.ofNat_eq_natCast]
    omega
  | negSucc n =>
    have hn' : n + 1 ≤ 2 ^ 24 := hn
    obtain ⟨hfinite, hval⟩ := toRat_ofNat_exact hn'
    have hneg : toRat (-.ofNat (n + 1)) = -((n + 1 : ℕ) : ℚ) := by rw [toRat_neg, hval]
    have hbelow : toRat (-.ofNat (n + 1)) < 0 := by
      rw [hneg]
      exact neg_lt_zero.2 (by positivity)
    have htruncate := toInt_truncate_of_neg (isFinite_neg hfinite) hbelow
    rw [hneg, neg_neg, Int.floor_natCast] at htruncate
    refine htruncate.trans ?_
    rw [Int.negSucc_eq]
    omega

/-- A zero without a sign. -/
theorem eq_zero_of_toRat (hx : x.isFinite) (hne : x ≠ -0) (h : x.toRat = 0) : x = 0 := by
  have hsigned : ofParts (.zero .negative) = -0 := by decide +kernel
  have hplain : ofParts (.zero .positive) = 0 := by decide +kernel
  obtain ⟨s, hs⟩ := parts_of_toRat_zero hx h
  have hparts := ofParts_parts x
  rw [hs] at hparts
  cases s with
  | positive => exact hparts.symm.trans hplain
  | negative => exact absurd (hparts.symm.trans hsigned) hne

/-- A natural number that is the value of a scalar is rounded to that scalar. -/
theorem ofNat_eq {n : ℕ} (hx : x.isFinite) (hne : x ≠ -0) (h : x.toRat = n) : Float32.ofNat n = x := by
  obtain ⟨u, hu, hholds⟩ := ofNat_holds n
  have hexact : nearest (n : ℚ) = n := by
    rw [← h]
    exact nearest_toRat x
  have hlt : |(n : ℚ)| < 2 ^ 128 := by
    rw [← h]
    exact abs_toRat_lt x
  rw [hexact] at hholds
  obtain ⟨hfinite, hval⟩ := hholds.ofParts hlt
  rw [← hu] at hfinite hval
  by_cases h0 : n = 0
  · rw [h0, Nat.cast_zero] at h
    rw [h0, eq_zero_of_toRat hx hne h]
    rfl
  · exact eq_of_toRat hfinite hx (hval.trans h.symm) (by rw [hval]; exact_mod_cast h0)

end MotionScript.Scalar
