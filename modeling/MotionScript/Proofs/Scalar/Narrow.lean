import MotionScript.Proofs.Scalar.Order
import MotionScript.Proofs.Scalar.Packed

/-!
# Narrowing

A number of the wide format is rounded off to a scalar. Numbers are in the order of their words, so it is enough to see
what becomes of the word: it is shifted and rounded.

* `narrow_word_signed`, `narrow_word`: the word of a number that is narrowed.
* `zero_le_narrow`, `narrow_le_one`, `zero_lt_narrow_iff`: which bounds a number keeps when it is narrowed.
* `pos_of_narrow`, `zero_le_of_narrow`, `le_one_of_narrow`: which bounds it had before.
-/

namespace MotionScript.Scalar

open Float.Model (UnpackedFloat Format)

open Float.Model.UnpackedFloat

/-! ## Comparisons -/

section Comparisons

variable {x y : Float} {v w : UInt32}

/-- The parts of a number of the wide format. -/
def wideParts (x : Float) : UnpackedFloat := UnpackedFloat.unpack Format.binary64 x.toBits.toBitVec

theorem wide_eq_of_toBits (h : x.toBits = y.toBits) : x = y := by
  obtain ⟨⟨b, hb⟩⟩ := x
  obtain ⟨⟨c, hc⟩⟩ := y
  cases (h : b = c)
  rfl

theorem wide_le_def (x y : Float) : x ≤ y ↔ (wideParts x).le (wideParts y) := by
  show x.le y = true ↔ _
  simp only [Float.le, decide_eq_true_eq]
  rfl

theorem wide_lt_def (x y : Float) : x < y ↔ (wideParts x).lt (wideParts y) := by
  show x.lt y = true ↔ _
  simp only [Float.lt, decide_eq_true_eq]
  rfl

theorem wide_le_iff (hx : x.toBits.toNat ≤ infinityWord Format.binary64)
    (hy : y.toBits.toNat ≤ infinityWord Format.binary64) : x ≤ y ↔ x.toBits.toNat ≤ y.toBits.toNat := by
  rw [wide_le_def]
  exact le_unpack hx hy

theorem wide_lt_iff (hx : x.toBits.toNat ≤ infinityWord Format.binary64)
    (hy : y.toBits.toNat ≤ infinityWord Format.binary64) : x < y ↔ x.toBits.toNat < y.toBits.toNat := by
  rw [wide_lt_def]
  exact lt_unpack hx hy

theorem ofBits_le_iff (hv : v.toNat ≤ infinityWord Format.binary32) (hw : w.toNat ≤ infinityWord Format.binary32) :
    (Float32.ofBits v : Scalar) ≤ .ofBits w ↔ v.toNat ≤ w.toNat := by
  rw [le_def, parts_ofBits, parts_ofBits]
  exact le_unpack hv hw

theorem ofBits_lt_iff (hv : v.toNat ≤ infinityWord Format.binary32) (hw : w.toNat ≤ infinityWord Format.binary32) :
    (Float32.ofBits v : Scalar) < .ofBits w ↔ v.toNat < w.toNat := by
  rw [lt_def, parts_ofBits, parts_ofBits]
  exact lt_unpack hv hw

end Comparisons

/-! ## Words that are rounded off -/

/-- A number divided by a power of two, rounded to the nearest, ties to even. -/
def roundedOff (m k : ℕ) : ℕ := (m + (2 ^ (k - 1) - 1) + m / 2 ^ k % 2) / 2 ^ k

/-- The word of a scalar in the place of the word of a number without a sign. -/
def narrowWord (n : ℕ) : ℕ :=
  if n / 2 ^ 52 < 897 then roundedOff (n % 2 ^ 52 + 2 ^ 52) (min (926 - n / 2 ^ 52) 54)
  else min (roundedOff (n - 0x3800000000000000) 29) 0x7f800000

theorem toNat_shiftRounded {m k : UInt64} (hm : m.toNat < 2 ^ 63) (hk : 1 ≤ k.toNat) (hk' : k.toNat ≤ 54) :
    (shiftRounded m k).toNat = roundedOff m.toNat k.toNat := by
  have hpow : 2 ^ (k.toNat - 1) ≤ 2 ^ 53 := Nat.pow_le_pow_right (by norm_num) (by omega)
  have hpos : 0 < 2 ^ (k.toNat - 1) := by positivity
  have hless : (k - 1).toNat = k.toNat - 1 := UInt64.toNat_sub_of_le _ _ (by rw [UInt64.le_iff_toNat_le]; exact hk)
  have hhalf : ((1 : UInt64) <<< (k - 1)).toNat = 2 ^ (k.toNat - 1) := by
    rw [UInt64.toNat_shiftLeft, hless, Nat.mod_eq_of_lt (by omega : k.toNat - 1 < 64), Nat.shiftLeft_eq]
    show 1 * _ % _ = _
    omega
  have hrest : ((1 : UInt64) <<< (k - 1) - 1).toNat = 2 ^ (k.toNat - 1) - 1 := by
    rw [UInt64.toNat_sub_of_le _ _ (by rw [UInt64.le_iff_toNat_le, hhalf]; exact hpos), hhalf]
    rfl
  have hodd : ((m >>> k) &&& 1).toNat = m.toNat / 2 ^ k.toNat % 2 := by
    rw [UInt64.toNat_and, UInt64.toNat_shiftRight, Nat.mod_eq_of_lt (by omega : k.toNat < 64), Nat.shiftRight_eq_div_pow]
    exact Nat.and_two_pow_sub_one_eq_mod _ 1
  have hbit := Nat.mod_lt (m.toNat / 2 ^ k.toNat) two_pos
  unfold shiftRounded roundedOff
  dsimp only
  rw [UInt64.toNat_shiftRight, UInt64.toNat_add, UInt64.toNat_add, hrest, hodd, Nat.mod_eq_of_lt (by omega : k.toNat < 64),
    Nat.shiftRight_eq_div_pow, Nat.mod_eq_of_lt (by omega : m.toNat + (2 ^ (k.toNat - 1) - 1) < 2 ^ 64),
    Nat.mod_eq_of_lt (by omega)]

theorem roundedOff_le {m k c : ℕ} (h : m ≤ c * 2 ^ k) (hk : 1 ≤ k) : roundedOff m k ≤ c := by
  have hhalf : 2 ^ k = 2 * 2 ^ (k - 1) := by rw [← pow_succ', Nat.sub_add_cancel hk]
  have hpos : 0 < 2 ^ (k - 1) := by positivity
  have hbit := Nat.mod_lt (m / 2 ^ k) two_pos
  apply Nat.le_of_lt_succ
  unfold roundedOff
  rw [Nat.div_lt_iff_lt_mul (by positivity), Nat.succ_mul]
  omega

theorem le_roundedOff {m k c : ℕ} (h : c * 2 ^ k ≤ m) : c ≤ roundedOff m k := by
  unfold roundedOff
  rw [Nat.le_div_iff_mul_le (by positivity)]
  omega

/-- Numbers below those with a leading bit stay so, or become the least one that has it. -/
theorem roundedOff_fraction_le {n : ℕ} (h : n / 2 ^ 52 < 897) :
    roundedOff (n % 2 ^ 52 + 2 ^ 52) (min (926 - n / 2 ^ 52) 54) ≤ 2 ^ 23 := by
  apply roundedOff_le
  · calc n % 2 ^ 52 + 2 ^ 52 ≤ 2 ^ 23 * 2 ^ 30 := by omega
      _ ≤ 2 ^ 23 * 2 ^ min (926 - n / 2 ^ 52) 54 :=
          Nat.mul_le_mul_left _ (Nat.pow_le_pow_right (by norm_num) (by omega))
  · omega

theorem narrowWord_le (n : ℕ) : narrowWord n ≤ 0x7f800000 := by
  unfold narrowWord
  split
  · next h => exact (roundedOff_fraction_le h).trans (by norm_num)
  · exact min_le_right _ _

theorem narrowWord_le_one {n : ℕ} (h : n ≤ 0x3ff0000000000000) : narrowWord n ≤ 0x3f800000 := by
  unfold narrowWord
  split
  · next hlow => exact (roundedOff_fraction_le hlow).trans (by norm_num)
  · exact (min_le_left _ _).trans (roundedOff_le (by omega) (by norm_num))

theorem one_le_narrowWord {n : ℕ} (h : 0x3ff0000000000000 ≤ n) : 0x3f800000 ≤ narrowWord n := by
  unfold narrowWord
  rw [if_neg (by omega)]
  exact le_min (le_roundedOff (by omega)) (by norm_num)

/-- What is at most the half of the least number is rounded to zero, and nothing else is. -/
theorem narrowWord_eq_zero_iff {n : ℕ} : narrowWord n = 0 ↔ n ≤ 0x3690000000000000 := by
  unfold narrowWord
  split
  · next hlow =>
    unfold roundedOff
    rw [Nat.div_eq_zero_iff_lt (by positivity)]
    rcases lt_trichotomy (n / 2 ^ 52) 873 with h | h | h
    · -- less than a quarter
      rw [min_eq_right (by omega)]
      omega
    · -- from the quarter to the half, which is a tie
      rw [h]
      norm_num
      omega
    · -- the leading bit is not shifted out
      have hshift : 2 ^ min (926 - n / 2 ^ 52) 54 ≤ 2 ^ 52 := Nat.pow_le_pow_right (by norm_num) (by omega)
      omega
  · have hpos : 1 ≤ min (roundedOff (n - 0x3800000000000000) 29) 0x7f800000 :=
      le_min (le_roundedOff (by omega)) (by norm_num)
    omega

/-- The part of `narrow` that works on words. -/
def thin (size : UInt64) : UInt64 :=
  if size >>> 52 < 897 then
    shiftRounded ((size &&& 0xfffffffffffff) + 0x10000000000000) (min ((926 : UInt64) - size >>> 52) 54)
  else min (shiftRounded (size - 0x3800000000000000) 29) 0x7f800000

theorem toNat_thin {size : UInt64} (h : size.toNat < 2 ^ 63) : (thin size).toNat = narrowWord size.toNat := by
  have hexponent : (size >>> 52).toNat = size.toNat / 2 ^ 52 := by
    rw [UInt64.toNat_shiftRight, Nat.shiftRight_eq_div_pow]
    rfl
  have hfraction : (size &&& 0xfffffffffffff).toNat = size.toNat % 2 ^ 52 := by
    rw [UInt64.toNat_and]
    exact Nat.and_two_pow_sub_one_eq_mod _ 52
  have hless : size >>> 52 < 897 ↔ size.toNat / 2 ^ 52 < 897 := by
    rw [UInt64.lt_iff_toNat_lt, hexponent]
    rfl
  unfold thin narrowWord
  by_cases hlow : size.toNat / 2 ^ 52 < 897
  · rw [if_pos (hless.2 hlow), if_pos hlow]
    have hshift : (min ((926 : UInt64) - size >>> 52) 54).toNat = min (926 - size.toNat / 2 ^ 52) 54 := by
      rw [UInt64.toNat_min, UInt64.toNat_sub_of_le _ _ (by rw [UInt64.le_iff_toNat_le, hexponent]; show _ ≤ 926; omega),
        hexponent]
      rfl
    have hlead : (0x10000000000000 : UInt64).toNat = 2 ^ 52 := rfl
    have hmantissa : ((size &&& 0xfffffffffffff) + 0x10000000000000).toNat = size.toNat % 2 ^ 52 + 2 ^ 52 := by
      rw [UInt64.toNat_add, hfraction, hlead, Nat.mod_eq_of_lt (by omega)]
    rw [toNat_shiftRounded (by omega) (by omega) (by omega), hshift, hmantissa]
  · rw [if_neg (mt hless.1 hlow), if_neg hlow]
    have hbias : (0x3800000000000000 : UInt64).toNat = 0x3800000000000000 := rfl
    have hrebiased : (size - 0x3800000000000000).toNat = size.toNat - 0x3800000000000000 := by
      rw [UInt64.toNat_sub_of_le _ _ (by rw [UInt64.le_iff_toNat_le, hbias]; omega), hbias]
    have hcap : (0x7f800000 : UInt64).toNat = 0x7f800000 := rfl
    rw [UInt64.toNat_min, toNat_shiftRounded (by omega) (by decide) (by decide), hrebiased, hcap]
    rfl

/-- **The word of a number that is narrowed**: the sign stays in front. -/
theorem narrow_word_signed {x : Float} (hnan : ¬x.isNaN) :
    ∃ w : UInt32, narrow x = .ofBits w ∧
      w.toNat = x.toBits.toNat / 2 ^ 63 * 2 ^ 31 + narrowWord (x.toBits.toNat % 2 ^ 63) := by
  have hnarrow : narrow x = if x.isNaN then nan else
      .ofBits (((x.toBits >>> 63).toUInt32 <<< 31) ||| (thin (x.toBits &&& 0x7fffffffffffffff)).toUInt32) := rfl
  have hlt := x.toBits.toNat_lt
  have hle := narrowWord_le (x.toBits.toNat % 2 ^ 63)
  have hsize : (x.toBits &&& 0x7fffffffffffffff).toNat = x.toBits.toNat % 2 ^ 63 := by
    rw [UInt64.toNat_and]
    exact Nat.and_two_pow_sub_one_eq_mod _ 63
  have hthin : (thin (x.toBits &&& 0x7fffffffffffffff)).toUInt32.toNat = narrowWord (x.toBits.toNat % 2 ^ 63) := by
    rw [UInt64.toNat_toUInt32, toNat_thin (by omega), hsize, Nat.mod_eq_of_lt (by omega)]
  have hsign : ((x.toBits >>> 63).toUInt32 <<< 31).toNat = (x.toBits.toNat / 2 ^ 63) <<< 31 := by
    rw [UInt32.toNat_shiftLeft, UInt64.toNat_toUInt32, UInt64.toNat_shiftRight, Nat.shiftRight_eq_div_pow]
    show (x.toBits.toNat / 2 ^ 63 % 2 ^ 32) <<< 31 % 2 ^ 32 = _
    rw [Nat.shiftLeft_eq, Nat.shiftLeft_eq]
    omega
  refine ⟨_, hnarrow.trans (if_neg hnan), ?_⟩
  rw [UInt32.toNat_or, hsign, hthin, ← Nat.shiftLeft_add_eq_or_of_lt (by omega), Nat.shiftLeft_eq]

/-- The word of a number that is narrowed, when it has no sign. -/
theorem narrow_word {x : Float} (h : x.toBits.toNat ≤ infinityWord Format.binary64) :
    ∃ w : UInt32, narrow x = .ofBits w ∧ w.toNat = narrowWord x.toBits.toNat := by
  have htop : infinityWord Format.binary64 = 0x7ff0000000000000 := rfl
  have hnan : ¬x.isNaN := by
    have hdef : x.isNaN = (UnpackedFloat.unpack Format.binary64 x.toBits.toBitVec).isNaN := rfl
    rw [hdef]
    rcases @unpack_cases Format.binary64 x.toBits.toBitVec h with ⟨-, hu⟩ | ⟨-, hu⟩ | ⟨-, -, m, e, hm, hu, -⟩ <;>
      rw [hu] <;> exact Bool.false_ne_true
  obtain ⟨w, hw, hword⟩ := narrow_word_signed hnan
  rw [Nat.div_eq_of_lt (by omega), Nat.mod_eq_of_lt (by omega), zero_mul, zero_add] at hword
  exact ⟨w, hw, hword⟩

/-! ## Bounds that are kept -/

section Bounds

variable {x : Float}

theorem toNat_of_wide_pos (h : 0 < x) : 0 < x.toBits.toNat ∧ x.toBits.toNat ≤ infinityWord Format.binary64 := by
  rw [wide_lt_def] at h
  exact toNat_of_zero_lt h

theorem zero_eq_ofBits : (0 : Scalar) = .ofBits 0 := by decide +kernel

theorem one_eq_ofBits : (1 : Scalar) = .ofBits 0x3f800000 := by decide +kernel

/-- A positive scalar up to one is below one, or it is one. -/
theorem lt_or_eq_one {y : Scalar} (h0 : 0 < y) (h : y ≤ 1) : y < 1 ∨ y = 1 := by
  obtain ⟨w, rfl⟩ : ∃ w : UInt32, y = .ofBits w := ⟨y.toBits, (ofParts_parts y).symm⟩
  rw [lt_def, parts_ofBits] at h0
  have hle := (@toNat_of_zero_lt Format.binary32 _ h0).2
  rw [one_eq_ofBits] at h ⊢
  rw [ofBits_le_iff hle (by decide)] at h
  rw [ofBits_lt_iff hle (by decide)]
  rcases h.lt_or_eq with hlt | heq
  · exact .inl hlt
  · exact .inr (congrArg Float32.ofBits (UInt32.toNat_inj.1 heq))

/-- **A number that is not negative is none when it is narrowed.** -/
theorem zero_le_narrow (h : 0 ≤ x) : 0 ≤ narrow x := by
  rw [wide_le_def] at h
  rcases @toNat_of_zero_le Format.binary64 _ h with hle | hsign
  · obtain ⟨w, hw, hword⟩ := narrow_word hle
    rw [hw, zero_eq_ofBits, ofBits_le_iff (Nat.zero_le _) (by rw [hword]; exact narrowWord_le _)]
    exact Nat.zero_le _
  · -- a zero keeps its sign
    have hzero : x.toBits = (-0 : Float).toBits := by
      have hword : (-0 : Float).toBits.toNat = signWord Format.binary64 := by decide +kernel
      exact UInt64.toNat_inj.1 (Eq.trans hsign hword.symm)
    rw [wide_eq_of_toBits hzero]
    decide +kernel

/-- **A number up to one is none above it when it is narrowed.** -/
theorem narrow_le_one (h0 : 0 < x) (h : x ≤ 1) : narrow x ≤ 1 := by
  obtain ⟨-, hle⟩ := toNat_of_wide_pos h0
  rw [wide_le_iff hle (by decide)] at h
  obtain ⟨w, hw, hword⟩ := narrow_word hle
  rw [hw, one_eq_ofBits, ofBits_le_iff (by rw [hword]; exact narrowWord_le _) (by decide), hword]
  exact narrowWord_le_one h

/-- **A positive number stays positive when it is narrowed, if it is greater than half of the least scalar.** -/
theorem zero_lt_narrow_iff (h0 : 0 < x) : 0 < narrow x ↔ .ofBits 0x3690000000000000 < x := by
  obtain ⟨-, hle⟩ := toNat_of_wide_pos h0
  rw [wide_lt_iff (by decide +kernel) hle]
  obtain ⟨w, hw, hword⟩ := narrow_word hle
  rw [hw, zero_eq_ofBits, ofBits_lt_iff (Nat.zero_le _) (by rw [hword]; exact narrowWord_le _), hword]
  have hzero := @narrowWord_eq_zero_iff x.toBits.toNat
  have hhalf : (Float.ofBits 0x3690000000000000).toBits.toNat = 0x3690000000000000 := by decide +kernel
  rw [hhalf, show UInt32.toNat 0 = 0 from rfl]
  omega

/-- A number with a sign keeps it when it is narrowed. -/
theorem narrow_word_of_sign (h : signWord Format.binary64 ≤ x.toBits.toNat) (hnan : ¬x.isNaN) :
    ∃ w : UInt32, narrow x = .ofBits w ∧ signWord Format.binary32 ≤ w.toNat := by
  have hwide : signWord Format.binary64 = 2 ^ 63 := rfl
  have hthin : signWord Format.binary32 = 2 ^ 31 := rfl
  obtain ⟨w, hw, hword⟩ := narrow_word_signed hnan
  refine ⟨w, hw, ?_⟩
  omega

/-- What numbers are narrowed to: a word without a sign, no number, or a word with one. -/
theorem narrow_cases (x : Float) : x.toBits.toNat ≤ infinityWord Format.binary64 ∨ narrow x = nan ∨
    ∃ w : UInt32, narrow x = .ofBits w ∧ signWord Format.binary32 ≤ w.toNat := by
  by_cases hnan : x.isNaN
  · exact .inr (.inl (if_pos hnan))
  · rcases le_or_gt x.toBits.toNat (infinityWord Format.binary64) with hle | hlt
    · exact .inl hle
    · right
      right
      apply narrow_word_of_sign _ hnan
      by_contra hplain
      have hunpack := @unpack_of_infinityWord_lt Format.binary64 x.toBits.toBitVec hlt (not_le.1 hplain)
      have hdef : x.isNaN = (wideParts x).isNaN := rfl
      rw [hdef, wideParts, hunpack] at hnan
      exact hnan rfl

/-- What is narrowed to a number above zero is above zero. -/
theorem pos_of_narrow (h : 0 < narrow x) : 0 < x := by
  rcases narrow_cases x with hle | hnan | ⟨w, hw, hsign⟩
  · obtain ⟨w, hw, hword⟩ := narrow_word hle
    rw [hw, zero_eq_ofBits, ofBits_lt_iff (Nat.zero_le _) (by rw [hword]; exact narrowWord_le _), hword] at h
    have hzero := @narrowWord_eq_zero_iff x.toBits.toNat
    rw [wide_lt_iff (Nat.zero_le _) hle]
    have hbits : (0 : Float).toBits.toNat = 0 := rfl
    rw [show UInt32.toNat 0 = 0 from rfl] at h
    omega
  · rw [hnan] at h
    exact absurd h (by decide)
  · rw [hw, lt_def, parts_ofBits] at h
    have hle := (@toNat_of_zero_lt Format.binary32 _ h).2
    exact absurd (hsign.trans hle) (by decide)

/-- What is narrowed to a number that is not below zero is not below zero, unless that number is a zero with a sign. -/
theorem zero_le_of_narrow (h : 0 ≤ narrow x) (hne : narrow x ≠ -0) : 0 ≤ x := by
  rcases narrow_cases x with hle | hnan | ⟨w, hw, hsign⟩
  · rw [wide_le_iff (Nat.zero_le _) hle]
    exact Nat.zero_le _
  · rw [hnan] at h
    exact absurd h (by decide)
  · rw [hw, le_def, parts_ofBits] at h
    rcases @toNat_of_zero_le Format.binary32 _ h with hle | hzero
    · exact absurd (hsign.trans hle) (by decide)
    · refine absurd ?_ hne
      have hword : w = 0x80000000 := UInt32.toNat_inj.1 hzero
      rw [hw, hword]
      decide +kernel

/-- What is narrowed to a number below one is not above one. -/
theorem le_one_of_narrow (h0 : 0 < x) (h : narrow x < 1) : x ≤ 1 := by
  obtain ⟨-, hle⟩ := toNat_of_wide_pos h0
  rw [wide_le_iff hle (by decide)]
  by_contra hlt
  obtain ⟨w, hw, hword⟩ := narrow_word hle
  rw [hw, one_eq_ofBits, ofBits_lt_iff (by rw [hword]; exact narrowWord_le _) (by decide), hword] at h
  have hone := one_le_narrowWord (not_le.1 hlt).le
  exact absurd h (not_lt.2 hone)

end Bounds

end MotionScript.Scalar
