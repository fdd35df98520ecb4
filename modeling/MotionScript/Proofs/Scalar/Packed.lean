import MotionScript.Proofs.Scalar.Parts

/-!
# Packed numbers

In every format a number without a sign is packed to a word that grows with it, exponent first and fraction behind it.

* `unpack_cases`: the numbers without a sign.
* `compare_unpack`, `le_unpack`, `lt_unpack`: their order is that of their words.
* `unpack_of_sign`: the numbers with a sign.
* `toNat_of_zero_le`, `toNat_of_zero_lt`: the words of numbers that are not below zero, or above it.
-/

namespace MotionScript.Scalar

open Float.Model (UnpackedFloat Format)

open Float.Model.UnpackedFloat

variable {format : Format}

/-- The number of fractions that a format has for each exponent. -/
def fractions (format : Format) : ℕ := 2 ^ format.mantissaBitsWithoutImplicit

/-- The word of positive infinity, beyond which no word is that of a number without a sign. -/
def infinityWord (format : Format) : ℕ := (2 ^ format.exponentBits - 1) * fractions format

theorem fractions_pos : 0 < fractions format := by
  unfold fractions
  positivity

theorem infinityWord_pos : 0 < infinityWord format := by
  have hw := Nat.one_lt_two_pow format.he.ne'
  exact Nat.mul_pos (by omega) fractions_pos

theorem toNat_unpackMantissa (b : BitVec format.numBits) : (unpackMantissa b).toNat = b.toNat % fractions format := by
  have h := format.hm
  unfold unpackMantissa fractions
  rw [BitVec.toNat_cast, BitVec.extractLsb_toNat, Nat.shiftRight_zero]
  congr 2
  omega

theorem toNat_unpackExponent (b : BitVec format.numBits) :
    (unpackExponent b).toNat = b.toNat / fractions format % 2 ^ format.exponentBits := by
  have h := format.he
  unfold unpackExponent fractions
  rw [BitVec.toNat_cast, BitVec.extractLsb_toNat, Nat.shiftRight_eq_div_pow]
  congr 2
  omega

theorem toNat_unpackSign (b : BitVec format.numBits) :
    (unpackSign b).toNat = b.toNat / (2 ^ format.exponentBits * fractions format) % 2 := by
  unfold unpackSign fractions
  rw [BitVec.toNat_cast, BitVec.extractLsb_toNat, Nat.shiftRight_eq_div_pow, ← pow_add, Nat.sub_self,
    Nat.add_comm format.exponentBits]

theorem unpackMantissa_eq_zero_iff (b : BitVec format.numBits) :
    unpackMantissa b = BitVec.ofNat format.mantissaBitsWithoutImplicit 0 ↔ b.toNat % fractions format = 0 := by
  rw [← BitVec.toNat_inj, toNat_unpackMantissa, BitVec.toNat_ofNat, Nat.zero_mod]

theorem unpackExponent_eq_zero_iff (b : BitVec format.numBits) :
    unpackExponent b = BitVec.ofNat format.exponentBits 0 ↔
      b.toNat / fractions format % 2 ^ format.exponentBits = 0 := by
  rw [← BitVec.toNat_inj, toNat_unpackExponent, BitVec.toNat_ofNat, Nat.zero_mod]

/-- The greatest exponent is that of infinity, and of what is no number. -/
theorem unpackExponent_eq_top_iff (b : BitVec format.numBits) :
    unpackExponent b = -BitVec.ofNat format.exponentBits 1 ↔
      b.toNat / fractions format % 2 ^ format.exponentBits = 2 ^ format.exponentBits - 1 := by
  rw [BitVec.neg_one_eq_allOnes, ← BitVec.toNat_inj, BitVec.toNat_allOnes, toNat_unpackExponent]

theorem div_fractions_le {n : ℕ} (h : n ≤ infinityWord format) : n / fractions format ≤ 2 ^ format.exponentBits - 1 :=
  calc n / fractions format ≤ infinityWord format / fractions format := Nat.div_le_div_right h
    _ = 2 ^ format.exponentBits - 1 := Nat.mul_div_cancel _ fractions_pos

/-- A word up to that of infinity has no sign. -/
theorem sign_of_le {b : BitVec format.numBits} (h : b.toNat ≤ infinityWord format) :
    Sign.ofBitVec (unpackSign b) = .positive := by
  have hw : 0 < 2 ^ format.exponentBits := by positivity
  have hlt : b.toNat < 2 ^ format.exponentBits * fractions format :=
    h.trans_lt (Nat.mul_lt_mul_of_pos_right (by omega) fractions_pos)
  have hzero : unpackSign b = 0#1 := by
    apply BitVec.eq_of_toNat_eq
    rw [toNat_unpackSign, Nat.div_eq_of_lt hlt]
    rfl
  rw [hzero]
  rfl

/-- The numbers without a sign: infinity, zero, and those with an exponent and a mantissa, which both come from the
word. The least exponent is that of the words with no exponent as well; they have no leading bit. -/
theorem unpack_cases {b : BitVec format.numBits} (h : b.toNat ≤ infinityWord format) :
    b.toNat = infinityWord format ∧ unpack format b = .infinity .positive ∨
    b.toNat = 0 ∧ unpack format b = .zero .positive ∨
    0 < b.toNat ∧ b.toNat < infinityWord format ∧ ∃ m e hm, unpack format b = .finite .positive m e hm ∧
      m = (if b.toNat / fractions format = 0 then 0 else fractions format) + b.toNat % fractions format ∧
      e = max (b.toNat / fractions format : ℕ) 1 - ((format.exponentBias : ℤ) + format.mantissaBitsWithoutImplicit) := by
  have hp := @fractions_pos format
  have hdecomp := Nat.div_add_mod b.toNat (fractions format)
  have hmod := Nat.mod_lt b.toNat hp
  have hexponent := div_fractions_le h
  -- there is no sign to take off the exponent
  have hplain : b.toNat / fractions format % 2 ^ format.exponentBits = b.toNat / fractions format := by
    have hw : 0 < 2 ^ format.exponentBits := by positivity
    exact Nat.mod_eq_of_lt (by omega)
  have hE := toNat_unpackExponent b
  have hF := toNat_unpackMantissa b
  have htop := unpackExponent_eq_top_iff b
  have hbottom := unpackExponent_eq_zero_iff b
  have hfraction := unpackMantissa_eq_zero_iff b
  rw [hplain] at hE htop hbottom
  generalize hq : b.toNat / fractions format = q at *
  generalize hr : b.toNat % fractions format = r at *
  unfold UnpackedFloat.unpack
  dsimp only
  rw [sign_of_le h]
  by_cases hinfinite : q = 2 ^ format.exponentBits - 1
  · have hle : fractions format * q + r ≤ q * fractions format := by
      rw [hdecomp, hinfinite]
      exact h
    rw [Nat.mul_comm q] at hle
    have hr0 : r = 0 := by omega
    left
    rw [if_pos (htop.2 hinfinite), if_pos (hfraction.2 hr0)]
    refine ⟨?_, rfl⟩
    rw [← hdecomp, hr0, hinfinite, Nat.add_zero, Nat.mul_comm]
    rfl
  · right
    rw [if_neg (mt htop.1 hinfinite)]
    have hlt : b.toNat < infinityWord format := by
      calc b.toNat = fractions format * q + r := hdecomp.symm
        _ < fractions format * (q + 1) := by
            rw [Nat.mul_succ]
            omega
        _ ≤ fractions format * (2 ^ format.exponentBits - 1) := Nat.mul_le_mul_left _ (by omega)
        _ = infinityWord format := Nat.mul_comm _ _
    by_cases hq0 : q = 0
    · rw [if_pos (hbottom.2 hq0)]
      by_cases hr0 : r = 0
      · left
        rw [dif_pos (hfraction.2 hr0)]
        refine ⟨?_, rfl⟩
        rw [← hdecomp, hq0, hr0, Nat.mul_zero]
      · right
        rw [dif_neg (mt hfraction.1 hr0)]
        refine ⟨by omega, hlt, _, _, (by rw [hF]; omega), rfl, ?_, ?_⟩
        · rw [hF, if_pos hq0, Nat.zero_add]
        · rw [hE, hq0]
          push_cast
          omega
    · right
      rw [if_neg (mt hbottom.1 hq0)]
      have hpos : 0 < fractions format * q := Nat.mul_pos hp (by omega)
      refine ⟨by omega, hlt, _, _, (by rw [toNat_withImplicit]; positivity), rfl, ?_, ?_⟩
      · rw [toNat_withImplicit, hF, if_neg hq0]
        rfl
      · rw [hE, max_eq_left (by exact_mod_cast (by omega : 1 ≤ q))]

/-- A greater word has a greater exponent, or the same one and a greater mantissa. -/
theorem fields_lt {a b : ℕ} (h : a < b) :
    max (a / fractions format) 1 < max (b / fractions format) 1 ∨
    max (a / fractions format) 1 = max (b / fractions format) 1 ∧
      (if a / fractions format = 0 then 0 else fractions format) + a % fractions format <
        (if b / fractions format = 0 then 0 else fractions format) + b % fractions format := by
  have hp := @fractions_pos format
  have ha := Nat.div_add_mod a (fractions format)
  have hb := Nat.div_add_mod b (fractions format)
  have hmod := Nat.mod_lt a hp
  have hle : a / fractions format ≤ b / fractions format := Nat.div_le_div_right h.le
  generalize a / fractions format = q at *
  generalize b / fractions format = q' at *
  generalize a % fractions format = r at *
  generalize b % fractions format = r' at *
  rcases hle.lt_or_eq with hlt | heq
  · by_cases hone : q' ≤ 1
    · -- the leading bit makes the difference
      right
      rw [if_pos (by omega), if_neg (by omega)]
      omega
    · left
      omega
  · right
    rw [heq] at ha ⊢
    exact ⟨rfl, by omega⟩

/-- **The order of numbers without a sign is that of their words.** -/
theorem compare_unpack {a b : BitVec format.numBits} (ha : a.toNat ≤ infinityWord format)
    (hb : b.toNat ≤ infinityWord format) :
    (unpack format a).compare (unpack format b) = some (compare a.toNat b.toNat) := by
  have htop := @infinityWord_pos format
  rcases unpack_cases ha with ⟨hna, hua⟩ | ⟨hna, hua⟩ | ⟨hna, hna', m₁, e₁, hm₁, hua, hmant₁, hexp₁⟩
  · rw [hua]
    rcases unpack_cases hb with ⟨hnb, hub⟩ | ⟨hnb, hub⟩ | ⟨-, hnb, m₂, e₂, hm₂, hub, -⟩
    · rw [hub, compare_eq_iff_eq.2 (hna.trans hnb.symm)]
      rfl
    · rw [hub, compare_gt_iff_gt.2 (by omega : b.toNat < a.toNat)]
      rfl
    · rw [hub, compare_gt_iff_gt.2 (by omega : b.toNat < a.toNat)]
      rfl
  · rw [hua]
    rcases unpack_cases hb with ⟨hnb, hub⟩ | ⟨hnb, hub⟩ | ⟨hnb, -, m₂, e₂, hm₂, hub, -⟩
    · rw [hub, compare_lt_iff_lt.2 (by omega : a.toNat < b.toNat)]
      rfl
    · rw [hub, compare_eq_iff_eq.2 (hna.trans hnb.symm)]
      rfl
    · rw [hub, compare_lt_iff_lt.2 (by omega : a.toNat < b.toNat)]
      rfl
  · rw [hua]
    rcases unpack_cases hb with ⟨hnb, hub⟩ | ⟨hnb, hub⟩ | ⟨hnb, hnb', m₂, e₂, hm₂, hub, hmant₂, hexp₂⟩
    · rw [hub, compare_lt_iff_lt.2 (by omega : a.toNat < b.toNat)]
      rfl
    · rw [hub, compare_gt_iff_gt.2 (by omega : b.toNat < a.toNat)]
      rfl
    · -- both are finite: the exponents decide, and the mantissas if these are the same
      rw [hub]
      show some ((compare e₁ e₂).then (compare m₁ m₂)) = _
      rcases lt_trichotomy a.toNat b.toNat with h | h | h
      · rw [compare_lt_iff_lt.2 h]
        rcases @fields_lt format _ _ h with hlt | ⟨heq, hlt⟩
        · rw [compare_lt_iff_lt.2 (by omega : e₁ < e₂)]
          rfl
        · rw [compare_eq_iff_eq.2 (by omega : e₁ = e₂), compare_lt_iff_lt.2 (by omega : m₁ < m₂)]
          rfl
      · rw [compare_eq_iff_eq.2 h]
        rw [h] at hmant₁ hexp₁
        rw [compare_eq_iff_eq.2 (hexp₁.trans hexp₂.symm), compare_eq_iff_eq.2 (hmant₁.trans hmant₂.symm)]
        rfl
      · rw [compare_gt_iff_gt.2 h]
        rcases @fields_lt format _ _ h with hlt | ⟨heq, hlt⟩
        · rw [compare_gt_iff_gt.2 (by omega : e₂ < e₁)]
          rfl
        · rw [compare_eq_iff_eq.2 (by omega : e₁ = e₂), compare_gt_iff_gt.2 (by omega : m₂ < m₁)]
          rfl

theorem le_unpack {a b : BitVec format.numBits} (ha : a.toNat ≤ infinityWord format)
    (hb : b.toNat ≤ infinityWord format) : (unpack format a).le (unpack format b) ↔ a.toNat ≤ b.toNat := by
  rw [UnpackedFloat.le, compare_unpack ha hb]
  rcases lt_trichotomy a.toNat b.toNat with h | h | h
  · rw [compare_lt_iff_lt.2 h]
    exact iff_of_true rfl h.le
  · rw [compare_eq_iff_eq.2 h]
    exact iff_of_true rfl h.le
  · rw [compare_gt_iff_gt.2 h]
    exact iff_of_false Bool.false_ne_true h.not_ge

theorem lt_unpack {a b : BitVec format.numBits} (ha : a.toNat ≤ infinityWord format)
    (hb : b.toNat ≤ infinityWord format) : (unpack format a).lt (unpack format b) ↔ a.toNat < b.toNat := by
  rw [UnpackedFloat.lt, compare_unpack ha hb]
  rcases lt_trichotomy a.toNat b.toNat with h | h | h
  · rw [compare_lt_iff_lt.2 h]
    exact iff_of_true rfl h
  · rw [compare_eq_iff_eq.2 h]
    exact iff_of_false Bool.false_ne_true h.not_lt
  · rw [compare_gt_iff_gt.2 h]
    exact iff_of_false Bool.false_ne_true h.not_gt

/-- The word of a zero with a sign. -/
def signWord (format : Format) : ℕ := 2 ^ format.exponentBits * fractions format

/-- A word without a sign beyond that of infinity is no number. -/
theorem unpack_of_infinityWord_lt {b : BitVec format.numBits} (h : infinityWord format < b.toNat)
    (hsign : b.toNat < signWord format) : unpack format b = .notANumber := by
  have hp := @fractions_pos format
  have hdecomp := Nat.div_add_mod b.toNat (fractions format)
  have hlow : 2 ^ format.exponentBits - 1 ≤ b.toNat / fractions format := by
    rw [Nat.le_div_iff_mul_le hp]
    exact h.le
  have hhigh : b.toNat / fractions format < 2 ^ format.exponentBits := by
    rw [Nat.div_lt_iff_lt_mul hp]
    exact hsign
  have heq : b.toNat / fractions format = 2 ^ format.exponentBits - 1 := by omega
  have htop : b.toNat / fractions format % 2 ^ format.exponentBits = 2 ^ format.exponentBits - 1 := by
    rwa [Nat.mod_eq_of_lt hhigh]
  have hfraction : b.toNat % fractions format ≠ 0 := by
    intro hzero
    rw [hzero, heq, Nat.add_zero, Nat.mul_comm] at hdecomp
    exact h.ne hdecomp
  unfold UnpackedFloat.unpack
  dsimp only
  rw [if_pos ((unpackExponent_eq_top_iff b).2 htop), if_neg (mt (unpackMantissa_eq_zero_iff b).1 hfraction)]

/-- The numbers with a sign are below zero, but for zero. -/
theorem unpack_of_sign {b : BitVec format.numBits} (h : signWord format ≤ b.toNat) :
    unpack format b = .notANumber ∨ unpack format b = .infinity .negative ∨
      b.toNat = signWord format ∧ unpack format b = .zero .negative ∨
        ∃ m e hm, unpack format b = .finite .negative m e hm := by
  have hp := @fractions_pos format
  have hlt : b.toNat < 2 * signWord format := by
    have hbits : b.toNat < 2 ^ (1 + format.exponentBits + format.mantissaBitsWithoutImplicit) := b.isLt
    rwa [pow_add, pow_add, pow_one, Nat.mul_assoc] at hbits
  -- the bit of the sign is set, and no bit is beyond it
  have hS : Sign.ofBitVec (unpackSign b) = .negative := by
    have hone : (unpackSign b).toNat = 1 := by
      rw [toNat_unpackSign, show b.toNat / (2 ^ format.exponentBits * fractions format) = 1 from
        Nat.div_eq_of_lt_le (by rwa [Nat.one_mul]) hlt]
    apply if_neg
    intro hzero
    rw [hzero] at hone
    cases hone
  unfold UnpackedFloat.unpack
  dsimp only
  rw [hS]
  split
  · split
    · exact .inr (.inl rfl)
    · exact .inl rfl
  · split
    · next hexponent =>
      split
      · next hfraction =>
        refine .inr (.inr (.inl ⟨?_, rfl⟩))
        have hE := (unpackExponent_eq_zero_iff b).1 hexponent
        have hF := (unpackMantissa_eq_zero_iff b).1 hfraction
        have hdecomp := Nat.div_add_mod b.toNat (fractions format)
        have hlow : 2 ^ format.exponentBits ≤ b.toNat / fractions format := (Nat.le_div_iff_mul_le hp).2 h
        have hhigh : b.toNat / fractions format < 2 * 2 ^ format.exponentBits := by
          rw [Nat.div_lt_iff_lt_mul hp, Nat.mul_assoc]
          exact hlt
        have hquotient : b.toNat / fractions format = 2 ^ format.exponentBits := by
          rw [Nat.mod_eq_sub_mod hlow, Nat.mod_eq_of_lt (by omega)] at hE
          omega
        rw [hF, hquotient, Nat.add_zero, Nat.mul_comm] at hdecomp
        exact hdecomp.symm
      · next hfraction =>
        have hpos : 0 < (unpackMantissa b).toNat :=
          Nat.pos_of_ne_zero fun hzero => hfraction (BitVec.eq_of_toNat_eq hzero)
        exact .inr (.inr (.inr ⟨_, _, hpos, rfl⟩))
    · have hpos : 0 < (1#1 ++ unpackMantissa b).toNat := by
        rw [toNat_withImplicit]
        positivity
      exact .inr (.inr (.inr ⟨_, _, hpos, rfl⟩))

/-- What is not below zero has no sign, or is a zero with one. -/
theorem toNat_of_zero_le {b : BitVec format.numBits} (h : (UnpackedFloat.zero .positive).le (unpack format b)) :
    b.toNat ≤ infinityWord format ∨ b.toNat = signWord format := by
  rcases lt_or_ge b.toNat (signWord format) with hplain | hsign
  · left
    by_contra hlt
    rw [unpack_of_infinityWord_lt (not_le.1 hlt) hplain] at h
    cases h
  · rcases unpack_of_sign hsign with hu | hu | ⟨hword, -⟩ | ⟨m, e, hm, hu⟩
    · rw [hu] at h
      cases h
    · rw [hu] at h
      cases h
    · exact .inr hword
    · rw [hu] at h
      cases h

/-- What is above zero has no sign. -/
theorem toNat_of_zero_lt {b : BitVec format.numBits} (h : (UnpackedFloat.zero .positive).lt (unpack format b)) :
    0 < b.toNat ∧ b.toNat ≤ infinityWord format := by
  rcases lt_or_ge b.toNat (signWord format) with hplain | hsign
  · have hle : b.toNat ≤ infinityWord format := by
      by_contra hlt
      rw [unpack_of_infinityWord_lt (not_le.1 hlt) hplain] at h
      cases h
    refine ⟨Nat.pos_of_ne_zero fun hzero => ?_, hle⟩
    rcases unpack_cases hle with ⟨hinf, -⟩ | ⟨-, hu⟩ | ⟨hpos, -⟩
    · exact infinityWord_pos.ne' (hinf.symm.trans hzero)
    · rw [hu] at h
      cases h
    · exact hpos.ne' hzero
  · rcases unpack_of_sign hsign with hu | hu | ⟨-, hu⟩ | ⟨m, e, hm, hu⟩
    all_goals
      rw [hu] at h
      cases h

end MotionScript.Scalar
