import MotionScript.Scalar.Basic
import Mathlib

/-!
# The parts of a scalar

A scalar is held as a sign, a mantissa and an exponent. Here is what those parts can be, that they
make up the scalar, and which number they stand for.

* `fits_parts`: the parts of a scalar are in the range of binary32, in lowest terms.
* `parts_ofParts`, `ofParts_parts`: scalars and parts in range are the same thing.
* `ofParts_overflow`: parts that are too great make an infinity.
-/

namespace MotionScript.Scalar

open Float.Model (UnpackedFloat Format)

open Float.Model.UnpackedFloat

/-- The parts of a scalar. -/
def parts (x : Scalar) : UnpackedFloat := x.toModel.unpack

/-- The scalar with given parts; those beyond the greatest finite scalar make an infinity. -/
def ofParts (u : UnpackedFloat) : Scalar := .ofModel (.pack u)

/-- The parts are those of a correctly rounded number, which may still be too great. -/
def Rounded : UnpackedFloat → Prop
  | .finite _ m e _ => m < 2 ^ 24 ∧ -149 ≤ e ∧ (2 ^ 23 ≤ m ∨ e = -149)
  | _ => True

/-- The parts are not too great. -/
def InRange : UnpackedFloat → Prop
  | .finite _ _ e _ => e ≤ 104
  | _ => True

/-- The number that parts stand for; infinities and what is not a number count as zero. -/
def valueOf : UnpackedFloat → ℚ
  | .finite s m e _ => (s.apply m : ℤ) * 2 ^ e
  | _ => 0

/-- The number that a finite scalar stands for. -/
def toRat (x : Scalar) : ℚ := valueOf x.parts

theorem isFinite_eq (x : Scalar) : x.isFinite = x.parts.isFinite := rfl

theorem isNaN_eq (x : Scalar) : x.isNaN = x.parts.isNaN := rfl

theorem le_def (x y : Scalar) : x ≤ y ↔ x.parts.le y.parts = true := by
  show x.le y = true ↔ _
  simp only [Float32.le, decide_eq_true_eq]
  rfl

theorem lt_def (x y : Scalar) : x < y ↔ x.parts.lt y.parts = true := by
  show x.lt y = true ↔ _
  simp only [Float32.lt, decide_eq_true_eq]
  rfl

theorem zpow_split {a b : ℤ} (h : a ≤ b) : (2 : ℚ) ^ b = 2 ^ (b - a).toNat * 2 ^ a := by
  rw [← zpow_natCast, ← zpow_add₀ two_ne_zero, Int.toNat_of_nonneg (by omega)]
  congr 1
  omega

/-! ## Words -/

theorem toNat_withImplicit {k : ℕ} (m : BitVec k) : (1#1 ++ m).toNat = 2 ^ k + m.toNat := by
  rw [BitVec.toNat_append, ← Nat.shiftLeft_add_eq_or_of_lt m.isLt, Nat.shiftLeft_eq, show (1#1).toNat = 1 from rfl,
    one_mul]

/-- The parts of any word are in lowest terms and in range. -/
theorem fits_unpack (b : BitVec 32) :
    Rounded (UnpackedFloat.unpack Format.binary32 b) ∧ InRange (UnpackedFloat.unpack Format.binary32 b) := by
  have hm := (@unpackMantissa Format.binary32 b).isLt
  have he := (@unpackExponent Format.binary32 b).isLt
  have hbias : (Format.binary32.exponentBias : ℤ) = 127 := rfl
  unfold UnpackedFloat.unpack
  dsimp only at hm he ⊢
  -- the greatest exponent is no number's, the least one that of zeros and of what has no leading bit
  split
  · split <;> exact ⟨trivial, trivial⟩
  rename_i hne
  have htop : (@unpackExponent Format.binary32 b).toNat ≠ 255 :=
    fun h => hne (BitVec.eq_of_toNat_eq h)
  split
  · rename_i h0
    split
    · exact ⟨trivial, trivial⟩
    · simp only [Rounded, InRange, hbias, h0, BitVec.toNat_zero]
      norm_num at *
      omega
  · rename_i h0
    have hpos : (@unpackExponent Format.binary32 b).toNat ≠ 0 :=
      fun h => h0 (BitVec.eq_of_toNat_eq h)
    simp only [Rounded, InRange, hbias, toNat_withImplicit]
    norm_num at *
    omega

/-- The parts of a scalar are in lowest terms and in range. -/
theorem fits_parts (x : Scalar) : Rounded x.parts ∧ InRange x.parts := fits_unpack _

theorem parts_pack (u : UnpackedFloat) :
    (ofParts u).parts = UnpackedFloat.unpack Format.binary32 (UnpackedFloat.pack Format.binary32 u) := rfl

@[simp]
theorem unpackSign_packComponents (s : Sign) (e : BitVec 8) (m : BitVec 23) :
    unpackSign (packComponents Format.binary32 s e m) = s.toBitVec := by
  unfold unpackSign packComponents BitVec.extractLsb
  rw [BitVec.extractLsb'_append_eq_of_le (by decide), BitVec.extractLsb'_append_eq_of_le (by decide)]
  exact BitVec.extractLsb'_eq_self

@[simp]
theorem ofBitVec_toBitVec (s : Sign) : Sign.ofBitVec s.toBitVec = s := by cases s <;> rfl

theorem unpack_packComponents_normal (s : Sign) {e m : ℕ} (h0 : e ≠ 0) (h1 : e < 255) (hl : 2 ^ 23 ≤ m)
    (hu : m < 2 ^ 24) (hm : 0 < m) :
    UnpackedFloat.unpack Format.binary32 (packComponents Format.binary32 s (.ofNat 8 e) (.ofNat 23 m)) =
      .finite s m (e - 150) hm := by
  have he : (BitVec.ofNat 8 e).toNat = e := Nat.mod_eq_of_lt (by omega)
  have hf : (BitVec.ofNat 23 m).toNat = m - 2 ^ 23 := by
    rw [BitVec.toNat_ofNat]; omega
  have hne : BitVec.ofNat 8 e ≠ -1#8 := fun h => by rw [h] at he; simp at he; omega
  have hnz : BitVec.ofNat 8 e ≠ 0#8 := fun h => by rw [h] at he; simp at he; omega
  unfold UnpackedFloat.unpack
  simp only [unpackMantissa_packComponents, unpackExponent_packComponents, unpackSign_packComponents,
    ofBitVec_toBitVec]
  rw [if_neg hne, if_neg hnz]
  congr 1
  · rw [toNat_withImplicit, hf]; omega
  · rw [he, show (Format.binary32.exponentBias : ℤ) = 127 from rfl]; omega

theorem unpack_packComponents_subnormal (s : Sign) {m : ℕ} (hu : m < 2 ^ 23) (hm : 0 < m) :
    UnpackedFloat.unpack Format.binary32 (packComponents Format.binary32 s 0#8 (.ofNat 23 m)) =
      .finite s m (-149) hm := by
  have hf : (BitVec.ofNat 23 m).toNat = m := Nat.mod_eq_of_lt hu
  have hnz : BitVec.ofNat 23 m ≠ 0#23 := fun h => by rw [h] at hf; simp at hf; omega
  unfold UnpackedFloat.unpack
  simp only [unpackMantissa_packComponents, unpackExponent_packComponents, unpackSign_packComponents,
    ofBitVec_toBitVec]
  rw [if_neg (by decide), if_pos True.intro, dif_neg hnz]
  congr 1

theorem pack_normal (s : Sign) {e m : ℕ} (h1 : e < 255) (hl : 2 ^ 23 ≤ m)
    (hu : m < 2 ^ 24) (hm : 0 < m) {e' : ℤ} (he : e' = e - 150) :
    UnpackedFloat.pack Format.binary32 (.finite s m e' hm) =
      packComponents Format.binary32 s (.ofNat 8 e) (.ofNat 23 m) := by
  have hlog : m.log2 < 24 := (Nat.log2_lt hm.ne').2 hu
  have hlog' : 23 ≤ m.log2 := (Nat.le_log2 hm.ne').2 hl
  have hb : (e' + 127 + (23 : ℕ)).toNat = e := by omega
  unfold UnpackedFloat.pack
  dsimp only
  rw [show (Format.binary32.exponentBias : ℤ) = 127 from rfl,
    show Format.binary32.mantissaBits = 24 from rfl, hb, if_neg (by omega), if_pos (by omega)]

theorem pack_subnormal (s : Sign) {m : ℕ} (hu : m < 2 ^ 23) (hm : 0 < m) {e' : ℤ} (he : e' = -149) :
    UnpackedFloat.pack Format.binary32 (.finite s m e' hm) =
      packComponents Format.binary32 s 0#8 (.ofNat 23 m) := by
  have hlog : m.log2 < 23 := (Nat.log2_lt hm.ne').2 hu
  have hb : (e' + 127 + (23 : ℕ)).toNat = 1 := by omega
  unfold UnpackedFloat.pack
  dsimp only
  rw [show (Format.binary32.exponentBias : ℤ) = 127 from rfl,
    show Format.binary32.mantissaBits = 24 from rfl, hb, if_neg (by omega), if_neg (by omega)]

/-- Parts in range are those of the scalar that they make up. -/
theorem parts_ofParts {u : UnpackedFloat} (hr : Rounded u) (hi : InRange u) : (ofParts u).parts = u := by
  rw [parts_pack]
  rcases u with s | _ | s | ⟨s, m, e, hm⟩
  · cases s <;> rfl
  · rfl
  · cases s <;> rfl
  obtain ⟨hlt, hge, hnorm⟩ := hr
  simp only [InRange] at hi
  -- a leading bit is left out of the word, and without one the exponent is the least
  by_cases hn : 2 ^ 23 ≤ m
  · rw [pack_normal s (e := (e + 150).toNat) (by omega) hn hlt hm (by omega),
      unpack_packComponents_normal s (by omega) (by omega) hn hlt hm]
    congr 1
    omega
  · obtain rfl := hnorm.resolve_left hn
    rw [pack_subnormal s (by omega) hm rfl, unpack_packComponents_subnormal s (by omega) hm]

/-- The parts of a word are those of the scalar that it is read as. -/
theorem parts_ofBits (w : UInt32) : parts (.ofBits w) = UnpackedFloat.unpack Format.binary32 w.toBitVec :=
  parts_ofParts (fits_unpack _).1 (fits_unpack _).2


/-- Parts beyond the greatest finite scalar make an infinity. -/
theorem ofParts_overflow (s : Sign) {m : ℕ} {e : ℤ} (hm : 0 < m) (he : 104 < e) :
    (ofParts (.finite s m e hm)).parts = .infinity s := by
  have h : UnpackedFloat.pack Format.binary32 (.finite s m e hm) = packedInfinity Format.binary32 s := by
    unfold UnpackedFloat.pack
    dsimp only
    rw [show (Format.binary32.exponentBias : ℤ) = 127 from rfl,
      if_pos (show 2 ^ 8 ≤ (e + 127 + (23 : ℕ)).toNat + 1 by omega)]
  rw [parts_pack, h]
  cases s <;> rfl

/-- A word is made up of its three fields. -/
theorem packComponents_fields (b : BitVec 32) :
    packComponents Format.binary32 (.ofBitVec (@unpackSign Format.binary32 b))
      (@unpackExponent Format.binary32 b) (@unpackMantissa Format.binary32 b) = b := by
  have hs : (Sign.ofBitVec (@unpackSign Format.binary32 b)).toBitVec = @unpackSign Format.binary32 b := by
    generalize @unpackSign Format.binary32 b = v
    revert v
    decide
  unfold packComponents
  rw [hs]
  show (b.extractLsb' (23 + 8) 1 ++ b.extractLsb' 23 8) ++ b.extractLsb' 0 23 = b
  rw [BitVec.extractLsb'_append_extractLsb'_eq_extractLsb' rfl]
  show b.extractLsb' (0 + 23) (1 + 8) ++ b.extractLsb' 0 23 = b
  rw [BitVec.extractLsb'_append_extractLsb'_eq_extractLsb' rfl]
  exact BitVec.extractLsb'_eq_self

/-- A scalar is made up of its parts. -/
@[simp]
theorem ofParts_parts (x : Scalar) : ofParts x.parts = x := by
  obtain ⟨⟨b, hv⟩⟩ := x
  have key : UnpackedFloat.pack Format.binary32 (UnpackedFloat.unpack Format.binary32 b.toBitVec) =
      b.toBitVec := by
    have hb := packComponents_fields b.toBitVec
    have hm : (@unpackMantissa Format.binary32 b.toBitVec).toNat < 2 ^ 23 := BitVec.isLt _
    have he : (@unpackExponent Format.binary32 b.toBitVec).toNat < 2 ^ 8 := BitVec.isLt _
    unfold UnpackedFloat.unpack
    dsimp only
    split
    · rename_i h1
      split
      · rename_i h2
        rw [h1, h2] at hb
        exact hb
      · rename_i h2
        exact (hv.eq_packedNaN h1 h2).symm
    rename_i h1
    have htop : (@unpackExponent Format.binary32 b.toBitVec).toNat ≠ 255 :=
      fun h => h1 (BitVec.eq_of_toNat_eq h)
    split
    · rename_i h2
      split
      · rename_i h3
        rw [h2, h3] at hb
        exact hb
      · -- no leading bit
        rename_i h3
        have hpos : (@unpackMantissa Format.binary32 b.toBitVec).toNat ≠ 0 :=
          fun h => h3 (BitVec.eq_of_toNat_eq h)
        rw [pack_subnormal _ hm (by omega) (by rw [h2]; rfl), BitVec.ofNat_toNat, BitVec.setWidth_eq,
          ← h2, hb]
    · -- the leading bit is added and taken off again
      rename_i h2
      have hpos : (@unpackExponent Format.binary32 b.toBitVec).toNat ≠ 0 :=
        fun h => h2 (BitVec.eq_of_toNat_eq h)
      have hmant : BitVec.ofNat 23 (2 ^ 23 + (@unpackMantissa Format.binary32 b.toBitVec).toNat) =
          @unpackMantissa Format.binary32 b.toBitVec :=
        BitVec.eq_of_toNat_eq (by rw [BitVec.toNat_ofNat]; omega)
      simp only [toNat_withImplicit]
      rw [pack_normal _ (e := (@unpackExponent Format.binary32 b.toBitVec).toNat) (by omega) (by omega)
        (by omega) (by omega) (by rw [show (Format.binary32.exponentBias : ℤ) = 127 from rfl]; omega),
        hmant, BitVec.ofNat_toNat, BitVec.setWidth_eq, hb]
  simp only [ofParts, parts, Float32.Model.unpack, Float32.Model.pack, key]

end MotionScript.Scalar
