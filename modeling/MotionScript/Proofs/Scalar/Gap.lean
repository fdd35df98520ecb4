import MotionScript.Proofs.Scalar.Grid
import MotionScript.Proofs.Scalar.Sign

/-!
# Gaps between scalars

How far it is from one scalar to another is rounded, but never past a third scalar.

* `le_trans`: the order of scalars, the infinities included.
* `isFinite_of_add`, `toRat_add_of_isFinite`: a sum that is finite.
* `add_of_toRat_le`: what an exact sum is not below, the rounded sum is not below either.
* `lt_of_not_le_add`: who is behind by more than a tolerance is behind.
* `min_gap`: a step that does not lead up to a limit is not cut off by the gap to the limit.
* `zero_add_max_min`: a time below a limit is not cut off, unless it is negative.
* `ticks_slice`: how much of a step fits in the gap to a limit, if all times are whole numbers of ticks.
* `zero_mul_cases`, `mul_beq_zero`: a multiple of a zero is a zero, unless it is not a number.
-/

namespace MotionScript.Scalar

open Float.Model (UnpackedFloat Format)

variable {x y z : Scalar}

/-! ## Kinds of scalars -/

theorem isFinite_or_infinity (h : ¬x.isNaN) :
    x.isFinite ∨ x.parts = .infinity .positive ∨ x.parts = .infinity .negative := by
  rw [isNaN_eq] at h
  rw [isFinite_eq]
  generalize x.parts = u at *
  rcases u with (_ | _) | _ | s | ⟨s, m, e, hm⟩
  · exact .inr (.inr rfl)
  · exact .inr (.inl rfl)
  · exact absurd rfl h
  · exact .inl rfl
  · exact .inl rfl

theorem not_isNaN_of_isFinite (h : x.isFinite) : ¬x.isNaN := by
  rw [isFinite_eq] at h
  rw [isNaN_eq]
  generalize x.parts = u at *
  cases u with
  | notANumber => cases h
  | infinity => cases h
  | zero => exact Bool.false_ne_true
  | finite => exact Bool.false_ne_true

/-- Finite scalars are below positive infinity. -/
theorem lt_infinity (hx : x.isFinite) (hy : y.parts = .infinity .positive) : x < y := by
  rw [isFinite_eq] at hx
  rw [lt_def, hy]
  generalize x.parts = u at hx
  cases u with
  | notANumber => cases hx
  | infinity => cases hx
  | zero => rfl
  | finite => rfl

/-- Nothing is below negative infinity. -/
theorem not_lt_infinity (hy : y.parts = .infinity .negative) : ¬x < y := by
  rw [lt_def, hy]
  generalize x.parts = u
  rcases u with (_ | _) | _ | s | ⟨s, m, e, hm⟩ <;> exact Bool.false_ne_true

theorem not_isNaN_of_lt (h : x < y) : ¬y.isNaN := by
  rw [lt_def] at h
  rw [isNaN_eq]
  generalize y.parts = v at *
  cases v with
  | notANumber => cases hx : x.parts <;> rw [hx] at h <;> cases h
  | infinity => exact Bool.false_ne_true
  | zero => exact Bool.false_ne_true
  | finite => exact Bool.false_ne_true

theorem not_isNaN_of_gt (h : x < y) : ¬x.isNaN := by
  rw [lt_def] at h
  rw [isNaN_eq]
  generalize x.parts = u at *
  cases u with
  | notANumber => cases h
  | infinity => exact Bool.false_ne_true
  | zero => exact Bool.false_ne_true
  | finite => exact Bool.false_ne_true

theorem lt_of_toRat_le (hx : x.isFinite) (hy : y.isFinite) (h : x.toRat ≤ y.toRat) (hz : y < z) : x < z := by
  rcases isFinite_or_infinity (not_isNaN_of_lt hz) with hf | hinf | hinf
  · rw [lt_iff hy hf] at hz
    rw [lt_iff hx hf]
    exact h.trans_lt hz
  · exact lt_infinity hx hinf
  · exact absurd hz (not_lt_infinity hinf)

/-- What is in order: two finite numbers, negative infinity below, or positive infinity above. -/
theorem le_cases (h : x ≤ y) : x.isFinite ∧ y.isFinite ∧ x.toRat ≤ y.toRat ∨
    x.parts = .infinity .negative ∧ ¬y.isNaN ∨ ¬x.isNaN ∧ y.parts = .infinity .positive := by
  by_cases hf : x.isFinite ∧ y.isFinite
  · exact .inl ⟨hf.1, hf.2, (le_iff hf.1 hf.2).1 h⟩
  · right
    rw [le_def] at h
    rw [isFinite_eq, isFinite_eq] at hf
    rw [isNaN_eq, isNaN_eq]
    generalize x.parts = u at *
    generalize y.parts = v at *
    rcases u with (_ | _) | _ | s | ⟨s, m, e, hm⟩ <;> rcases v with (_ | _) | _ | t | ⟨t, n, f, hn⟩
    all_goals first
      | exact .inl ⟨rfl, Bool.false_ne_true⟩
      | exact .inr ⟨Bool.false_ne_true, rfl⟩
      | exact absurd h Bool.false_ne_true
      | exact absurd ⟨rfl, rfl⟩ hf

theorem not_isNaN_of_ge (h : x ≤ y) : ¬y.isNaN := by
  rcases le_cases h with ⟨-, hy, -⟩ | ⟨-, hy⟩ | ⟨-, hy⟩
  · exact not_isNaN_of_isFinite hy
  · exact hy
  · rw [isNaN_eq, hy]
    exact Bool.false_ne_true

theorem infinity_le (hx : x.parts = .infinity .negative) (hy : ¬y.isNaN) : x ≤ y := by
  rw [isNaN_eq] at hy
  rw [le_def, hx]
  generalize y.parts = v at hy
  rcases v with (_ | _) | _ | t | ⟨t, n, f, hn⟩
  · rfl
  · rfl
  · exact absurd rfl hy
  · rfl
  · rfl

theorem le_infinity (hx : ¬x.isNaN) (hy : y.parts = .infinity .positive) : x ≤ y := by
  rw [isNaN_eq] at hx
  rw [le_def, hy]
  generalize x.parts = u at hx
  rcases u with (_ | _) | _ | s | ⟨s, m, e, hm⟩
  · rfl
  · rfl
  · exact absurd rfl hx
  · rfl
  · rfl

/-- The order is transitive, infinities included. -/
theorem le_trans (h : x ≤ y) (h' : y ≤ z) : x ≤ z := by
  rcases le_cases h with ⟨hx, hy, hxy⟩ | ⟨hx, -⟩ | ⟨hx, hy⟩
  · rcases le_cases h' with ⟨-, hz, hyz⟩ | ⟨hinf, -⟩ | ⟨-, hz⟩
    · exact (le_iff hx hz).2 (hxy.trans hyz)
    · rw [isFinite_eq, hinf] at hy
      cases hy
    · exact le_infinity (not_isNaN_of_isFinite hx) hz
  · apply infinity_le hx
    rcases le_cases h' with ⟨-, hz, -⟩ | ⟨-, hz⟩ | ⟨-, hz⟩
    · exact not_isNaN_of_isFinite hz
    · exact hz
    · rw [isNaN_eq, hz]
      exact Bool.false_ne_true
  · rcases le_cases h' with ⟨hfin, -⟩ | ⟨hinf, -⟩ | ⟨-, hz⟩
    · rw [isFinite_eq, hy] at hfin
      cases hfin
    · rw [hy] at hinf
      cases hinf
    · exact le_infinity hx hz

/-! ## Sums -/

/-- A sum with anything but finite scalars is an infinity or not a number. -/
theorem add_parts_cases (u v : UnpackedFloat) :
    (u.isFinite ∧ v.isFinite) ∨ UnpackedFloat.add Format.binary32 u v = .notANumber ∨
      ∃ s, UnpackedFloat.add Format.binary32 u v = .infinity s := by
  rcases u with s | _ | s | ⟨s, m, e, hm⟩ <;> rcases v with s' | _ | s' | ⟨s', m', e', hm'⟩
  case infinity.infinity => cases s <;> cases s' <;> first | exact .inr (.inl rfl) | exact .inr (.inr ⟨_, rfl⟩)
  all_goals first | exact .inl ⟨rfl, rfl⟩ | exact .inr (.inl rfl) | exact .inr (.inr ⟨_, rfl⟩)

/-- Only finite scalars have a finite sum. -/
theorem isFinite_of_add (h : (x + y).isFinite) : x.isFinite ∧ y.isFinite := by
  rw [isFinite_eq, add_def] at h
  rcases add_parts_cases x.parts y.parts with hfinite | hadd | ⟨s, hadd⟩
  · exact hfinite
  · rw [hadd] at h
    cases h
  · rw [hadd] at h
    cases s <;> cases h

/-- What holds a number and is finite has its value. -/
theorem Holds.toRat_of_isFinite {u : UnpackedFloat} {v : ℚ} (h : Holds u v) (hf : (Scalar.ofParts u).isFinite) :
    (Scalar.ofParts u).toRat = v := by
  have hr : InRange u := by
    by_contra hi
    rcases u with s | _ | s | ⟨s, m, e, hm⟩
    · exact hi trivial
    · exact hi trivial
    · exact hi trivial
    · rw [isFinite_eq, Scalar.ofParts_overflow s hm (by simp only [InRange] at hi; omega)] at hf
      cases hf
  unfold toRat
  rw [parts_ofParts h.rounded hr, h.value]

theorem toRat_add_of_isFinite (h : (x + y).isFinite) : (x + y).toRat = nearest (x.toRat + y.toRat) := by
  obtain ⟨hx, hy⟩ := isFinite_of_add h
  exact (add_holds hx hy).toRat_of_isFinite h

theorem nearest_toRat (x : Scalar) : nearest x.toRat = x.toRat := nearest_valueOf (fits_parts x).1

theorem abs_toRat_lt (x : Scalar) : |x.toRat| < 2 ^ 128 := abs_valueOf_lt (fits_parts x).1 (fits_parts x).2

/-- **What an exact sum is not below, the rounded sum is not below either**, overflow included. -/
theorem add_of_toRat_le (hx : x.isFinite) (hy : y.isFinite) (h : z.toRat ≤ x.toRat + y.toRat) :
    (x + y).isFinite ∧ z.toRat ≤ (x + y).toRat ∨ (x + y).parts = .infinity .positive := by
  have hle : z.toRat ≤ nearest (x.toRat + y.toRat) := by
    calc z.toRat = nearest z.toRat := (nearest_toRat z).symm
      _ ≤ nearest (x.toRat + y.toRat) := nearest_mono h
  rcases lt_or_ge (nearest (x.toRat + y.toRat)) (2 ^ 128) with hlt | hge
  · have hz := (abs_lt.1 (abs_toRat_lt z)).1
    obtain ⟨hf, hval⟩ := toRat_add hx hy (abs_lt.2 ⟨by linarith, hlt⟩)
    exact .inl ⟨hf, by rwa [hval]⟩
  · exact .inr ((add_holds hx hy).ofParts_overflow hge)

theorem not_add_lt (hx : x.isFinite) (hy : y.isFinite) (hz : z.isFinite) (h : z.toRat ≤ x.toRat + y.toRat) :
    ¬x + y < z := by
  rcases add_of_toRat_le hx hy h with ⟨hf, hle⟩ | hinf
  · exact not_lt_of_le ((le_iff hz hf).2 hle)
  · exact not_lt_of_lt (lt_infinity hz hinf)

/-! ## Limits -/

/-- **Who is behind by more than a tolerance is behind.** -/
theorem lt_of_not_le_add (hx : x.isFinite) (hz : ¬z.isNaN) (hy : y.isFinite) (h0 : 0 ≤ y.toRat)
    (h : ¬z ≤ x + y) : x < z := by
  -- the sum may be rounded up, even to infinity, but not to less than `x`
  have hsum : ¬(x + y).isNaN := by
    rcases add_of_toRat_le (z := x) hx hy (by linarith) with ⟨hf, -⟩ | hinf
    · exact not_isNaN_of_isFinite hf
    · rw [isNaN_eq, hinf]
      exact Bool.false_ne_true
  have hlt := lt_of_not_le hz hsum h
  rcases isFinite_or_infinity hz with hf | hinf | hinf
  · by_contra hle
    rw [lt_iff hx hf, not_lt] at hle
    exact not_add_lt hx hy hf (by linarith) hlt
  · exact lt_infinity hx hinf
  · exact absurd hlt (not_lt_infinity hinf)

/-- Nothing finite moves infinity. -/
theorem infinity_add (hx : x.parts = .infinity .positive) (hy : y.isFinite) : (x + y).parts = .infinity .positive := by
  rw [isFinite_eq] at hy
  rw [add_def, hx]
  generalize y.parts = u at hy
  cases u with
  | infinity => cases hy
  | notANumber => cases hy
  | zero => exact parts_ofParts (u := .infinity .positive) trivial trivial
  | finite => exact parts_ofParts (u := .infinity .positive) trivial trivial

/-- The gap to a limit is no less than a step that does not lead up to it. -/
theorem sub_of_add_lt (hf : (x + y).isFinite) (h : x + y < z) :
    (z - x).isFinite ∧ y.toRat ≤ (z - x).toRat ∨ (z - x).parts = .infinity .positive := by
  obtain ⟨hx, hy⟩ := isFinite_of_add hf
  rw [sub_eq_add_neg]
  rcases isFinite_or_infinity (not_isNaN_of_lt h) with hz | hinf | hinf
  · -- the exact step does not lead up to the limit either
    have hlt : x.toRat + y.toRat < z.toRat := by
      by_contra hle
      exact not_add_lt hx hy hz (not_lt.1 hle) h
    apply add_of_toRat_le hz (isFinite_neg hx)
    rw [toRat_neg]
    linarith
  · exact .inr (infinity_add hinf (isFinite_neg hx))
  · exact absurd h (not_lt_infinity hinf)

theorem max_zero_of_pos (h : 0 < x) : Scalar.max x 0 = x := if_pos h

theorem max_zero_of_not_pos (h : ¬0 < x) : Scalar.max x 0 = 0 := by
  unfold Scalar.max
  rw [if_neg h]
  rfl

/-- **A step that does not lead up to a limit is not cut off by the gap to it**, though both the end of the step and
the gap are rounded. -/
theorem min_gap (hf : (x + y).isFinite) (h : x + y < z) : Scalar.min (Scalar.max (z - x) 0) y = y := by
  have hy : y.isFinite := (isFinite_of_add hf).2
  have hgap := sub_of_add_lt hf h
  suffices hle : ¬Scalar.max (z - x) 0 < y by
    unfold Scalar.min
    rw [if_neg hle, if_neg (not_isNaN_of_isFinite hy)]
  by_cases hpos : 0 < z - x
  · rw [max_zero_of_pos hpos]
    rcases hgap with ⟨hfin, hle⟩ | hinf
    · exact not_lt_of_le ((le_iff hy hfin).2 hle)
    · exact not_lt_of_lt (lt_infinity hy hinf)
  · rw [max_zero_of_not_pos hpos]
    rcases hgap with ⟨hfin, hle⟩ | hinf
    · rw [lt_iff rfl hfin, not_lt] at hpos
      rw [lt_iff rfl hy, not_lt]
      exact hle.trans hpos
    · exact absurd (lt_infinity rfl hinf) hpos

/-- **A time below a limit is not cut off**, unless it is negative. -/
theorem zero_add_max_min (h : x < z) : 0 + Scalar.max (Scalar.min x z) 0 = if 0 < x then x else 0 := by
  have hmin : Scalar.min x z = x := if_pos h
  rw [hmin]
  split
  · next hpos => rw [max_zero_of_pos hpos, (zero_add_of_pos hpos).1]
  · next hpos =>
    rw [max_zero_of_not_pos hpos]
    rfl

/-! ## Gaps on the grid -/

variable {a b k : ℕ}

theorem ticks_min (hx : Ticks x a) (hy : Ticks y b) : Ticks (Scalar.min x y) (min a b) := by
  by_cases h : a < b
  · have hmin : Scalar.min x y = x := if_pos ((hx.lt_iff hy).2 h)
    rw [hmin, Nat.min_eq_left h.le]
    exact hx
  · rw [min_of_le ((hy.le_iff hx).2 (by omega)), Nat.min_eq_right (by omega)]
    exact hy

/-- The gap to a limit that is not ahead. -/
theorem not_zero_lt_sub (hx : Ticks x a) (hy : Ticks y b) (h : a ≤ b) (hb : b < 2 ^ 24) : ¬0 < x - y := by
  have hvalue : x.toRat + (-y).toRat = -(((b - a : ℕ) : ℚ) / 128) := by
    rw [toRat_neg, hx.value, hy.value, Nat.cast_sub h]
    ring
  have hnearest : nearest (x.toRat + (-y).toRat) = -(((b - a : ℕ) : ℚ) / 128) := by
    rw [hvalue, nearest_neg, nearest_ticks (by omega)]
  obtain ⟨hf, hval⟩ := toRat_add hx.finite (isFinite_neg hy.finite) (by
    rw [hnearest, abs_neg]
    exact abs_ticks_lt (by omega))
  rw [sub_eq_add_neg, lt_iff rfl hf, hval, hnearest, toRat_zero, not_lt]
  exact neg_nonpos.2 (by positivity)

/-- **How much of a step fits in the gap to a limit.** The limit may be so far away that the gap is rounded. -/
theorem ticks_slice (hz : Ticks z a) (hx : Ticks x b) (hy : Ticks y k) (hsum : b + k < 2 ^ 23) :
    Ticks (Scalar.min (Scalar.max (z - x) 0) y) (min (a - b) k) := by
  rcases Nat.lt_or_ge (b + k) a with hlt | hge
  · have hadd := hx.add hy (by omega)
    rw [min_gap hadd.finite ((hadd.lt_iff hz).2 hlt), Nat.min_eq_right (by omega)]
    exact hy
  · rcases Nat.le_total b a with hle | hle
    · exact ticks_min (hz.sub hx hle (by omega)).max_zero.toTicks hy
    · rw [max_zero_of_not_pos (not_zero_lt_sub hz hx hle (by omega)), Nat.sub_eq_zero_of_le hle]
      exact ticks_min clock_zero.toTicks hy

/-! ## Multiples of zero -/

/-- A multiple of a zero is a zero, unless it is not a number. -/
theorem zero_mul_cases {s : UnpackedFloat.Sign} (hx : x.parts = .zero s) :
    (∃ s', (x * y).parts = .zero s') ∨ ¬y.isFinite ∧ (x * y).isNaN := by
  have hmul : x * y = ofParts (UnpackedFloat.mul Format.binary32 (.zero s) y.parts) := by
    rw [← hx]
    rfl
  have hnan : (ofParts .notANumber).isNaN := rfl
  rw [hmul, isFinite_eq]
  generalize y.parts = v
  cases v with
  | infinity => exact .inr ⟨Bool.false_ne_true, hnan⟩
  | notANumber => exact .inr ⟨Bool.false_ne_true, hnan⟩
  | zero s' => exact .inl ⟨s * s', parts_ofParts (u := .zero _) trivial trivial⟩
  | finite s' => exact .inl ⟨s * s', parts_ofParts (u := .zero _) trivial trivial⟩

/-- A finite multiple of a zero is a zero. -/
theorem mul_beq_zero (hx : x == 0) (hy : y.isFinite) : x * y == 0 := by
  obtain ⟨s, hs⟩ := beq_zero_iff.1 hx
  rcases zero_mul_cases (y := y) hs with hzero | ⟨hinf, -⟩
  · exact beq_zero_iff.2 hzero
  · exact absurd hy hinf

theorem parts_zero : parts 0 = .zero .positive := rfl

theorem zero_beq_zero : (0 : Scalar) == 0 := beq_zero_iff.2 ⟨_, parts_zero⟩

theorem SameNumber.beq_zero (h : SameNumber x 0) : x == 0 := by
  rcases h with rfl | ⟨hx, -⟩
  · exact zero_beq_zero
  · exact hx

theorem toRat_of_zero {s : UnpackedFloat.Sign} (hx : x.parts = .zero s) : x.isFinite ∧ x.toRat = 0 := by
  rw [isFinite_eq, toRat, hx]
  exact ⟨rfl, rfl⟩

end MotionScript.Scalar
