import MotionScript.Proofs.Scalar.Sum

/-!
# Times on a grid

Times that are whole numbers of ticks, 128 to the second, add up without rounding as long as they
stay below 2 ^ 17 seconds.

* `OnGrid`, `Ticks`: a scalar is a whole number of ticks.
* `Clock`: moreover it is no negative zero, so the number of ticks fixes it (`Clock.unique`).
* `Clock.add`, `Clock.sub`: clocks that are put forward and back.
* `Ticks.le_add_iff`: a small tolerance does not tell in a comparison.
-/

namespace MotionScript.Scalar

open Float.Model (UnpackedFloat Format)

open Float.Model.UnpackedFloat

/-- A scalar is a whole number of ticks. -/
structure Ticks (x : Scalar) (k : ℕ) : Prop where
  finite : x.isFinite
  value : x.toRat = k / 128

/-- A scalar is a whole number of ticks, and no negative zero. -/
structure Clock (x : Scalar) (k : ℕ) : Prop extends Ticks x k where
  plain : k = 0 → x = 0

/-- A scalar is some whole number of ticks. -/
def OnGrid (x : Scalar) : Prop := x.isFinite ∧ ∃ k : ℕ, x.toRat = k / 128

/-- The whole ticks of a time. -/
def ticks (x : Scalar) : ℕ := ⌊x.toRat * 128⌋₊

variable {x y : Scalar} {a b : ℕ}

theorem Ticks.ticks_eq (h : Ticks x a) : x.ticks = a := by
  rw [ticks, h.value, div_mul_cancel₀ _ (by norm_num), Nat.floor_natCast]

theorem OnGrid.ticks (h : x.OnGrid) : Ticks x x.ticks := by
  obtain ⟨hf, k, hk⟩ := h
  have hx : Ticks x k := ⟨hf, hk⟩
  rwa [hx.ticks_eq]

/-- The ticks add up as the seconds do. -/
theorem sum_ticks {α : Type} {l : List α} {seconds : α → ℚ} {ticks : α → ℕ}
    (h : ∀ a ∈ l, seconds a = ticks a / 128) : (l.map seconds).sum = (l.map ticks).sum / 128 := by
  induction l with
  | nil => simp
  | cons a l ih =>
    obtain ⟨ha, hl⟩ := List.forall_mem_cons.1 h
    rw [List.map_cons, List.map_cons, List.sum_cons, List.sum_cons, ih hl, ha]
    push_cast
    ring

theorem nearest_dyadic {k : ℕ} (hk : k < 2 ^ 24) {n : ℕ} (hn : n ≤ 149) :
    nearest ((k : ℚ) / 2 ^ n) = k / 2 ^ n := by
  have hdiv : (k : ℚ) / 2 ^ n = k * 2 ^ (-n : ℤ) := by
    rw [zpow_neg, zpow_natCast, div_eq_mul_inv]
  rw [nearest, if_neg (not_lt.2 (by positivity)), hdiv]
  rcases Nat.eq_zero_or_pos k with rfl | hpos
  · simp
  · exact nearestPos_natCast_mul hpos hk (by omega)

theorem nearest_ticks {k : ℕ} (hk : k < 2 ^ 24) : nearest ((k : ℚ) / 128) = k / 128 := by
  have h := nearest_dyadic hk (show 7 ≤ 149 by norm_num)
  norm_num at h
  exact h

theorem abs_ticks_lt {k : ℕ} (hk : k < 2 ^ 24) : |(k : ℚ) / 128| < 2 ^ 128 := by
  have : (k : ℚ) < 2 ^ 24 := by exact_mod_cast hk
  rw [abs_of_nonneg (by positivity)]
  linarith

theorem Ticks.le_iff (hx : Ticks x a) (hy : Ticks y b) : x ≤ y ↔ a ≤ b := by
  rw [Scalar.le_iff hx.finite hy.finite, hx.value, hy.value, div_le_div_iff_of_pos_right (by norm_num)]
  exact Nat.cast_le

theorem Ticks.lt_iff (hx : Ticks x a) (hy : Ticks y b) : x < y ↔ a < b := by
  rw [Scalar.lt_iff hx.finite hy.finite, hx.value, hy.value, div_lt_div_iff_of_pos_right (by norm_num)]
  exact Nat.cast_lt

theorem ticks_of_value {k : ℕ} (hx : x.isFinite) (hy : y.isFinite) (hk : k < 2 ^ 24)
    (hv : x.toRat + y.toRat = k / 128) : Ticks (x + y) k := by
  have hn : nearest (x.toRat + y.toRat) = k / 128 := by rw [hv, nearest_ticks hk]
  obtain ⟨hf, hval⟩ := toRat_add hx hy (by rw [hn]; exact abs_ticks_lt hk)
  exact ⟨hf, hval.trans hn⟩

/-- No time is lost in a sum of times. -/
theorem Ticks.add (hx : Ticks x a) (hy : Ticks y b) (h : a + b < 2 ^ 24) : Ticks (x + y) (a + b) := by
  apply ticks_of_value hx.finite hy.finite h
  rw [hx.value, hy.value]
  push_cast
  ring

theorem Ticks.sub (hx : Ticks x a) (hy : Ticks y b) (h : b ≤ a) (ha : a < 2 ^ 24) :
    Ticks (x - y) (a - b) := by
  rw [sub_eq_add_neg]
  apply ticks_of_value hx.finite (isFinite_neg hy.finite) (by omega)
  rw [toRat_neg, hx.value, hy.value, Nat.cast_sub h]
  ring

/-- A tolerance of less than half a tick does not tell in a comparison, though a sum with it is rounded. -/
theorem Ticks.le_add_iff (hx : Ticks x a) (hy : Ticks y b) (hb : b < 2 ^ 23) {t : Scalar}
    (ht : t.isFinite) (h0 : 0 ≤ t.toRat) (h1 : t.toRat ≤ 1 / 256) : x ≤ y + t ↔ a ≤ b := by
  -- both bounds of the rounded sum fit in 24 bits themselves
  have hlow : (b : ℚ) / 128 ≤ nearest (b / 128 + t.toRat) := by
    calc (b : ℚ) / 128 = nearest (b / 128) := (nearest_ticks (by omega)).symm
      _ ≤ nearest (b / 128 + t.toRat) := nearest_mono (by linarith)
  have hhigh : nearest (b / 128 + t.toRat) ≤ ((2 * b + 1 : ℕ) : ℚ) / 2 ^ 8 := by
    rw [← nearest_dyadic (k := 2 * b + 1) (n := 8) (by omega) (by norm_num)]
    apply nearest_mono
    push_cast
    linarith
  have hb' : (b : ℚ) < 2 ^ 23 := by exact_mod_cast hb
  push_cast at hhigh
  obtain ⟨hfin, hval⟩ := toRat_add hy.finite ht (by
    rw [hy.value, abs_of_nonneg (le_trans (by positivity) hlow)]
    linarith)
  rw [Scalar.le_iff hx.finite hfin, hval, hx.value, hy.value]
  constructor
  · intro h
    by_contra hlt
    have : (b : ℚ) + 1 ≤ a := by exact_mod_cast Nat.lt_of_not_le hlt
    linarith
  · intro h
    have : (a : ℚ) ≤ b := by exact_mod_cast h
    linarith

/-! ## Zeros -/

theorem parts_of_toRat_zero (hx : x.isFinite) (h : x.toRat = 0) : ∃ s, x.parts = .zero s := by
  rw [isFinite_eq] at hx
  unfold toRat at h
  generalize x.parts = u at hx h
  rcases u with _ | _ | s | ⟨s, m, e, hm⟩
  · cases hx
  · cases hx
  · exact ⟨s, rfl⟩
  · have := valueOf_positive_pos (e := e) hm
    cases s
    · rw [valueOf_negative] at h
      linarith
    · linarith

theorem zero_add_of_toRat_zero (hx : x.isFinite) (h : x.toRat = 0) : 0 + x = 0 := by
  obtain ⟨s, hs⟩ := parts_of_toRat_zero hx h
  rw [add_def, hs]
  cases s <;> rfl

theorem sub_self (hx : x.isFinite) : x - x = 0 := by
  have hsub : x - x = ofParts (UnpackedFloat.sub Format.binary32 x.parts x.parts) := rfl
  rw [isFinite_eq] at hx
  rw [hsub]
  generalize x.parts = u at hx
  rcases u with _ | _ | s | ⟨s, m, e, hm⟩
  · cases hx
  · cases hx
  · cases s <;> rfl
  · simp only [UnpackedFloat.sub, Int.sub_self]
    rfl

/-- The number of ticks fixes a clock. -/
theorem Clock.unique (hx : Clock x a) (hy : Clock y a) : x = y := by
  rcases Nat.eq_zero_or_pos a with rfl | ha
  · rw [hx.plain rfl, hy.plain rfl]
  · refine eq_of_toRat hx.finite hy.finite (hx.value.trans hy.value.symm) ?_
    rw [hx.value]
    positivity

theorem Clock.add (hx : Clock x a) (hy : Ticks y b) (h : a + b < 2 ^ 24) : Clock (x + y) (a + b) := by
  refine ⟨hx.toTicks.add hy h, fun h0 => ?_⟩
  obtain ⟨rfl, rfl⟩ : a = 0 ∧ b = 0 := by omega
  -- `y` may be the negative zero, the sum is not
  rw [hx.plain rfl]
  exact zero_add_of_toRat_zero hy.finite (by simpa using hy.value)

theorem Clock.sub (hx : Clock x a) (hy : Clock y b) (h : b ≤ a) (ha : a < 2 ^ 24) : Clock (x - y) (a - b) := by
  refine ⟨hx.toTicks.sub hy.toTicks h ha, fun h0 => ?_⟩
  obtain rfl : a = b := by omega
  rw [hx.unique hy, sub_self hy.finite]

theorem clock_zero : Clock 0 0 := ⟨⟨rfl, by simp⟩, fun _ => rfl⟩

/-- A time that counts as zero if it is negative. -/
theorem Ticks.max_zero (hx : Ticks x a) : Clock (Scalar.max x 0) a := by
  have hlt := clock_zero.toTicks.lt_iff hx
  unfold Scalar.max
  rcases Nat.eq_zero_or_pos a with rfl | ha
  · rw [if_neg (fun h => lt_irrefl 0 (hlt.1 h)), if_neg (by decide)]
    exact clock_zero
  · rw [if_pos (hlt.2 ha)]
    exact ⟨hx, fun h => absurd h ha.ne'⟩

end MotionScript.Scalar
