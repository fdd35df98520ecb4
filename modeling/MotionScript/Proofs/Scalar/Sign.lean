import MotionScript.Proofs.Scalar.Sum

/-!
# Signs

Here infinities and what is not a number count as well.

* `add_not_lt_zero`: rounding and overflow never make a sum of numbers that are not negative negative.
* `zero_lt_zero_sub`: what is taken from zero changes its sign.
* `zero_add_of_pos`, `min_of_le`: positive numbers behave as one expects.
* `add_zero_of_ne`: zero may be added to all but the negative zero.
* `SameNumber`: scalars that differ in the sign of a zero at most.
-/

namespace MotionScript.Scalar

open Float.Model (UnpackedFloat Format)

theorem not_lt_zero_of_parts {x : Scalar} (h : x.parts = .notANumber ∨ x.parts = .infinity .positive) :
    ¬x < 0 := by
  rw [lt_def]
  rcases h with h | h <;> rw [h] <;> exact Bool.false_ne_true

/-- A scalar that is not negative is not a number, or positive infinity, or has such a value. -/
theorem not_lt_zero_cases {x : Scalar} (h : ¬x < 0) :
    x.parts = .notANumber ∨ x.parts = .infinity .positive ∨ x.isFinite ∧ 0 ≤ x.toRat := by
  by_cases hf : x.isFinite
  · exact .inr (.inr ⟨hf, not_lt.1 fun hlt => h ((lt_iff hf rfl).2 hlt)⟩)
  · rw [isFinite_eq] at hf
    rw [lt_def] at h
    generalize x.parts = u at *
    rcases u with (_ | _) | _ | s | ⟨s, m, e, hm⟩
    · exact absurd rfl h
    · exact .inr (.inl rfl)
    · exact .inl rfl
    · exact absurd rfl hf
    · exact absurd rfl hf

/-- **A sum of numbers that are not negative is not negative**, overflow and what is not a number
included. -/
theorem add_not_lt_zero {x y : Scalar} (hx : ¬x < 0) (hf : y.isFinite) (hy : 0 ≤ y.toRat) : ¬x + y < 0 := by
  rcases not_lt_zero_cases hx with h | h | ⟨hfx, h⟩
  · apply not_lt_zero_of_parts
    left
    rw [add_def, h]
    exact parts_ofParts (u := .notANumber) trivial trivial
  · apply not_lt_zero_of_parts
    right
    rw [isFinite_eq] at hf
    rw [add_def, h]
    generalize y.parts = v at hf
    cases v with
    | infinity => cases hf
    | notANumber => cases hf
    | zero => exact parts_ofParts (u := .infinity .positive) trivial trivial
    | finite => exact parts_ofParts (u := .infinity .positive) trivial trivial
  · -- a sum that is too great becomes positive infinity
    have hv := nearest_nonneg (add_nonneg h hy)
    rcases lt_or_ge (nearest (x.toRat + y.toRat)) (2 ^ 128) with hlt | hge
    · obtain ⟨hfin, hval⟩ := toRat_add hfx hf (by rwa [abs_of_nonneg hv])
      rw [lt_iff hfin rfl, hval, toRat_zero]
      exact not_lt.2 hv
    · exact not_lt_zero_of_parts (.inr ((add_holds hfx hf).ofParts_overflow hge))

theorem zero_sub_parts (x : Scalar) :
    (0 - x).parts = UnpackedFloat.sub Format.binary32 (.zero .positive) x.parts := by
  show (ofParts (UnpackedFloat.sub Format.binary32 (.zero .positive) x.parts)).parts = _
  have h := fits_parts x
  generalize x.parts = u at h ⊢
  apply parts_ofParts
  · rcases u with s | _ | s | ⟨s, m, e, hm⟩
    · trivial
    · trivial
    · cases s <;> trivial
    · exact h.1
  · rcases u with s | _ | s | ⟨s, m, e, hm⟩
    · trivial
    · trivial
    · cases s <;> trivial
    · exact h.2

/-- What is taken from zero is positive just if it was negative, infinities and what is not a number
included. -/
theorem zero_lt_zero_sub {x : Scalar} : 0 < 0 - x ↔ x < 0 := by
  rw [lt_def, lt_def, zero_sub_parts]
  show UnpackedFloat.lt (.zero .positive) _ = true ↔ UnpackedFloat.lt x.parts (.zero .positive) = true
  generalize x.parts = u
  rcases u with s | _ | s | ⟨s, m, e, hm⟩
  · cases s <;> decide
  · decide
  · cases s <;> decide
  · cases s
    · exact iff_of_true rfl rfl
    · exact iff_of_false Bool.false_ne_true Bool.false_ne_true

theorem not_isNaN_of_le {x y : Scalar} (h : y ≤ x) : ¬y.isNaN := by
  rw [le_def] at h
  rw [isNaN_eq]
  generalize y.parts = u at *
  cases u with
  | notANumber => cases h
  | infinity => exact Bool.false_ne_true
  | zero => exact Bool.false_ne_true
  | finite => exact Bool.false_ne_true

theorem min_of_le {x y : Scalar} (h : y ≤ x) : Scalar.min x y = y := by
  unfold Scalar.min
  rw [if_neg (not_lt_of_le h), if_neg (not_isNaN_of_le h)]

/-- A number that is greater than zero is not changed by zero, and equal to itself. -/
theorem zero_add_of_pos {x : Scalar} (h : 0 < x) : 0 + x = x ∧ x ≤ x := by
  rw [lt_def] at h
  change UnpackedFloat.lt (.zero .positive) x.parts = true at h
  have hadd : 0 + x = ofParts (UnpackedFloat.add Format.binary32 (.zero .positive) x.parts) := rfl
  have hx := ofParts_parts x
  by_cases hf : x.isFinite
  · refine ⟨?_, (le_iff hf hf).2 le_rfl⟩
    rw [isFinite_eq] at hf
    rw [hadd]
    generalize x.parts = u at *
    cases u with
    | infinity => cases hf
    | notANumber => cases hf
    | zero => cases h
    | finite => exact hx
  · rw [isFinite_eq] at hf
    rw [hadd, le_def]
    generalize x.parts = u at *
    cases u with
    | infinity s =>
      cases s with
      | positive => exact ⟨hx, rfl⟩
      | negative => cases h
    | notANumber => cases h
    | zero => exact absurd rfl hf
    | finite => exact absurd rfl hf

/-- **Zero may be added** to everything but the negative zero. -/
theorem add_zero_of_ne {x : Scalar} (h : x ≠ -0) : x + 0 = x := by
  have hadd : x + 0 = ofParts (UnpackedFloat.add Format.binary32 x.parts (.zero .positive)) := rfl
  have hx := ofParts_parts x
  have hzero : x.parts ≠ .zero .negative := by
    intro hparts
    rw [hparts] at hx
    exact h hx.symm
  rw [hadd]
  generalize x.parts = u at *
  rcases u with s | _ | s | ⟨s, m, e, hm⟩
  · exact hx
  · exact hx
  · cases s with
    | positive => exact hx
    | negative => exact absurd rfl hzero
  · exact hx

/-! ## Zeros of either sign -/

/-- **Two scalars are the same number**: they are equal, or zeros of either sign. -/
def SameNumber (x y : Scalar) : Prop := x = y ∨ x == 0 ∧ y == 0

theorem beq_zero_iff {x : Scalar} : x == 0 ↔ ∃ s, x.parts = .zero s := by
  show (x.parts.compare (.zero .positive) == some .eq) = true ↔ _
  generalize x.parts = u
  rcases u with (_ | _) | _ | s | ⟨_ | _, m, e, hm⟩
  case zero => exact iff_of_true rfl ⟨s, rfl⟩
  all_goals
    refine iff_of_false Bool.false_ne_true ?_
    rintro ⟨s, hs⟩
    cases hs

namespace SameNumber

variable {x y z : Scalar}

theorem refl (x : Scalar) : SameNumber x x := .inl rfl

theorem symm (h : SameNumber x y) : SameNumber y x := by
  rcases h with rfl | ⟨hx, hy⟩
  · exact refl x
  · exact .inr ⟨hy, hx⟩

theorem trans (h : SameNumber x y) (h' : SameNumber y z) : SameNumber x z := by
  rcases h with rfl | ⟨hx, hy⟩
  · exact h'
  · rcases h' with rfl | ⟨-, hz⟩
    · exact .inr ⟨hx, hy⟩
    · exact .inr ⟨hx, hz⟩

end SameNumber

/-- A zero of either sign may be added to a number. -/
theorem sameNumber_add_zero {x y : Scalar} (hy : y == 0) : SameNumber (x + y) x := by
  obtain ⟨s, hs⟩ := beq_zero_iff.1 hy
  have hadd : x + y = ofParts (UnpackedFloat.add Format.binary32 x.parts (.zero s)) := by
    rw [← hs]
    rfl
  by_cases hx : x == 0
  · obtain ⟨t, ht⟩ := beq_zero_iff.1 hx
    refine .inr ⟨?_, hx⟩
    rw [hadd, ht]
    cases s <;> cases t <;> rfl
  · -- the sum is not even computed
    left
    have hparts : ∀ t, x.parts ≠ .zero t := fun t ht => hx (beq_zero_iff.2 ⟨t, ht⟩)
    rw [hadd]
    conv_rhs => rw [← ofParts_parts x]
    generalize x.parts = u at hparts
    cases u with
    | zero t => exact absurd rfl (hparts t)
    | infinity => rfl
    | notANumber => rfl
    | finite => rfl

end MotionScript.Scalar
