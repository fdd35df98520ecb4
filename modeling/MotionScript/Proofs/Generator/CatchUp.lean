import MotionScript.Proofs.Generator.Cadence
import MotionScript.Proofs.Scalar.Descent

/-!
# Bursts that catch up

A burst takes its interval off the time for as long as it fits. As a difference is rounded, an interval that is small
next to the time changes nothing, and then there is no end to it. Whether there is shows in the first two volleys.

* `Burst.CatchesUp`: the loop, with as many volleys as it takes to end; `Burst.catchUp_eq_some_iff`.
* `Burst.Ends`, `Burst.ends_iff`: when the loop ends and leaves less than the interval.
* `Burst.settles_iff`: when a call does.
* `Burst.settles_of_frames`: no frame of less than four million intervals is too long.
-/

namespace MotionScript

open Scalar

/-- **A time is a frame of a pattern**: it's not negative and no longer than 2 ^ 22 intervals, and neither it nor the
interval is astronomic. -/
structure Pattern.IsFrame (p : Pattern) (delta : Scalar) : Prop where
  interval : p.interval.isFinite
  positive : 0 < p.interval.toRat
  interval_le : p.interval.toRat ≤ 2 ^ 126
  finite : delta.isFinite
  nonneg : 0 ≤ delta.toRat
  le : delta.toRat ≤ 2 ^ 22 * p.interval.toRat
  delta_le : delta.toRat ≤ 2 ^ 126

namespace Burst

variable {interval since left : Scalar} {n : ℕ}

/-! ## The loop -/

/-- **The loop ends** after a number of volleys, and leaves a time that the interval does not fit in. -/
inductive CatchesUp (interval : Scalar) : Scalar → ℕ → Scalar → Prop where
  | done {since : Scalar} : ¬interval ≤ since → CatchesUp interval since 0 since
  | volley {since left : Scalar} {n : ℕ} :
      interval ≤ since → CatchesUp interval (since - interval) n left → CatchesUp interval since (n + 1) left

/-- A loop that ends does not stay where it is. -/
theorem CatchesUp.sub_ne (h : CatchesUp interval since n left) (hfits : interval ≤ since) :
    since - interval ≠ since := by
  intro hstays
  induction h with
  | done hnot => exact hnot hfits
  | volley _ _ ih =>
    rw [hstays] at ih
    exact ih hfits hstays

/-- Where the loop goes on and ends, the word of the time gets less. -/
theorem CatchesUp.toBits_lt (h : CatchesUp interval (since - interval) n left) (h0 : 0 < interval)
    (hfits : interval ≤ since) (hagain : interval ≤ since - interval) : (since - interval).toBits < since.toBits := by
  rcases sub_cases h0 hfits with ⟨hs, hi, hless⟩ | hstays | hnan
  · have hpos : 0 < interval.toRat := (lt_iff rfl hi).1 h0
    obtain ⟨hfinite, -⟩ := toRat_sub_of_le hs hi hpos ((le_iff hi hs).1 hfits)
    have hleft : 0 < (since - interval).toRat := hpos.trans_le ((le_iff hi hfinite).1 hagain)
    exact toBits_lt_of_pos hfinite hs hleft ((lt_iff hfinite hs).1 hless)
  · exact absurd hstays ((CatchesUp.volley hfits h).sub_ne hfits)
  · exact absurd hnan (not_isNaN_of_ge hagain)

theorem catchesUp_of_countVolleys {k m : ℕ} (h : countVolleys interval k since = some (m, left)) :
    ∃ n, m = k + n ∧ CatchesUp interval since n left := by
  fun_induction countVolleys interval k since with
  | case1 k since hfits time hagain hless ih =>
    obtain ⟨n, rfl, hrest⟩ := ih h
    exact ⟨n + 1, by omega, .volley hfits hrest⟩
  | case2 => cases h
  | case3 k since hfits time hagain =>
    obtain ⟨rfl, hleft⟩ := Prod.mk.inj (Option.some.inj h)
    rw [← hleft]
    exact ⟨1, rfl, .volley hfits (.done hagain)⟩
  | case4 k since hfits =>
    cases h
    exact ⟨0, rfl, .done hfits⟩

theorem CatchesUp.countVolleys_eq (h : CatchesUp interval since n left) (h0 : 0 < interval) (k : ℕ) :
    countVolleys interval k since = some (k + n, left) := by
  induction h generalizing k with
  | done hnot => rw [countVolleys, if_neg hnot, Nat.add_zero]
  | @volley since left n hfits hrest ih =>
    rw [countVolleys, if_pos hfits]
    dsimp only
    by_cases hagain : interval ≤ since - interval
    · rw [if_pos hagain, if_pos (hrest.toBits_lt h0 hfits hagain), ih, Nat.add_right_comm, Nat.add_assoc]
    · rw [if_neg hagain]
      cases hrest with
      | done => rfl
      | volley hfits' => exact absurd hfits' hagain

/-- **Catching up is the loop**, and it has no answer just if the loop has no end. -/
theorem catchUp_eq_some_iff (h0 : 0 < interval) :
    catchUp interval since = some (n, left) ↔ CatchesUp interval since n left := by
  constructor
  · intro h
    obtain ⟨m, hm, hloop⟩ := catchesUp_of_countVolleys h
    rw [hm, Nat.zero_add]
    exact hloop
  · intro h
    have hcount := h.countVolleys_eq h0 0
    rwa [Nat.zero_add] at hcount

/-! ## When the loop ends -/

/-- What is finite and not less than a positive number makes it finite. -/
theorem isFinite_interval (h0 : 0 < interval) (hs : since.isFinite) (hfits : interval ≤ since) :
    interval.isFinite ∧ 0 < interval.toRat ∧ interval.toRat ≤ since.toRat := by
  rcases le_cases hfits with ⟨hi, -, hle⟩ | ⟨hinf, -⟩ | ⟨-, hinf⟩
  · exact ⟨hi, (lt_iff rfl hi).1 h0, hle⟩
  · exact absurd h0 (not_lt_infinity hinf)
  · rw [isFinite_eq, hinf] at hs
    cases hs

/-- **The loop ends and leaves less than the interval.** -/
def Ends (interval since : Scalar) : Prop := ∃ n left, CatchesUp interval since n left ∧ left < interval

/-- It does at once if the interval does not fit. -/
theorem ends_of_lt (h : since < interval) : Ends interval since := ⟨0, since, .done (not_le_of_lt h), h⟩

/-- It does a volley later. -/
theorem Ends.volley (hfits : interval ≤ since) (h : Ends interval (since - interval)) : Ends interval since := by
  obtain ⟨n, left, hloop, hleft⟩ := h
  exact ⟨n + 1, left, .volley hfits hloop, hleft⟩

/-- **It does if the interval counts in the time**, for then each volley makes the time less. -/
theorem ends_of_counts (hi : interval.isFinite) (h0 : 0 < interval.toRat) (hs : since.isFinite)
    (h : 0 < since.toRat → Counts interval since) : Ends interval since := by
  -- on the word of the time
  obtain ⟨word, hword⟩ : ∃ word, since.toBits.toNat = word := ⟨_, rfl⟩
  induction word using Nat.strong_induction_on generalizing since with
  | _ word ih =>
    by_cases hfits : interval.toRat ≤ since.toRat
    · have hcounts := h (h0.trans_le hfits)
      obtain ⟨hfinite, -⟩ := toRat_sub_of_le hs hi h0 hfits
      obtain ⟨hless, hagain⟩ := hcounts.sub hs hi h0 hfits
      apply Ends.volley ((le_iff hi hs).2 hfits)
      by_cases hpos : 0 < (since - interval).toRat
      · have hbits := toBits_lt_of_pos hfinite hs hpos hless
        exact ih _ (by rw [← hword]; exact UInt32.lt_iff_toNat_lt.1 hbits) hfinite hagain rfl
      · exact ends_of_lt ((lt_iff hfinite hi).2 (by linarith))
    · exact ends_of_lt ((lt_iff hs hi).2 (not_le.1 hfits))

/-- If the first volley makes the time less, and so does the second one, if there is one, then the interval counts in
what is left. -/
theorem ends_of_sub_lt (h0 : 0 < interval) (hs : since.isFinite) (hless : since - interval < since)
    (hagain : interval ≤ since - interval → since - interval - interval < since - interval) :
    Ends interval since := by
  by_cases hfits : interval ≤ since
  · obtain ⟨hi, hpos, hle⟩ := isFinite_interval h0 hs hfits
    obtain ⟨hfinite, -⟩ := toRat_sub_of_le hs hi hpos hle
    apply Ends.volley hfits
    by_cases hfits' : interval ≤ since - interval
    · have hle' := (le_iff hi hfinite).1 hfits'
      obtain ⟨hfinite', -⟩ := toRat_sub_of_le hfinite hi hpos hle'
      apply Ends.volley hfits'
      apply ends_of_counts hi hpos hfinite'
      intro hleft
      exact counts_of_steps hs hi hpos hle hless hle' (hagain hfits') hleft
    · exact ends_of_lt (lt_of_not_le (not_isNaN_of_lt h0) (not_isNaN_of_isFinite hfinite) hfits')
  · exact ends_of_lt (lt_of_not_le (not_isNaN_of_lt h0) (not_isNaN_of_isFinite hs) hfits)

/-- What goes on and ends is finite and gets less. -/
theorem Ends.sub_lt (h : Ends interval since) (h0 : 0 < interval) (hfits : interval ≤ since) :
    since.isFinite ∧ since - interval < since ∧ Ends interval (since - interval) := by
  obtain ⟨n, left, hloop, hleft⟩ := h
  have hne := hloop.sub_ne hfits
  cases hloop with
  | done hnot => exact absurd hfits hnot
  | volley _ hrest =>
    rcases sub_cases h0 hfits with ⟨hs, -, hless⟩ | hstays | hnan
    · exact ⟨hs, hless, _, left, hrest, hleft⟩
    · exact absurd hstays hne
    · -- what is no number is not below the interval
      cases hrest with
      | done => exact absurd hnan (not_isNaN_of_gt hleft)
      | volley hfits' => exact absurd hnan (not_isNaN_of_ge hfits')

/-- **When the loop ends and leaves less than the interval**: if the interval does not fit, or else the time is finite,
the first volley makes it less, and so does the second one, if there is one. -/
theorem ends_iff (h0 : 0 < interval) :
    Ends interval since ↔ since < interval ∨ since.isFinite ∧ since - interval < since ∧
      (interval ≤ since - interval → since - interval - interval < since - interval) := by
  constructor
  · intro h
    by_cases hfits : interval ≤ since
    · obtain ⟨hs, hless, hrest⟩ := h.sub_lt h0 hfits
      exact .inr ⟨hs, hless, fun hagain => (hrest.sub_lt h0 hagain).2.1⟩
    · left
      obtain ⟨n, left, hloop, hleft⟩ := h
      cases hloop with
      | done => exact hleft
      | volley hfits' => exact absurd hfits' hfits
  · rintro (hlt | ⟨hs, hless, hagain⟩)
    · exact ends_of_lt hlt
    · exact ends_of_sub_lt h0 hs hless hagain

/-! ## Calls -/

/-- **A call ends**, and leaves less than the interval. -/
def Settles (b : Burst) (delta : Scalar) : Prop := ∃ n left, b.due delta = some (n, left) ∧ left < b.pattern.interval

variable {b : Burst} {delta : Scalar}

theorem due_eq_catchUp (h0 : 0 < b.pattern.interval) (hdelta : ¬delta == 0) :
    b.due delta = catchUp b.pattern.interval (b.since + delta) := by
  unfold due
  rw [if_neg hdelta, if_pos h0]

/-- **When a call ends and leaves less than the interval.** Let the interval be positive, and all else be anything.
Then a call fires what the loop tells that starts from the time, but for an activation, which fires once and leaves
nothing. It ends and leaves less than the interval just if it is an activation, or the interval does not fit in the
time, or the time is finite, the first volley makes it less, and so does the second one, if there is one. -/
theorem settles_iff (b : Burst) (h0 : 0 < b.pattern.interval) (delta : Scalar) :
    let interval := b.pattern.interval
    let time := b.since + delta
    (∀ n left, b.due delta = some (n, left) ↔
        if delta == 0 then n = 1 ∧ left = 0 else CatchesUp interval time n left) ∧
      (b.Settles delta ↔ delta == 0 ∨ time < interval ∨
        time.isFinite ∧ time - interval < time ∧
          (interval ≤ time - interval → time - interval - interval < time - interval)) := by
  intro interval time
  have hdue : ∀ n left, b.due delta = some (n, left) ↔
      if delta == 0 then n = 1 ∧ left = 0 else CatchesUp interval time n left := by
    intro n left
    by_cases hdelta : delta == 0
    · have hone : b.due delta = some (1, 0) := if_pos hdelta
      rw [if_pos hdelta, hone, Option.some.injEq, Prod.mk.injEq, eq_comm, @eq_comm _ 0 left]
    · rw [if_neg hdelta, due_eq_catchUp h0 hdelta]
      exact catchUp_eq_some_iff h0
  refine ⟨hdue, ?_⟩
  unfold Settles
  by_cases hdelta : delta == 0
  · have hone : b.due delta = some (1, 0) := if_pos hdelta
    exact iff_of_true ⟨1, 0, hone, h0⟩ (.inl hdelta)
  · simp only [hdue, hdelta, Bool.false_eq_true, if_false, false_or]
    exact ends_iff h0

/-- A stream of four shots a second that is called for a second. -/
theorem settles_iff_quarters :
    let b : Burst := .ofPattern { interval := 0.25 }
    0 < b.pattern.interval ∧ b.Settles 1 ∧ b.due 1 = some (4, 0) := by
  intro b
  have hpositive : 0 < b.pattern.interval := by decide +kernel
  obtain ⟨-, hsettles⟩ := settles_iff b hpositive 1
  refine ⟨hpositive, hsettles.2 (.inr (.inr ⟨?_, ?_, fun _ => ?_⟩)), ?_⟩
  · decide +kernel
  · decide +kernel
  · decide +kernel
  · decide +kernel

/-- **The loop may have no end, and it may leave what is not below the interval.** A billion shots a second are too
many for a call of half a second: taking the interval off changes nothing. And where the interval is infinite, two
calls make the time infinite, a volley is taken for due, and what is left is no number. -/
theorem unsettled_bursts :
    let fast : Burst := .ofPattern { interval := 1e-9 }
    let far : Burst := .ofPattern { interval := Scalar.infinity }
    let call : Call × Body := (⟨3e38, 1, 0⟩, {})
    (0 < fast.pattern.interval ∧ (0.5 : Scalar).isFinite ∧
        ∀ n left, ¬CatchesUp fast.pattern.interval (fast.since + 0.5) n left) ∧
      0 < far.pattern.interval ∧ call.1.delta.isFinite ∧ ∃ left, left.isNaN ∧
        (far.after [call]).due call.1.delta = some (1, left) ∧
        CatchesUp far.pattern.interval ((far.after [call]).since + call.1.delta) 1 left ∧
        ¬left < far.pattern.interval := by
  intro fast far call
  have hfast : 0 < fast.pattern.interval := by decide +kernel
  have hfar : 0 < far.pattern.interval := by decide +kernel
  have hfinite : call.1.delta.isFinite := by decide +kernel
  refine ⟨⟨hfast, rfl, fun n left hloop => ?_⟩, hfar, hfinite, Scalar.nan, ?_⟩
  · have hfits : fast.pattern.interval ≤ fast.since + 0.5 := by decide +kernel
    exact hloop.sub_ne hfits (by decide +kernel)
  · have hfits : far.pattern.interval ≤ (far.after [call]).since + call.1.delta := by decide +kernel
    have hleft : (far.after [call]).since + call.1.delta - far.pattern.interval = Scalar.nan := by decide +kernel
    refine ⟨by decide +kernel, by decide +kernel, .volley hfits ?_, by decide +kernel⟩
    rw [hleft]
    exact .done (by decide +kernel)

/-! ## Frames -/

/-- **Between calls** the time since the last volley is less than the interval. -/
structure Settled (b : Burst) : Prop where
  finite : b.since.isFinite
  nonneg : 0 ≤ b.since.toRat
  lt : b.since < b.pattern.interval

/-- What the loop leaves of a finite time that is not negative is such a time as well. -/
theorem CatchesUp.left_nonneg (h : CatchesUp interval since n left) (h0 : 0 < interval) (hs : since.isFinite)
    (hnonneg : 0 ≤ since.toRat) : left.isFinite ∧ 0 ≤ left.toRat := by
  induction h with
  | done => exact ⟨hs, hnonneg⟩
  | volley hfits _ ih =>
    obtain ⟨hi, hpos, hle⟩ := isFinite_interval h0 hs hfits
    obtain ⟨hfinite, -, hleft, -⟩ := toRat_sub_of_le hs hi hpos hle
    exact ih hfinite hleft

/-- The time of a frame is not rounded up to more than twice what it is. -/
theorem time_of_frame (hb : b.Settled) (hframe : b.pattern.IsFrame delta) :
    (b.since + delta).isFinite ∧ 0 ≤ (b.since + delta).toRat ∧
      (b.since + delta).toRat < 2 ^ 24 * b.pattern.interval.toRat := by
  have hsince : b.since.toRat < b.pattern.interval.toRat := (lt_iff hb.finite hframe.interval).1 hb.lt
  have hnonneg : 0 ≤ b.since.toRat + delta.toRat := add_nonneg hb.nonneg hframe.nonneg
  have habs : |b.since.toRat + delta.toRat| ≤ 2 ^ 127 := by
    have := hframe.interval_le
    have := hframe.delta_le
    rw [abs_of_nonneg hnonneg]
    linarith
  obtain ⟨hwithin, hvalue⟩ := add_within hb.finite hframe.finite habs (by norm_num)
  rw [hvalue]
  refine ⟨hwithin.finite, nearest_nonneg hnonneg, ?_⟩
  rcases hnonneg.eq_or_lt with hzero | hpos
  · rw [← hzero, nearest_zero]
    exact mul_pos (by norm_num) hframe.positive
  · have hnearest : nearest (b.since.toRat + delta.toRat) = nearestPos (b.since.toRat + delta.toRat) :=
      if_neg (not_lt.2 hnonneg)
    have herr := (abs_le.1 (abs_nearestPos_sub_le (b.since.toRat + delta.toRat))).2
    have hunit := unit_le hframe.positive
    have hle := hframe.le
    rw [hnearest]
    by_cases hplace : lastPlace (b.since.toRat + delta.toRat) = -149
    · rw [hplace] at herr
      generalize (2 : ℚ) ^ (-149 : ℤ) = unit at herr hunit
      linarith
    · have hlead := lastPlace_le hpos hplace
      linarith

/-- A call for a frame ends. -/
theorem settles_of_frame (hb : b.Settled) (hframe : b.pattern.IsFrame delta) : b.Settles delta := by
  have h0 : 0 < b.pattern.interval := (lt_iff rfl hframe.interval).2 hframe.positive
  by_cases hdelta : delta == 0
  · exact ⟨1, 0, if_pos hdelta, h0⟩
  · obtain ⟨hfinite, -, hlt⟩ := time_of_frame hb hframe
    obtain ⟨n, left, hloop, hleft⟩ := ends_of_counts hframe.interval hframe.positive hfinite
      fun hpos => counts_of_lt hframe.positive hpos hlt
    exact ⟨n, left, (due_eq_catchUp h0 hdelta).trans ((catchUp_eq_some_iff h0).2 hloop), hleft⟩

/-- A call for a frame leaves the burst settled. -/
theorem Settled.fire (hb : b.Settled) {call : Call} (hframe : b.pattern.IsFrame call.delta) (position : Vec3) :
    (b.fire call position).1.Settled := by
  have h0 : 0 < b.pattern.interval := (lt_iff rfl hframe.interval).2 hframe.positive
  obtain ⟨n, left, hdue, hleft⟩ := settles_of_frame hb hframe
  have hrange : left.isFinite ∧ 0 ≤ left.toRat := by
    by_cases hdelta : call.delta == 0
    · have hone : b.due call.delta = some (1, 0) := if_pos hdelta
      cases hone.symm.trans hdue
      exact ⟨rfl, le_rfl⟩
    · obtain ⟨hfinite, hnonneg, -⟩ := time_of_frame hb hframe
      rw [due_eq_catchUp h0 hdelta, catchUp_eq_some_iff h0] at hdue
      exact hdue.left_nonneg h0 hfinite hnonneg
  unfold Burst.fire
  rw [hdue]
  exact ⟨hrange.1, hrange.2, hleft⟩

/-- **Bursts that are called for frames catch up** in each of them: whatever frames there have been, the next call
ends, and leaves less than the interval. -/
theorem settles_of_frames {β : Type} [Target β] (p : Pattern) (calls : List (Call × β))
    (hcalls : ∀ c ∈ calls, p.IsFrame c.1.delta) {delta : Scalar} (hframe : p.IsFrame delta) :
    ((ofPattern p).after calls).Settles delta := by
  have h0 : 0 < p.interval := (lt_iff rfl hframe.interval).2 hframe.positive
  have hstart : (ofPattern p).Settled := ⟨within_zero.finite, toRat_zero.ge, h0⟩
  have hrun : ∀ b : Burst, b.pattern = p → b.Settled → (b.after calls).Settled := by
    induction calls with
    | nil => exact fun b _ hb => hb
    | cons c calls ih =>
      intro b hp hb
      rw [List.forall_mem_cons] at hcalls
      have hpattern := (isVolleys_fire b c.1 (Target.position c.2)).2
      exact ih hcalls.2 _ (hpattern.trans hp) (hb.fire (by rw [hp]; exact hcalls.1) _)
  have hpattern := pattern_after (ofPattern p) calls
  exact settles_of_frame (hrun _ rfl hstart) (by rw [hpattern]; exact hframe)

end Burst

end MotionScript
