import MotionScript.Proofs.Curve.Search

/-!
# The times of a path

The times of a table are the lengths of the way to its waypoints, summed up with rounding, times a factor. The sums
never decrease and never grow beyond bounds, however many there are; what can go wrong is the factor.

* `measured_rising`: the lengths of the way are finite and never decrease.
* `Held`, `Paced`: a path that is not divided, and one whose lengths can be turned to times.
* `playable_build_iff`: the times of a path are in order, and it is at a finite point at any time, just if it is held
  or paced.
-/

namespace MotionScript.PathTable

open Scalar

variable {k : ℕ}

/-! ## Lengths -/

/-- A length so great is not moved by a step, which is less than the half of its last place. -/
theorem nearest_two_pow_add (j : ℕ) : nearest (2 ^ (j + 25) + 2 ^ j) = 2 ^ (j + 25) := by
  have hsum : (2 : ℚ) ^ (j + 25) + 2 ^ j = (2 ^ 25 + 1 : ℕ) * 2 ^ (j : ℤ) := by
    rw [zpow_natCast, pow_add]
    push_cast
    ring
  have hplace : lastPlace ((2 ^ 25 + 1 : ℕ) * 2 ^ (j : ℤ)) = j + 2 := by
    rw [lastPlace_natCast_mul (by norm_num), show Nat.log2 (2 ^ 25 + 1) = 25 by decide +kernel]
    omega
  have hround : halfEven ((2 ^ 25 + 1) / 4) = 2 ^ 23 := by
    have hfloor : ⌊((2 : ℚ) ^ 25 + 1) / 4⌋ = 2 ^ 23 := by
      rw [Int.floor_eq_iff]
      norm_num
    unfold halfEven
    rw [hfloor, if_pos (by norm_num)]
  have hunit : ((2 ^ 25 + 1 : ℕ) : ℚ) * 2 ^ (j : ℤ) / 2 ^ ((j : ℤ) + 2) = (2 ^ 25 + 1) / 4 := by
    rw [zpow_add₀ two_ne_zero]
    push_cast
    field_simp
    norm_num
  rw [hsum, nearest, if_neg (not_lt.2 (by positivity)), nearestPos, hplace, hunit, hround, zpow_add₀ two_ne_zero,
    zpow_natCast]
  push_cast
  ring

/-- **A sum of lengths never grows beyond bounds**: at last the steps are too short to be added. -/
theorem within_add_step {total step : Scalar} {j : ℕ} (ht : Scalar.Within (j + 25) total) (ht0 : 0 ≤ total.toRat)
    (hs : Scalar.Within j step) (hs0 : 0 ≤ step.toRat) (hj : j + 25 < 128) :
    Scalar.Within (j + 25) (total + step) ∧ total.toRat ≤ (total + step).toRat := by
  have hlow : total.toRat ≤ nearest (total.toRat + step.toRat) :=
    calc total.toRat = nearest total.toRat := (nearest_toRat total).symm
      _ ≤ nearest (total.toRat + step.toRat) := nearest_mono (by linarith)
  have hhigh : nearest (total.toRat + step.toRat) ≤ 2 ^ (j + 25) :=
    calc nearest (total.toRat + step.toRat) ≤ nearest (2 ^ (j + 25) + 2 ^ j) :=
          nearest_mono (add_le_add ((le_abs_self _).trans ht.abs_le) ((le_abs_self _).trans hs.abs_le))
      _ = 2 ^ (j + 25) := nearest_two_pow_add j
  have habs : |nearest (total.toRat + step.toRat)| ≤ 2 ^ (j + 25) := by
    rwa [abs_of_nonneg (ht0.trans hlow)]
  have hlt : |nearest (total.toRat + step.toRat)| < 2 ^ 128 := habs.trans_lt (two_pow_lt hj)
  obtain ⟨hfin, hval⟩ := toRat_add ht.finite hs.finite hlt
  rw [← hval] at habs hlow
  exact ⟨⟨hfin, habs⟩, hlow⟩

/-- The times of waypoints are finite from a number on, and never decrease. -/
structure Rising (start : ℚ) (ws : List Waypoint) : Prop where
  finite : ∀ w ∈ ws, w.time.isFinite
  le : ∀ w ∈ ws, start ≤ w.time.toRat
  sorted : ws.Pairwise fun a b => a.time.toRat ≤ b.time.toRat

theorem Rising.cons {start : ℚ} {w : Waypoint} {ws : List Waypoint} (hf : w.time.isFinite) (hle : start ≤ w.time.toRat)
    (h : Rising w.time.toRat ws) : Rising start (w :: ws) := by
  refine ⟨?_, ?_, List.pairwise_cons.2 ⟨h.le, h.sorted⟩⟩
  · rintro v (_ | ⟨_, hv⟩)
    · exact hf
    · exact h.finite v hv
  · rintro v (_ | ⟨_, hv⟩)
    · exact hle
    · exact hle.trans (h.le v hv)

theorem lengths_rising {points : List Vec2} (h : ∀ p ∈ points, Vec2.Within k p) {previous : Vec2}
    (hprevious : Vec2.Within k previous) {total : Scalar} (htotal : Scalar.Within (k + 2 + 25) total)
    (h0 : 0 ≤ total.toRat) (hk : 2 * k + 4 < 128) (hk' : k + 2 + 25 < 128) :
    Rising total.toRat (lengths total previous points) := by
  induction points generalizing total previous with
  | nil => exact ⟨by simp [lengths], by simp [lengths], List.Pairwise.nil⟩
  | cons p ps ih =>
    obtain ⟨hstep, hstep0⟩ := Vec2.within_distance hprevious (h p List.mem_cons_self) hk
    obtain ⟨hsum, hle⟩ := within_add_step htotal h0 hstep hstep0 hk'
    have hrest := ih (fun q hq => h q (List.mem_cons_of_mem p hq)) (h p List.mem_cons_self) hsum (h0.trans hle)
    exact Rising.cons (w := ⟨p, _⟩) hsum.finite hle hrest

/-- **The lengths of the way** to the points of a polyline are finite and never decrease. -/
theorem measured_rising {line : List Vec2} (h : ∀ p ∈ line, Vec2.Within k p) (hk : 2 * k + 4 < 128)
    (hk' : k + 2 + 25 < 128) : Rising 0 (measured line) := by
  cases line with
  | nil => exact ⟨by simp [measured], by simp [measured], List.Pairwise.nil⟩
  | cons p ps =>
    have hrest := lengths_rising (fun q hq => h q (List.mem_cons_of_mem p hq)) (h p List.mem_cons_self)
      (within_zero.mono (Nat.zero_le _)) toRat_zero.ge hk hk'
    exact Rising.cons (w := ⟨p, 0⟩) within_zero.finite toRat_zero.ge hrest

/-! ## Times -/

/-- The factor that turns the lengths of a polyline to times. -/
def pace (duration : Scalar) (line : List Vec2) : Scalar := Scalar.max duration 0 / total line

/-- **A path is held** at its first point: its way is too short to be divided. -/
def Held (line : List Vec2) : Prop := line.length < 2 ∨ total line ≤ 1e-4

/-- **A path is paced** if its lengths can be turned to times: the factor is finite, and the last waypoint but one,
whose time is rounded, is not reached after the end. -/
structure Paced (duration : Scalar) (line : List Vec2) : Prop where
  finite : (pace duration line).isFinite
  last : ∀ w ∈ (measured line).dropLast.getLast?, w.time * pace duration line ≤ Scalar.max duration 0

theorem fill_of_held {line : List Vec2} (h : Held line) (anchor : Vec2) (duration : Scalar) :
    empty.fill line anchor duration = ⟨#[⟨anchor, 0⟩, ⟨anchor, Scalar.max duration 0⟩]⟩ := by
  rw [fill_eq, length_measured]
  exact if_pos h

theorem fill_of_not_held {line : List Vec2} (h : ¬Held line) (anchor : Vec2) (duration : Scalar) :
    empty.fill line anchor duration =
      ⟨(timed (pace duration line) (Scalar.max duration 0) (measured line)).toArray⟩ := by
  rw [fill_eq, length_measured]
  exact if_neg h

theorem timed_concat (scale duration : Scalar) (before : List Waypoint) (last : Waypoint) :
    timed scale duration (before ++ [last]) =
      before.map (fun w => { w with time := w.time * scale }) ++ [{ last with time := duration }] := by
  induction before with
  | nil => rfl
  | cons w ws ih =>
    cases ws with
    | nil => rfl
    | cons w' ws => exact congrArg (_ :: ·) ih

/-- A polyline that is not held has a first waypoint, a last one, and a length that is positive. -/
theorem measured_of_not_held {line : List Vec2} (h : ¬Held line) (hrising : Rising 0 (measured line)) :
    ∃ p inner last, measured line = (⟨p, 0⟩ :: inner) ++ [last] ∧ total line = last.time ∧ last.time.isFinite ∧
      0 < last.time.toRat := by
  rw [Held, not_or, not_lt] at h
  obtain ⟨hlong, hlength⟩ := h
  rcases line with _ | ⟨p, rest⟩
  · exact absurd hlong (by decide)
  · rcases List.eq_nil_or_concat (lengths 0 p rest) with hnil | ⟨inner, last, hconcat⟩
    · have hlengths := map_position_lengths 0 p rest
      rw [hnil, List.map_nil] at hlengths
      rw [← hlengths] at hlong
      exact absurd hlong (by simp)
    · have hmeasured : measured (p :: rest) = (⟨p, 0⟩ :: inner) ++ [last] := by
        rw [measured, hconcat, List.concat_eq_append, List.cons_append]
      have htotal : total (p :: rest) = last.time := by
        rw [total, hmeasured, List.getLast?_concat]
        rfl
      have hfin := hrising.finite last (by simp [hmeasured])
      refine ⟨p, inner, last, hmeasured, htotal, hfin, ?_⟩
      -- what is greater than the least length is greater than zero
      by_contra hle
      rw [htotal] at hlength
      have hleast : (0 : Scalar) ≤ 1e-4 := by decide +kernel
      exact hlength (le_trans ((le_iff hfin within_zero.finite).2 (not_lt.1 hle)) hleast)

/-- The duration of a table is not negative; it may be infinite. -/
theorem max_zero_cases (duration : Scalar) :
    (Scalar.max duration 0).isFinite ∧ 0 ≤ (Scalar.max duration 0).toRat ∨
      (Scalar.max duration 0).parts = .infinity .positive := by
  by_cases hpos : 0 < duration
  · rw [max_zero_of_pos hpos]
    rcases isFinite_or_infinity (not_isNaN_of_lt hpos) with hf | hinf | hinf
    · exact .inl ⟨hf, ((lt_iff within_zero.finite hf).1 hpos).le⟩
    · exact .inr hinf
    · exact absurd hpos (not_lt_infinity hinf)
  · rw [max_zero_of_not_pos hpos]
    exact .inl ⟨within_zero.finite, toRat_zero.ge⟩

/-- Lengths that are turned to times by a finite factor never decrease up to the end, if the last of them does not go
beyond it. -/
theorem Rising.timed {before : List Waypoint} (h : Rising 0 before) {scale finish : Scalar} (hs : scale.isFinite)
    (hs0 : 0 ≤ scale.toRat) (hf : finish.isFinite) (hf0 : 0 ≤ finish.toRat)
    (hlast : ∀ w ∈ before.getLast?, w.time * scale ≤ finish) (last : Waypoint) :
    Rising 0 (timed scale finish (before ++ [last])) := by
  have hvalue : ∀ w ∈ before, (w.time * scale).isFinite ∧ (w.time * scale).toRat = nearest (w.time.toRat * scale.toRat) ∧
      (w.time * scale).toRat ≤ finish.toRat := by
    intro w hw
    obtain ⟨inner, last, rfl⟩ : ∃ inner last, before = inner ++ [last] := by
      rcases List.eq_nil_or_concat before with rfl | ⟨inner, last, rfl⟩
      · cases hw
      · exact ⟨inner, last, List.concat_eq_append⟩
    have hbound := hlast last (by simp)
    have hmem : last ∈ inner ++ [last] := by simp
    have hle : w.time.toRat ≤ last.time.toRat := by
      rcases List.mem_append.1 hw with hin | hin
      · exact (List.pairwise_append.1 h.sorted).2.2 w hin last (by simp)
      · rw [List.mem_singleton.1 hin]
    -- no product is greater than that of the last of them, which does not overflow
    have hprod : w.time.toRat * scale.toRat ≤ last.time.toRat * scale.toRat := mul_le_mul_of_nonneg_right hle hs0
    have hprod0 : 0 ≤ w.time.toRat * scale.toRat := mul_nonneg (h.le w hw) hs0
    rcases mul_cases (h.finite last hmem) hs (hprod0.trans hprod) with ⟨hfin, hval⟩ | hinf
    · rw [le_iff hfin hf, hval] at hbound
      have hnearest := (nearest_mono hprod).trans hbound
      have habs : |nearest (w.time.toRat * scale.toRat)| < 2 ^ 128 := by
        rw [abs_of_nonneg (nearest_nonneg hprod0)]
        exact hnearest.trans_lt ((le_abs_self _).trans_lt (abs_toRat_lt finish))
      obtain ⟨hfin', hval'⟩ := (mul_holds (h.finite w hw) hs).ofParts habs
      exact ⟨hfin', hval', hval'.trans_le hnearest⟩
    · exact absurd (lt_infinity hf hinf) (not_lt_of_le hbound)
  rw [timed_concat]
  refine ⟨?_, ?_, ?_⟩
  · simp only [List.forall_mem_append, List.forall_mem_map, List.forall_mem_singleton]
    exact ⟨fun w hw => (hvalue w hw).1, hf⟩
  · simp only [List.forall_mem_append, List.forall_mem_map, List.forall_mem_singleton]
    refine ⟨fun w hw => ?_, hf0⟩
    rw [(hvalue w hw).2.1]
    exact nearest_nonneg (mul_nonneg (h.le w hw) hs0)
  · simp only [List.pairwise_append, List.pairwise_map, List.pairwise_singleton, List.forall_mem_map,
      List.forall_mem_singleton, true_and]
    refine ⟨h.sorted.imp_of_mem fun {v w} hv hw hle => ?_, fun w hw => (hvalue w hw).2.2⟩
    rw [(hvalue v hv).2.1, (hvalue w hw).2.1]
    exact nearest_mono (mul_le_mul_of_nonneg_right hle hs0)

theorem Rising.ordered {start : ℚ} {ws : List Waypoint} (h : Rising start ws) : Ordered ⟨ws.toArray⟩ where
  numbers w hw := not_isNaN_of_isFinite (h.finite w (by simpa using hw))
  sorted := h.sorted.imp_of_mem fun hv hw hle => (le_iff (h.finite _ hv) (h.finite _ hw)).2 hle

/-! ## Playing a path -/

/-- **A table can be played** for a duration: its times are in order, from zero to the duration, and at any finite
time it is at a point with finite coordinates. -/
structure Playable (table : PathTable) (duration : Scalar) : Prop extends Ordered table where
  start : ∃ first, table.waypoints[0]? = some first ∧ first.time == 0
  finish : ∃ last, table.waypoints.back? = some last ∧ last.time = Scalar.max duration 0
  somewhere : ∀ time : Scalar, time.isFinite →
    ∃ p, table.position? time = some p ∧ p.x.isFinite ∧ p.y.isFinite

variable {table : PathTable} {duration : Scalar} {line : List Vec2} {anchor : Vec2}

/-- A table in order is somewhere at any time. -/
theorem Ordered.playable (h : Ordered table) (hstart : ∃ first, table.waypoints[0]? = some first ∧ first.time == 0)
    (hfinish : ∃ last, table.waypoints.back? = some last ∧ last.time = Scalar.max duration 0)
    (hw : ∀ w ∈ table.waypoints, Vec2.Within k w.position) (hk : k + 2 < 128) : table.Playable duration := by
  refine ⟨h, hstart, hfinish, fun time ht => ?_⟩
  obtain ⟨first, hfirst, hzero⟩ := hstart
  obtain ⟨s, hs⟩ := beq_zero_iff.1 hzero
  have hne : table.waypoints ≠ #[] := by
    intro hempty
    rw [hempty] at hfirst
    cases hfirst
  obtain ⟨p, hp⟩ := exists_position hne time
  have hwithin := h.within_position hfirst (toRat_of_zero hs) hw hk ht p hp
  exact ⟨p, hp, hwithin.x.finite, hwithin.y.finite⟩

/-- A path that is held is somewhere at any time, even without end. -/
theorem playable_of_held (h : Held line) (ha : Vec2.Within k anchor) (hk : k + 2 < 128) :
    (empty.fill line anchor duration).Playable duration := by
  rw [fill_of_held h]
  have hnan : ¬(Scalar.max duration 0).isNaN ∧ 0 ≤ Scalar.max duration 0 := by
    rcases max_zero_cases duration with ⟨hf, h0⟩ | hinf
    · exact ⟨not_isNaN_of_isFinite hf, (le_iff within_zero.finite hf).2 (toRat_zero.trans_le h0)⟩
    · refine ⟨?_, le_infinity (not_isNaN_of_isFinite within_zero.finite) hinf⟩
      rw [isNaN_eq, hinf]
      exact Bool.false_ne_true
  refine Ordered.playable ⟨?_, ?_⟩ ⟨_, rfl, zero_beq_zero⟩ ⟨_, rfl, rfl⟩ (k := k) ?_ hk
  · intro w hw
    simp only [List.mem_toArray, List.mem_cons, List.not_mem_nil, or_false] at hw
    rcases hw with rfl | rfl
    · exact not_isNaN_of_isFinite within_zero.finite
    · exact hnan.1
  · simpa using hnan.2
  · intro w hw
    simp only [List.mem_toArray, List.mem_cons, List.not_mem_nil, or_false] at hw
    rcases hw with rfl | rfl
    · exact ha
    · exact ha

/-- Waypoints are at points of the outline. -/
theorem within_waypoints (ha : Vec2.Within k anchor) (hline : ∀ p ∈ line, Vec2.Within k p) :
    ∀ w ∈ (empty.fill line anchor duration).waypoints, Vec2.Within k w.position := by
  intro w hw
  have hmem : w.position ∈ (empty.fill line anchor duration).positions := List.mem_map_of_mem (Array.mem_toList_iff.2 hw)
  rcases positions_fill line anchor duration with hheld | ⟨-, hpoints⟩
  · rw [hheld] at hmem
    simp only [List.mem_cons, List.not_mem_nil, or_false, or_self] at hmem
    rwa [hmem]
  · rw [hpoints] at hmem
    exact hline _ hmem

/-- **A path that is not held can be played just if it is paced.** -/
theorem playable_iff_paced (h : ¬Held line) (ha : Vec2.Within k anchor) (hline : ∀ p ∈ line, Vec2.Within k p)
    (hk : 2 * k + 4 < 128) (hk' : k + 2 + 25 < 128) :
    (empty.fill line anchor duration).Playable duration ↔ Paced duration line := by
  have hrising := measured_rising hline hk hk'
  have hwithin : ∀ w ∈ (empty.fill line anchor duration).waypoints, Vec2.Within k w.position := within_waypoints ha hline
  obtain ⟨p, inner, last, hmeasured, htotal, hlast, hpos⟩ := measured_of_not_held h hrising
  rw [fill_of_not_held h, hmeasured] at hwithin ⊢
  rw [hmeasured] at hrising
  have hpart : Rising 0 (⟨p, 0⟩ :: inner) :=
    ⟨fun w hw => hrising.finite w (List.mem_append_left _ hw), fun w hw => hrising.le w (List.mem_append_left _ hw),
      (List.pairwise_append.1 hrising.sorted).1⟩
  constructor
  · intro hplay
    rw [timed_concat] at hplay
    refine ⟨?_, ?_⟩
    · -- the first time is a multiple of zero
      have hfirst := hplay.numbers ⟨p, 0 * pace duration line⟩ (by simp)
      exact isFinite_of_zero_mul parts_zero hfirst
    · intro w hw
      rw [hmeasured, List.dropLast_concat] at hw
      have hsorted := (List.pairwise_append.1 hplay.sorted).2.2
      simp only [List.forall_mem_map, List.mem_singleton, forall_eq] at hsorted
      exact hsorted w (List.mem_of_getLast? hw)
  · rintro ⟨hfin, hbefore⟩
    rw [hmeasured, List.dropLast_concat] at hbefore
    -- an infinite duration would make the factor infinite
    have hduration : (Scalar.max duration 0).isFinite ∧ 0 ≤ (Scalar.max duration 0).toRat := by
      rcases max_zero_cases duration with hfinite | hinf
      · exact hfinite
      · rw [pace, htotal] at hfin
        exact absurd hfin (infinity_div hinf hlast)
    have hpace : 0 ≤ (pace duration line).toRat := by
      have hholds := div_holds hduration.1 hlast hpos.ne'
      rw [pace, htotal] at hfin ⊢
      rw [div_def, hholds.toRat_of_isFinite hfin]
      exact nearest_nonneg (div_nonneg hduration.2 hpos.le)
    have htimes := hpart.timed hfin hpace hduration.1 hduration.2 hbefore last
    refine htimes.ordered.playable ?_ ?_ hwithin (by omega)
    · exact ⟨⟨p, 0 * pace duration line⟩, by rw [timed_concat]; rfl, mul_beq_zero zero_beq_zero hfin⟩
    · refine ⟨{ last with time := Scalar.max duration 0 }, ?_, rfl⟩
      rw [timed_concat, List.back?_toArray, List.getLast?_concat]

/-! ## Paths of script files -/

/-- The outline of a path is not far from its control points. -/
theorem within_outline {points : List Vec2} (h : ∀ p ∈ points, Vec2.Within k p) (hk : k + 36 < 128)
    {interpolation : Interpolation} (hlength : interpolation = .spline → points.length < 2 ^ 31)
    (settings : CurveSettings) : ∀ p ∈ outline points interpolation settings, Vec2.Within (k + 36) p := by
  intro p hp
  cases interpolation with
  | spline =>
    rw [outline_spline] at hp
    split at hp
    · next hdrawable =>
      have hcount := mul_lt_of_drawable hdrawable
      exact Spline.within_samples h hk (hlength rfl) hcount.le p ((Polyline.reduce_sublist _ _).subset hp)
    · cases hp
  | linear => exact (h p ((Polyline.reduce_sublist _ _).subset hp)).mono (by omega)

theorem within_million {x : Scalar} (hf : x.isFinite) (h : |x.toRat| ≤ 10 ^ 6) : Scalar.Within 20 x :=
  ⟨hf, h.trans (by norm_num)⟩

/-- **When a path can be played.** Let its control points be finite, with coordinates of a million at most. Then its
times are in order, from zero to its duration, and it is at a finite point at any finite time, just if it is held or
paced. The knots of a spline are numbered by a word, so a spline has no more points than the word counts. -/
theorem playable_build_iff {points : List Vec2} (hpoints : points ≠ [])
    (hfinite : ∀ p ∈ points, p.x.isFinite ∧ p.y.isFinite)
    (hbound : ∀ p ∈ points, |p.x.toRat| ≤ 10 ^ 6 ∧ |p.y.toRat| ≤ 10 ^ 6) (duration : Scalar)
    (interpolation : Interpolation) (hlength : interpolation = .spline → points.length < 2 ^ 31)
    (settings : CurveSettings) :
    (build points duration interpolation settings).Playable duration ↔
      Held (outline points interpolation settings) ∨ Paced duration (outline points interpolation settings) := by
  have hwithin : ∀ p ∈ points, Vec2.Within 20 p := fun p hp =>
    ⟨within_million (hfinite p hp).1 (hbound p hp).1, within_million (hfinite p hp).2 (hbound p hp).2⟩
  have hline := within_outline hwithin (by norm_num) hlength settings
  cases points with
  | nil => exact absurd rfl hpoints
  | cons anchor rest =>
    have hanchor : Vec2.Within 56 anchor := (hwithin anchor List.mem_cons_self).mono (by norm_num)
    rw [build_cons]
    by_cases hheld : Held (outline (anchor :: rest) interpolation settings)
    · exact iff_of_true (playable_of_held hheld hanchor (by norm_num)) (.inl hheld)
    · rw [playable_iff_paced hheld hanchor hline (by norm_num) (by norm_num), or_iff_right hheld]

/-- Two seconds on a straight way. -/
theorem playable_straight : (build [⟨0, 0⟩, ⟨10, 0⟩] 2 .linear {}).Playable 2 :=
  (playable_build_iff (List.cons_ne_nil _ _) (by decide +kernel) (by decide +kernel) 2 .linear (by decide) {}).2
    (.inr ⟨by decide +kernel, by decide +kernel⟩)

/-- **Some durations cannot be played.** The factor of a duration without end is infinite, and so is that of a long
duration on a short way; the first time is then no number, and the path is nowhere. The factor of a very short duration
is rounded up to a number much greater, and the last waypoint but one is reached after the end. -/
theorem unplayable_durations :
    ¬(build [⟨0, 0⟩, ⟨10, 0⟩] infinity .linear {}).Playable infinity ∧
    ¬(build [⟨0, 0⟩, ⟨0.1, 0⟩] 1e38 .linear {}).Playable 1e38 ∧
    ¬(build [⟨0, 0⟩, ⟨90, 0⟩, ⟨90, 10⟩] 8.4e-44 .linear {}).Playable 8.4e-44 := by
  refine ⟨fun h => ?_, fun h => ?_, fun h => ?_⟩
  · obtain ⟨p, hp, hx, -⟩ := h.somewhere 1 rfl
    have hnowhere : (build [⟨0, 0⟩, ⟨10, 0⟩] infinity .linear {}).position? 1 = some ⟨nan, nan⟩ := by decide +kernel
    rw [hnowhere] at hp
    cases hp
    cases hx
  · obtain ⟨p, hp, hx, -⟩ := h.somewhere 1 rfl
    have hnowhere : (build [⟨0, 0⟩, ⟨0.1, 0⟩] 1e38 .linear {}).position? 1 = some ⟨nan, nan⟩ := by decide +kernel
    rw [hnowhere] at hp
    cases hp
    cases hx
  · exact absurd h.sorted (by decide +kernel)

end MotionScript.PathTable
