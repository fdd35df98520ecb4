import MotionScript.Proofs.Curve.Spline
import MotionScript.Proofs.Curve.Shape

/-!
# Looking up a time

In a table whose times are in order, bisection finds how many waypoints are reached, and a time between the first
waypoint and the last one lies in the segment that is looked up for it.

* `bisect_eq`, `reachedCount_eq`: bisection counts the waypoints that are reached.
* `segmentEnd_eq`, `exists_segment`: the segment of a time is around it, and its index is not clamped.
* `within_position`: a path in order is nowhere far from its waypoints.
-/

namespace MotionScript.PathTable

open Scalar

variable {table : PathTable} {time : Scalar}

/-! ## Bisection -/

/-- Bisection ends at the last of the waypoints that are reached, or at the first waypoint if none is. -/
theorem bisect_eq {c : ℕ} (h : ∀ j, table.reached time j ↔ j < c) {base size : ℕ} (hbase : base ≤ c - 1)
    (hsize : c ≤ base + size) : table.bisect time base size = c - 1 := by
  induction size using Nat.strong_induction_on generalizing base with
  | _ size ih =>
    rw [bisect]
    by_cases hshort : size ≤ 1
    · rw [if_pos hshort]
      omega
    · rw [if_neg hshort]
      dsimp only
      by_cases hreached : table.reached time (base + size / 2)
      · have hhalf := (h _).1 hreached
        rw [if_pos hreached]
        exact ih (size - size / 2) (by omega) (by omega) (by omega)
      · have hhalf : ¬base + size / 2 < c := fun hlt => hreached ((h _).2 hlt)
        rw [if_neg hreached]
        exact ih (size - size / 2) (by omega) hbase (by omega)

/-- **Bisection counts the waypoints that are reached**, if none behind one that is not reached is. -/
theorem reachedCount_eq {c : ℕ} (hc : c ≤ table.waypoints.size) (h : ∀ j, table.reached time j ↔ j < c) :
    table.reachedCount time = c := by
  have hbisect := bisect_eq h (Nat.zero_le _) (by omega : c ≤ 0 + table.waypoints.size)
  have hlast := h (c - 1)
  unfold reachedCount
  dsimp only
  rw [hbisect]
  split
  · next hreached =>
    have := hlast.1 hreached
    omega
  · next hreached =>
    have hnone : ¬c - 1 < c := fun hlt => hreached (hlast.2 hlt)
    omega

/-! ## Times in order -/

/-- The times of a table are numbers, and they never decrease. -/
structure Ordered (table : PathTable) : Prop where
  numbers : ∀ w ∈ table.waypoints, ¬w.time.isNaN
  sorted : table.waypoints.toList.Pairwise fun a b => a.time ≤ b.time

theorem reached_iff {j : ℕ} : table.reached time j ↔ ∃ w, table.waypoints[j]? = some w ∧ w.time ≤ time := by
  unfold reached
  rw [Option.any_eq_true]
  simp only [decide_eq_true_eq]

theorem Ordered.le (h : Ordered table) {i j : ℕ} {a b : Waypoint} (ha : table.waypoints[i]? = some a)
    (hb : table.waypoints[j]? = some b) (hij : i < j) : a.time ≤ b.time := by
  obtain ⟨hi, rfl⟩ := Array.getElem?_eq_some_iff.1 ha
  obtain ⟨hj, rfl⟩ := Array.getElem?_eq_some_iff.1 hb
  have hsorted := List.pairwise_iff_getElem.1 h.sorted i j (by simpa using hi) (by simpa using hj) hij
  simpa using hsorted

/-- A waypoint before one that is reached is reached. -/
theorem Ordered.reached_of_le (h : Ordered table) {i j : ℕ} (hij : i ≤ j) (hj : table.reached time j) :
    table.reached time i := by
  rcases hij.lt_or_eq with hlt | rfl
  · obtain ⟨b, hb, hle⟩ := reached_iff.1 hj
    have hi : i < table.waypoints.size := hlt.trans (Array.getElem?_eq_some_iff.1 hb).1
    exact reached_iff.2 ⟨_, Array.getElem?_eq_getElem hi, le_trans (h.le (Array.getElem?_eq_getElem hi) hb hlt) hle⟩
  · exact hj

/-- **How many waypoints are reached** tells which. -/
theorem Ordered.reached_iff_lt (h : Ordered table) (j : ℕ) : table.reached time j ↔ j < table.reachedCount time := by
  have hexists : ∃ c, ¬table.reached time c := by
    refine ⟨table.waypoints.size, fun hreached => ?_⟩
    obtain ⟨w, hw, -⟩ := reached_iff.1 hreached
    have := (Array.getElem?_eq_some_iff.1 hw).1
    omega
  have hend : Nat.find hexists ≤ table.waypoints.size := by
    apply Nat.find_min'
    intro hreached
    obtain ⟨w, hw, -⟩ := reached_iff.1 hreached
    have := (Array.getElem?_eq_some_iff.1 hw).1
    omega
  have hcount : ∀ j, table.reached time j ↔ j < Nat.find hexists := by
    intro j
    constructor
    · intro hj
      by_contra hle
      exact Nat.find_spec hexists (h.reached_of_le (not_lt.1 hle) hj)
    · intro hj
      exact not_not.1 (Nat.find_min hexists hj)
  rw [reachedCount_eq hend hcount]
  exact hcount j

/-- The index of a segment between the ends of a table is not clamped. -/
theorem Ordered.segmentEnd_eq (h : Ordered table) {first last : Waypoint} (hfirst : table.waypoints[0]? = some first)
    (hlast : table.waypoints.back? = some last) (hlow : first.time ≤ time) (hhigh : ¬last.time ≤ time) :
    0 < table.reachedCount time ∧ table.reachedCount time < table.waypoints.size ∧
      table.segmentEnd time = table.reachedCount time := by
  rw [Array.back?_eq_getElem?] at hlast
  have hsize := (Array.getElem?_eq_some_iff.1 hlast).1
  have hstart : 0 < table.reachedCount time := (h.reached_iff_lt 0).1 (reached_iff.2 ⟨first, hfirst, hlow⟩)
  have hend : ¬table.waypoints.size - 1 < table.reachedCount time := by
    rw [← h.reached_iff_lt, reached_iff]
    rintro ⟨w, hw, hle⟩
    rw [hlast, Option.some.injEq] at hw
    rw [← hw] at hle
    exact hhigh hle
  unfold segmentEnd
  omega

/-- **The segment of a time** between the ends of a table is around it. -/
theorem Ordered.exists_segment (h : Ordered table) {first last : Waypoint} (hfirst : table.waypoints[0]? = some first)
    (hlast : table.waypoints.back? = some last) (hlow : first.time ≤ time) (hhigh : ¬last.time ≤ time) :
    ∃ a b, table.waypoints[table.segmentEnd time - 1]? = some a ∧ table.waypoints[table.segmentEnd time]? = some b ∧
      table.segment? time = some (a, b) ∧ a.time ≤ time ∧ ¬b.time ≤ time := by
  obtain ⟨hpos, hlt, hsegmentEnd⟩ := h.segmentEnd_eq hfirst hlast hlow hhigh
  obtain ⟨a, b, ha, hb, hsegment⟩ := @segment_eq table (by omega) time
  refine ⟨a, b, ha, hb, hsegment, ?_, ?_⟩
  · have hbefore : table.reached time (table.segmentEnd time - 1) := (h.reached_iff_lt _).2 (by omega)
    obtain ⟨w, hw, hle⟩ := reached_iff.1 hbefore
    rw [ha, Option.some.injEq] at hw
    rwa [hw]
  · intro hle
    have := (h.reached_iff_lt _).1 (reached_iff.2 ⟨b, hb, hle⟩)
    omega

/-! ## Positions -/

variable {k : ℕ}

theorem within_lerp {a b : Vec2} {s : Scalar} (ha : Vec2.Within k a) (hb : Vec2.Within k b) (hs : Scalar.Within 0 s)
    (hk : k + 2 < 128) : Vec2.Within (k + 2) (a.lerp b s) :=
  (ha.mono (Nat.le_succ k)).add ((hb.sub ha (by omega)).mul hs (by omega)) (by omega)

/-- How much of a span has passed is at most all of it, rounded or not, and none of a span without end. -/
theorem within_fraction {a b : Scalar} (ha : a.isFinite) (h0 : 0 ≤ a.toRat) (ht : time.isFinite) (hlow : a ≤ time)
    (hb : ¬b.isNaN) (hhigh : ¬b ≤ time) (hspan : ¬b - a ≤ 0) : Scalar.Within 0 ((time - a) / (b - a)) := by
  have hlt := lt_of_not_le hb (not_isNaN_of_isFinite ht) hhigh
  rw [le_iff ha ht] at hlow
  -- what is not negative does not overflow when something is taken off that is not negative either
  have hsub : ∀ {z : Scalar}, z.isFinite → a.toRat ≤ z.toRat →
      (z - a).isFinite ∧ (z - a).toRat = nearest (z.toRat - a.toRat) := by
    intro z hz hle
    have hnearest : |nearest (z.toRat + (-a).toRat)| < 2 ^ 128 := by
      rw [toRat_neg, abs_of_nonneg (nearest_nonneg (by linarith))]
      calc nearest (z.toRat + -a.toRat) ≤ nearest z.toRat := nearest_mono (by linarith)
        _ = z.toRat := nearest_toRat z
        _ < 2 ^ 128 := (le_abs_self _).trans_lt (abs_toRat_lt z)
    have hadd := toRat_add hz (isFinite_neg ha) hnearest
    have hneg : z.toRat + -a.toRat = z.toRat - a.toRat := by ring
    rwa [← sub_eq_add_neg, toRat_neg, hneg] at hadd
  obtain ⟨hpast, hpastval⟩ := hsub ht hlow
  rcases isFinite_or_infinity hb with hfin | hinf | hinf
  · rw [lt_iff ht hfin] at hlt
    obtain ⟨hall, hallval⟩ := hsub hfin (by linarith)
    rw [le_iff hall rfl, toRat_zero, not_le] at hspan
    have hle : (time - a).toRat ≤ (b - a).toRat := by
      rw [hpastval, hallval]
      exact nearest_mono (by linarith)
    have hpast0 : 0 ≤ (time - a).toRat := by
      rw [hpastval]
      exact nearest_nonneg (by linarith)
    refine (div_within hpast hall hspan.ne' ?_ (by norm_num)).1
    rw [abs_of_nonneg (by positivity), pow_zero]
    exact div_le_one_of_le₀ hle hspan.le
  · have hall : (b - a).parts = .infinity .positive := by
      rw [sub_eq_add_neg]
      exact infinity_add hinf (isFinite_neg ha)
    obtain ⟨s, hs⟩ := div_infinity hpast hall
    obtain ⟨hzero, hval⟩ := toRat_of_zero hs
    exact ⟨hzero, by rw [hval]; simp⟩
  · exact absurd hlt (not_lt_infinity hinf)

/-- In a table in order from zero on, the waypoints that are reached by a finite time have times that are finite and
not negative. -/
theorem Ordered.finite_of_le (h : Ordered table) {first a : Waypoint} (hfirst : table.waypoints[0]? = some first)
    (h0 : first.time.isFinite ∧ first.time.toRat = 0) (ha : a ∈ table.waypoints) (hle : a.time ≤ time)
    (ht : time.isFinite) : a.time.isFinite ∧ 0 ≤ a.time.toRat := by
  obtain ⟨i, ha⟩ := Array.mem_iff_getElem?.1 ha
  rcases Nat.eq_zero_or_pos i with rfl | hi
  · rw [hfirst, Option.some.injEq] at ha
    rw [← ha]
    exact ⟨h0.1, h0.2.ge⟩
  · rcases le_cases (h.le hfirst ha hi) with ⟨-, hfin, hval⟩ | ⟨hinf, -⟩ | ⟨-, hinf⟩
    · exact ⟨hfin, h0.2.ge.trans hval⟩
    · have hfin := h0.1
      rw [isFinite_eq, hinf] at hfin
      cases hfin
    · exact absurd (lt_infinity ht hinf) (not_lt_of_le hle)

/-- **A path in order is nowhere far from its waypoints.** -/
theorem Ordered.within_position (h : Ordered table) {first : Waypoint} (hfirst : table.waypoints[0]? = some first)
    (h0 : first.time.isFinite ∧ first.time.toRat = 0) (hw : ∀ w ∈ table.waypoints, Vec2.Within k w.position)
    (hk : k + 2 < 128) (ht : time.isFinite) : ∀ p ∈ table.position? time, Vec2.Within (k + 2) p := by
  intro p hp
  have hsize : 0 < table.waypoints.size := (Array.getElem?_eq_some_iff.1 hfirst).1
  obtain ⟨last, hlast⟩ : ∃ last, table.waypoints.back? = some last := by
    rw [Array.back?_eq_getElem?]
    exact ⟨_, Array.getElem?_eq_getElem (by omega)⟩
  have hwaypoint : ∀ w ∈ table.waypoints, Vec2.Within (k + 2) w.position := fun w hmem => (hw w hmem).mono (by omega)
  unfold position? at hp
  rw [hfirst, hlast] at hp
  simp only [Option.bind_eq_bind, Option.bind_some, Option.pure_def] at hp
  split at hp
  · cases hp
    exact hwaypoint last (Array.mem_of_back? hlast)
  · next hend =>
    split at hp
    · cases hp
      exact hwaypoint first (Array.mem_of_getElem? hfirst)
    · next hstart =>
      rw [le_iff ht h0.1, not_le] at hstart
      have hlow : first.time ≤ time := (le_iff h0.1 ht).2 hstart.le
      obtain ⟨a, b, ha, hb, hsegment, hleft, hright⟩ := h.exists_segment hfirst hlast hlow hend
      replace ha := Array.mem_of_getElem? ha
      replace hb := Array.mem_of_getElem? hb
      rw [hsegment] at hp
      simp only [Option.bind_some] at hp
      split at hp
      · cases hp
        exact hwaypoint b hb
      · next hspan =>
        cases hp
        obtain ⟨hfin, hnonneg⟩ := h.finite_of_le hfirst h0 ha hleft ht
        have hpart := within_fraction hfin hnonneg ht hleft (h.numbers b hb) hright hspan
        exact within_lerp (hw a ha) (hw b hb) hpart hk

end MotionScript.PathTable
