import MotionScript.Proofs.Curve.Search
import MotionScript.Proofs.Scalar.Difference

/-!
# Looking up is exact

Between the ends of a table in order, bisection finds what looking through the waypoints one by one finds: the one
segment around a time. A path takes its position and its direction from the same segment, whose span is positive, and
at the time of a waypoint it is at that waypoint.

* `scan`, `Around`: the first waypoint beyond a time, one by one, and the segments around a time.
* `reachedCount_eq_scan`, `around_iff`: bisection finds the same waypoint, and there is no other segment.
* `segmentEnd_mono`: later times are not in earlier segments.
* `position_eq_lerp`: the guard of a span that is not positive is never met.
* `lookup_exact`: all of it together.
-/

namespace MotionScript.PathTable

open Scalar

variable {table : PathTable} {time : Scalar}

/-! ## One by one -/

/-- The index of the first waypoint beyond a time, if the waypoints are looked through one by one. -/
def scan (table : PathTable) (time : Scalar) : ℕ := table.waypoints.toList.findIdx fun w => time < w.time

/-- The segment that ends at an index is around a time: it begins at the time or before, and ends after it. -/
structure Around (table : PathTable) (time : Scalar) (index : ℕ) : Prop where
  pos : 1 ≤ index
  start : ∃ a, table.waypoints[index - 1]? = some a ∧ a.time ≤ time
  finish : ∃ b, table.waypoints[index]? = some b ∧ time < b.time

/-- A waypoint is the last one of its time. -/
structure LastAt (table : PathTable) (time : Scalar) (index : ℕ) (w : Waypoint) : Prop where
  at_index : table.waypoints[index]? = some w
  time_eq : w.time == time
  last : ∀ j v, index < j → table.waypoints[j]? = some v → ¬v.time == time

/-- The differences of the coordinates of neighbours are finite. -/
def FiniteSteps (table : PathTable) : Prop :=
  ∀ i a b, table.waypoints[i]? = some a → table.waypoints[i + 1]? = some b →
    (b.position.x - a.position.x).isFinite ∧ (b.position.y - a.position.y).isFinite

/-- A waypoint is beyond a time just if it is not reached by it. -/
theorem Ordered.lt_iff_not_reached (h : Ordered table) (ht : ¬time.isNaN) {j : ℕ} {w : Waypoint}
    (hw : table.waypoints[j]? = some w) : time < w.time ↔ ¬j < table.reachedCount time := by
  rw [← h.reached_iff_lt, reached_iff]
  constructor
  · rintro hlt ⟨v, hv, hle⟩
    rw [hw, Option.some.injEq] at hv
    rw [← hv] at hle
    exact not_lt_of_le hle hlt
  · intro hnot
    exact lt_of_not_le (h.numbers w (Array.mem_of_getElem? hw)) ht fun hle => hnot ⟨w, hw, hle⟩

/-- **Bisection finds what looking one by one finds.** -/
theorem Ordered.reachedCount_eq_scan (h : Ordered table) (ht : ¬time.isNaN)
    (hlt : table.reachedCount time < table.waypoints.size) : table.reachedCount time = table.scan time := by
  symm
  have hlength : table.reachedCount time < table.waypoints.toList.length := by rwa [Array.length_toList]
  unfold scan
  rw [List.findIdx_eq hlength]
  constructor
  · rw [decide_eq_true_eq, Array.getElem_toList]
    exact (h.lt_iff_not_reached ht (Array.getElem?_eq_getElem hlt)).2 (lt_irrefl _)
  · intro j hj
    have hsize : j < table.waypoints.size := hj.trans hlt
    rw [decide_eq_false_iff_not, Array.getElem_toList]
    exact fun hbeyond => (h.lt_iff_not_reached ht (Array.getElem?_eq_getElem hsize)).1 hbeyond hj

/-- **There is no other segment around a time.** -/
theorem Ordered.around_iff (h : Ordered table) (ht : ¬time.isNaN) (hpos : 0 < table.reachedCount time)
    (hlt : table.reachedCount time < table.waypoints.size) (i : ℕ) :
    table.Around time i ↔ i = table.reachedCount time := by
  constructor
  · rintro ⟨hone, ⟨a, ha, hle⟩, ⟨b, hb, hbeyond⟩⟩
    have hstart := (h.reached_iff_lt _).1 (reached_iff.2 ⟨a, ha, hle⟩)
    have hfinish := (h.lt_iff_not_reached ht hb).1 hbeyond
    omega
  · rintro rfl
    refine ⟨hpos, reached_iff.1 ((h.reached_iff_lt _).2 (by omega)), ?_⟩
    have hat := Array.getElem?_eq_getElem hlt
    exact ⟨_, hat, (h.lt_iff_not_reached ht hat).2 (lt_irrefl _)⟩

/-! ## Later times -/

theorem Ordered.reachedCount_mono (h : Ordered table) {later : Scalar} (hle : time ≤ later) :
    table.reachedCount time ≤ table.reachedCount later := by
  by_contra hlt
  obtain ⟨w, hw, hreached⟩ := reached_iff.1 ((h.reached_iff_lt _).2 (not_le.1 hlt))
  have := (h.reached_iff_lt _).1 (reached_iff.2 ⟨w, hw, Scalar.le_trans hreached hle⟩)
  omega

/-- **A later time is in no earlier segment.** -/
theorem Ordered.segmentEnd_mono (h : Ordered table) {later : Scalar} (hle : time ≤ later) :
    table.segmentEnd time ≤ table.segmentEnd later := by
  have := h.reachedCount_mono hle
  unfold segmentEnd
  omega

/-! ## The way between two waypoints -/

/-- **The span of a segment is positive**: a position between the ends is on the way from one waypoint to the next. -/
theorem position_eq_lerp {first last a b : Waypoint} (hfirst : table.waypoints[0]? = some first)
    (hlast : table.waypoints.back? = some last) (hlow : first.time < time) (hhigh : time < last.time)
    (hsegment : table.segment? time = some (a, b)) (hspan : 0 < b.time - a.time) :
    table.position? time = some (a.position.lerp b.position ((time - a.time) / (b.time - a.time))) := by
  unfold position?
  rw [hfirst, hlast, hsegment]
  simp only [Option.bind_eq_bind, Option.bind_some, if_neg (not_le_of_lt hhigh), if_neg (not_le_of_lt hlow),
    if_neg (not_le_of_lt hspan)]
  rfl

/-- None of the way is no way at all. -/
theorem lerp_beq {a b : Vec2} {s : Scalar} (hx : (b.x - a.x).isFinite) (hy : (b.y - a.y).isFinite) (hs : s == 0) :
    (a.lerp b s).x == a.x ∧ (a.lerp b s).y == a.y := by
  have hstart : ∀ {p q : Scalar}, (q - p).isFinite → p + (q - p) * s == p := by
    intro p q hstep
    exact (sameNumber_add_mul_zero hstep hs).beq (isFinite_of_sub hstep).2
  exact ⟨hstart hx, hstart hy⟩

/-- The last waypoint of a time begins the segment of that time. -/
theorem Ordered.eq_of_lastAt (h : Ordered table) {i : ℕ} {w : Waypoint} (hw : table.LastAt time i w) :
    i + 1 = table.reachedCount time := by
  obtain ⟨hle, hge⟩ := beq_iff.1 hw.time_eq
  have hlow := (h.reached_iff_lt i).1 (reached_iff.2 ⟨w, hw.at_index, hle⟩)
  by_contra hne
  -- a waypoint behind it that is reached as well would have the same time
  have hlater : table.reached time (i + 1) := (h.reached_iff_lt _).2 (by omega)
  obtain ⟨v, hv, hreached⟩ := reached_iff.1 hlater
  have hwv := h.le hw.at_index hv (Nat.lt_succ_self i)
  exact hw.last _ v (Nat.lt_succ_self i) hv (beq_iff.2 ⟨hreached, Scalar.le_trans hge hwv⟩)

/-- **Looking up is exact.** Let the times of a table be in order, and a time be between the first of them and the
last. Bisection finds the same waypoint as looking one by one, the end of the one segment around the time, and the
index is not clamped. The span of that segment is positive, the position is on the way between its ends, and the
direction is that of the same segment. Later times are not in earlier segments. At the time of a waypoint the path is
where the last waypoint of that time is, if the way between neighbours is finite. -/
theorem lookup_exact (h : Ordered table) {first last : Waypoint} (hfirst : table.waypoints[0]? = some first)
    (hlast : table.waypoints.back? = some last) (hlow : first.time < time) (hhigh : time < last.time) :
    table.reachedCount time = table.scan time ∧
    (∀ i, table.Around time i ↔ i = table.reachedCount time) ∧
    table.segmentEnd time = table.reachedCount time ∧
    (∃ a b, table.waypoints[table.segmentEnd time - 1]? = some a ∧ table.waypoints[table.segmentEnd time]? = some b ∧
      0 < b.time - a.time ∧ ¬b.time - a.time ≤ 0 ∧
      table.position? time = some (a.position.lerp b.position ((time - a.time) / (b.time - a.time))) ∧
      table.heading? time = Vec2.unit? (b.position - a.position)) ∧
    (∀ later, time ≤ later → table.segmentEnd time ≤ table.segmentEnd later) ∧
    (table.FiniteSteps → ∀ i w, table.LastAt time i w →
      ∃ p, table.position? time = some p ∧ p.x == w.position.x ∧ p.y == w.position.y) := by
  have ht : time.isFinite := isFinite_of_lt_of_lt hlow hhigh
  have hnan := not_isNaN_of_isFinite ht
  have hle : first.time ≤ time := Scalar.le_of_lt hlow
  obtain ⟨hpos, hlt, hclamp⟩ := h.segmentEnd_eq hfirst hlast hle (not_le_of_lt hhigh)
  obtain ⟨a, b, ha, hb, hsegment, hstart, hfinish⟩ := h.exists_segment hfirst hlast hle (not_le_of_lt hhigh)
  have hbeyond : time < b.time := lt_of_not_le (h.numbers b (Array.mem_of_getElem? hb)) hnan hfinish
  have hspan : 0 < b.time - a.time := zero_lt_sub (Scalar.lt_of_le_of_lt hstart hbeyond)
  have hposition := position_eq_lerp hfirst hlast hlow hhigh hsegment hspan
  refine ⟨h.reachedCount_eq_scan hnan hlt, h.around_iff hnan hpos hlt, hclamp,
    ⟨a, b, ha, hb, hspan, not_le_of_lt hspan, hposition, heading_eq (by omega) hsegment⟩,
    fun later hlater => h.segmentEnd_mono hlater, fun hsteps i w hw => ⟨_, hposition, ?_⟩⟩
  have hindex := h.eq_of_lastAt hw
  have hw' : w = a := by
    have hat := hw.at_index
    rw [show i = table.segmentEnd time - 1 by omega, ha, Option.some.injEq] at hat
    exact hat.symm
  have hnext : table.waypoints[i + 1]? = some b := by rwa [show i + 1 = table.segmentEnd time by omega]
  obtain ⟨hx, hy⟩ := hsteps i w b hw.at_index hnext
  rw [← hw'] at hspan ⊢
  exact lerp_beq hx hy (div_beq_zero (sub_beq_zero ht (beq_comm.1 hw.time_eq)) hspan)

/-- A way of three segments, the second of which takes no time. -/
def leap : PathTable := ⟨#[⟨⟨0, 0⟩, 0⟩, ⟨⟨4, 0⟩, 1⟩, ⟨⟨4, 3⟩, 1⟩, ⟨⟨8, 3⟩, 2⟩]⟩

/-- At the time of the leap the path is where it ends. -/
theorem lookup_exact_leap :
    leap.Ordered ∧ (0 : Scalar) < 1 ∧ (1 : Scalar) < 2 ∧ leap.FiniteSteps ∧ leap.LastAt 1 2 ⟨⟨4, 3⟩, 1⟩ ∧
      leap.reachedCount 1 = leap.scan 1 ∧
      ∃ p, leap.position? 1 = some p ∧ p.x == (4 : Scalar) ∧ p.y == (3 : Scalar) := by
  have hordered : leap.Ordered := ⟨by decide +kernel, by decide +kernel⟩
  have hlow : (0 : Scalar) < 1 := by decide +kernel
  have hhigh : (1 : Scalar) < 2 := by decide +kernel
  have hsteps : leap.FiniteSteps := by
    intro i a b ha hb
    have hi : i + 1 < 4 := (Array.getElem?_eq_some_iff.1 hb).1
    have hcases : i = 0 ∨ i = 1 ∨ i = 2 := by omega
    rcases hcases with rfl | rfl | rfl <;> cases ha <;> cases hb <;> decide +kernel
  have hlast : leap.LastAt 1 2 ⟨⟨4, 3⟩, 1⟩ := by
    refine ⟨rfl, by decide +kernel, fun j v hj hv => ?_⟩
    have hj' : j < 4 := (Array.getElem?_eq_some_iff.1 hv).1
    obtain rfl : j = 3 := by omega
    cases hv
    decide +kernel
  obtain ⟨hscan, -, -, -, -, hat⟩ :=
    @lookup_exact leap 1 hordered ⟨⟨0, 0⟩, 0⟩ ⟨⟨8, 3⟩, 2⟩ rfl rfl hlow hhigh
  obtain ⟨p, hp, hx, hy⟩ := hat hsteps 2 _ hlast
  exact ⟨hordered, hlow, hhigh, hsteps, hlast, hscan, p, hp, hx, hy⟩

end MotionScript.PathTable
