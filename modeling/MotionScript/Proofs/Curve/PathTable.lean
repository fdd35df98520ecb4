import MotionScript.Curve.PathTable
import MotionScript.Proofs.Scalar.Gap

/-!
# Path tables

A table is filled waypoint by waypoint. What comes of it can be told as a list: the lengths of the way, and the times
that they are turned to.

* `drawable_spline_iff`, `rebuild?_eq`: which paths can be drawn, and that the others get no table.
* `fill_eq`: the table that is filled from a polyline.
* `rebuild_eq_build`: nothing of the table before is left in one that is rebuilt.
* `waypoints_build_eq_empty`: a table is empty only without control points.
* `exists_back_build`, `position_of_le`: a path is at its last waypoint from the end of its duration on.
* `exists_first_build`, `position_of_not_pos`: a path is at its first waypoint up to its start.
* `exists_position`: a path with a waypoint is somewhere at any time.
-/

namespace MotionScript.PathTable

/-! ## Outlines -/

section Outline

variable {settings : CurveSettings} {n : ℕ}

/-- **The samples that a path asks for are counted exactly**, or not at all. -/
theorem sampleCount?_eq (settings : CurveSettings) (n : ℕ) :
    sampleCount? settings n =
      if n * settings.samplesPerPoint.toNat < 2 ^ 64 then some (n * settings.samplesPerPoint.toNat) else none := rfl

theorem hasRoom_iff {segments : ℕ} : Spline.hasRoom n segments ↔ n = 0 ∨ Spline.sampleCount n segments < 2 ^ 60 := by
  have hsize : UInt64.size = 16 * 2 ^ 60 := rfl
  rw [Spline.hasRoom, decide_eq_true_iff, hsize, Nat.mul_lt_mul_left (by norm_num)]

theorem mul_lt_of_hasRoom {count : ℕ} (h : Spline.hasRoom n (n * count)) : n * count < 2 ^ 64 := by
  rcases hasRoom_iff.1 h with rfl | hroom
  · rw [Nat.zero_mul]
    norm_num
  · unfold Spline.sampleCount at hroom
    omega

/-- A spline can be drawn just if there is room for its samples; then they can be counted, too. -/
theorem drawable_spline_iff :
    drawable n .spline settings ↔ Spline.hasRoom n (n * settings.samplesPerPoint.toNat) := by
  rw [drawable, sampleCount?_eq]
  split
  · rw [Option.any_some]
  · next hwide => exact iff_of_false (by simp) fun h => hwide (mul_lt_of_hasRoom h)

theorem mul_lt_of_drawable (h : drawable n .spline settings) : n * settings.samplesPerPoint.toNat < 2 ^ 64 :=
  mul_lt_of_hasRoom (drawable_spline_iff.1 h)

theorem outline?_spline (points : List Vec2) (settings : CurveSettings) :
    outline? points .spline settings =
      if drawable points.length .spline settings then
        some (Polyline.reduce (Spline.samples points (points.length * settings.samplesPerPoint.toNat)) settings.threshold)
      else none := by
  rw [outline?, drawable, sampleCount?_eq]
  split
  · simp only [Option.bind_eq_bind, Option.bind_some, Option.any_some, Spline.samples?]
    split <;> rfl
  · rfl

theorem outline_spline (points : List Vec2) (settings : CurveSettings) :
    outline points .spline settings =
      if drawable points.length .spline settings then
        Polyline.reduce (Spline.samples points (points.length * settings.samplesPerPoint.toNat)) settings.threshold
      else [] := by
  rw [outline, outline?_spline]
  split <;> rfl

/-- A path has an outline just if it can be drawn. -/
theorem outline?_eq (points : List Vec2) (interpolation : Interpolation) (settings : CurveSettings) :
    outline? points interpolation settings =
      if drawable points.length interpolation settings then some (outline points interpolation settings) else none := by
  cases interpolation with
  | spline =>
    rw [outline, outline?_spline]
    split <;> rfl
  | linear => rfl

end Outline

/-! ## Filling -/

/-- Waypoints behind `previous`, at the lengths of the way to them counted on from `total`. -/
def lengths : (total : Scalar) → (previous : Vec2) → List Vec2 → List Waypoint
  | _, _, [] => []
  | total, previous, p :: ps =>
    let total := total + Vec2.distance previous p
    ⟨p, total⟩ :: lengths total p ps

/-- The waypoints of a polyline at the lengths of the way to them. -/
def measured : List Vec2 → List Waypoint
  | [] => []
  | p :: ps => ⟨p, 0⟩ :: lengths 0 p ps

/-- Lengths turned to times by a factor. The last waypoint is reached at the very end. -/
def timed (scale duration : Scalar) : List Waypoint → List Waypoint
  | [] => []
  | [w] => [{ w with time := duration }]
  | w :: ws => { w with time := w.time * scale } :: timed scale duration ws

/-- The length of a polyline, as the table sums it up. -/
def total (line : List Vec2) : Scalar := ((measured line).getLast?.map (·.time)).getD 0

/-- Points are added behind the waypoints that are there, at the lengths of the way to them. -/
theorem pushWay_eq (table : PathTable) (way : Scalar) (previous : Vec2) (points : List Vec2) :
    table.pushWay way previous points =
      (⟨table.waypoints ++ (lengths way previous points).toArray⟩,
        ((lengths way previous points).getLast?.map (·.time)).getD way) := by
  induction points generalizing table way previous with
  | nil => simp [pushWay, lengths]
  | cons p ps ih =>
    rw [pushWay, ih, lengths, push, List.push_append_toArray, List.getLast?_cons]
    cases (lengths (way + previous.distance p) p ps).getLast? <;> rfl

theorem measure_empty (line : List Vec2) : empty.measure line = (⟨(measured line).toArray⟩, total line) := by
  cases line with
  | nil => rfl
  | cons p ps =>
    rw [measure, pushWay_eq, push, List.push_append_toArray, total, measured, List.getLast?_cons]
    cases (lengths 0 p ps).getLast? <;> simp [empty]

theorem modify_map_eq_timed (scale duration : Scalar) (waypoints : List Waypoint) :
    (waypoints.map fun w => { w with time := w.time * scale }).modify (waypoints.length - 1)
      (fun w => { w with time := duration }) = timed scale duration waypoints := by
  induction waypoints with
  | nil => rfl
  | cons w ws ih =>
    cases ws with
    | nil => rfl
    | cons w' ws =>
      rw [List.map_cons, List.length_cons, Nat.add_sub_cancel, List.length_cons, List.modify_succ_cons, timed, ← ih]
      · rfl
      · exact List.cons_ne_nil _ _

theorem rescale_eq (waypoints : List Waypoint) (scale duration : Scalar) :
    rescale ⟨waypoints.toArray⟩ scale duration = ⟨(timed scale duration waypoints).toArray⟩ := by
  rw [rescale]
  simp only [List.map_toArray, List.size_toArray, List.length_map, List.modify_toArray, modify_map_eq_timed]

/-- **The table that is filled from a polyline** holds its anchor if the way is too short to be divided. Else its
waypoints are the points of the polyline, at the lengths of the way to them turned to times. -/
theorem fill_eq (line : List Vec2) (anchor : Vec2) (duration : Scalar) :
    empty.fill line anchor duration =
      if (measured line).length < 2 ∨ total line ≤ 1e-4 then ⟨#[⟨anchor, 0⟩, ⟨anchor, Scalar.max duration 0⟩]⟩
      else ⟨(timed (Scalar.max duration 0 / total line) (Scalar.max duration 0) (measured line)).toArray⟩ := by
  unfold fill
  rw [measure_empty]
  dsimp only
  rw [rescale_eq, List.size_toArray]
  rfl

theorem timed_ne_nil (scale duration : Scalar) {ws : List Waypoint} (h : ws ≠ []) :
    timed scale duration ws ≠ [] := by
  cases ws with
  | nil => exact absurd rfl h
  | cons w ws => cases ws <;> exact List.cons_ne_nil _ _

theorem waypoints_fill_ne_empty (line : List Vec2) (anchor : Vec2) (duration : Scalar) :
    (empty.fill line anchor duration).waypoints ≠ #[] := by
  rw [fill_eq]
  split
  · exact fun h => absurd (congrArg Array.size h) (by simp)
  · next h =>
    have hne : measured line ≠ [] := fun h0 => h (.inl (by simp [h0]))
    exact fun h => timed_ne_nil _ _ hne (congrArg Array.toList h)

/-! ## Rebuilding -/

@[simp] theorem clear_eq_empty (table : PathTable) : table.clear = empty := rfl

/-- **Nothing of the table before is left in one that is rebuilt**, for it is cleared before it is filled. -/
theorem rebuild_eq_build (table : PathTable) (points : List Vec2) (duration : Scalar) (interpolation : Interpolation)
    (settings : CurveSettings) :
    table.rebuild points duration interpolation settings = build points duration interpolation settings := by
  unfold build rebuild refill
  rw [clear_eq_empty, clear_eq_empty]

/-- **A table is made just if its path can be drawn.** -/
theorem rebuild?_eq (table : PathTable) (points : List Vec2) (duration : Scalar) (interpolation : Interpolation)
    (settings : CurveSettings) :
    table.rebuild? points duration interpolation settings =
      if drawable points.length interpolation settings then some (table.rebuild points duration interpolation settings)
      else none := by
  rw [rebuild?, outline?_eq]
  split <;> rfl

/-- The table of a path is filled from its outline, with its first control point as the anchor. -/
theorem build_cons (anchor : Vec2) (rest : List Vec2) (duration : Scalar) (interpolation : Interpolation)
    (settings : CurveSettings) :
    build (anchor :: rest) duration interpolation settings =
      empty.fill (outline (anchor :: rest) interpolation settings) anchor duration := by
  rw [build, rebuild, refill, clear_eq_empty]

theorem waypoints_build_eq_empty {points : List Vec2} {duration : Scalar} {interpolation : Interpolation}
    {settings : CurveSettings} :
    (build points duration interpolation settings).waypoints = #[] ↔ points = [] := by
  cases points with
  | nil => exact iff_of_true rfl rfl
  | cons p ps => exact iff_of_false (waypoints_fill_ne_empty _ _ _) (List.cons_ne_nil _ _)

theorem segmentEnd_lt {table : PathTable} (h : 0 < table.waypoints.size) (time : Scalar) :
    table.segmentEnd time < table.waypoints.size := by
  unfold segmentEnd
  omega

/-! ## Ends -/

theorem exists_getLast_timed (scale duration : Scalar) {ws : List Waypoint} (h : ws ≠ []) :
    ∃ w, (timed scale duration ws).getLast? = some w ∧ w.time = duration := by
  induction ws with
  | nil => exact absurd rfl h
  | cons w ws ih =>
    cases ws with
    | nil => exact ⟨_, rfl, rfl⟩
    | cons w' ws =>
      obtain ⟨last, hlast, htime⟩ := ih (List.cons_ne_nil _ _)
      refine ⟨last, ?_, htime⟩
      have hne := timed_ne_nil scale duration (List.cons_ne_nil w' ws)
      show List.getLast? (_ :: timed scale duration (w' :: ws)) = some last
      rw [List.getLast?_cons, hlast]
      rfl

/-- The last waypoint of a path is reached at the end of its duration. -/
theorem exists_back_build {points : List Vec2} (h : points ≠ []) (duration : Scalar)
    (interpolation : Interpolation) (settings : CurveSettings) :
    ∃ last, (build points duration interpolation settings).waypoints.back? = some last ∧
      last.time = Scalar.max duration 0 := by
  cases points with
  | nil => exact absurd rfl h
  | cons p ps =>
    rw [build_cons, fill_eq]
    split
    · exact ⟨_, rfl, rfl⟩
    · next hlong =>
      have hne : measured (outline (p :: ps) interpolation settings) ≠ [] := fun h0 => hlong (.inl (by simp [h0]))
      rw [List.back?_toArray]
      exact exists_getLast_timed _ _ hne

/-- From the time of its last waypoint on, a path is there. -/
theorem position_of_le {table : PathTable} {last : Waypoint} (h : table.waypoints.back? = some last)
    {time : Scalar} (hle : last.time ≤ time) : table.position? time = some last.position := by
  have hsize : 0 < table.waypoints.size := by
    rw [Array.back?_eq_getElem?] at h
    have := (Array.getElem?_eq_some_iff.1 h).1
    omega
  unfold position?
  rw [Array.getElem?_eq_getElem hsize, h]
  simp only [Option.bind_eq_bind, Option.bind_some, if_pos hle]
  rfl

/-- The first waypoint of a path is reached at its start, if there is no telling else. -/
theorem exists_first_build {points : List Vec2} (h : points ≠ []) (duration : Scalar)
    (interpolation : Interpolation) (settings : CurveSettings) :
    ∃ first, (build points duration interpolation settings).waypoints[0]? = some first ∧
      (¬first.time.isNaN → first.time.isFinite ∧ first.time.toRat = 0) := by
  cases points with
  | nil => exact absurd rfl h
  | cons p ps =>
    rw [build_cons, fill_eq]
    split
    · exact ⟨_, rfl, fun _ => Scalar.toRat_of_zero Scalar.parts_zero⟩
    · next hlong =>
      -- there are two waypoints at least, so the first is not the last
      generalize outline (p :: ps) interpolation settings = line at *
      rcases line with _ | ⟨a, _ | ⟨b, rest⟩⟩
      · exact absurd (.inl (by decide)) hlong
      · exact absurd (.inl (show 1 < 2 by decide)) hlong
      · refine ⟨_, rfl, fun hnan => ?_⟩
        obtain ⟨s, hs⟩ := (Scalar.zero_mul_cases Scalar.parts_zero).resolve_right fun h => hnan h.2
        exact Scalar.toRat_of_zero hs

/-- **Up to its start a path that takes time is at its first waypoint.** -/
theorem position_of_not_pos {points : List Vec2} {duration : Scalar} {interpolation : Interpolation}
    {settings : CurveSettings} {table : PathTable} (hbuild : table = build points duration interpolation settings)
    (h : table.waypoints ≠ #[]) (hnan : ∀ w ∈ table.waypoints, ¬w.time.isNaN) (hpos : 0 < duration)
    {time : Scalar} (hf : time.isFinite) (hle : ¬0 < time) :
    table.position? time = table.waypoints[0]?.map (·.position) := by
  subst hbuild
  have hpoints : points ≠ [] := fun hp => h (waypoints_build_eq_empty.2 hp)
  obtain ⟨first, hfirst, hzero⟩ := exists_first_build hpoints duration interpolation settings
  obtain ⟨last, hlast, htime⟩ := exists_back_build hpoints duration interpolation settings
  obtain ⟨hfin, hval⟩ := hzero (hnan first (Array.mem_of_getElem? hfirst))
  rw [Scalar.lt_iff rfl hf, Scalar.toRat_zero, not_lt] at hle
  have hstart : time ≤ first.time := by
    rw [Scalar.le_iff hf hfin, hval]
    exact hle
  have hend : ¬last.time ≤ time := by
    rw [htime, Scalar.max_zero_of_pos hpos]
    exact Scalar.not_le_of_lt (Scalar.lt_of_toRat_le (y := 0) hf rfl hle hpos)
  unfold position?
  rw [hfirst, hlast]
  simp only [Option.bind_eq_bind, Option.bind_some, if_neg hend, if_pos hstart]
  rfl

/-- A path with a waypoint is somewhere at any time. -/
theorem exists_position {table : PathTable} (h : table.waypoints ≠ #[]) (time : Scalar) :
    ∃ p, table.position? time = some p := by
  have hsize : 0 < table.waypoints.size := Array.size_pos_iff.2 h
  have hlt := segmentEnd_lt hsize time
  have hfirst : table.waypoints[0]? = some table.waypoints[0] := Array.getElem?_eq_getElem hsize
  obtain ⟨last, hlast⟩ : ∃ last, table.waypoints.back? = some last := by
    rw [Array.back?_eq_getElem?]
    exact ⟨_, Array.getElem?_eq_getElem (by omega)⟩
  have hsegment : table.segment? time =
      some (table.waypoints[table.segmentEnd time - 1], table.waypoints[table.segmentEnd time]) := by
    unfold segment?
    dsimp only
    rw [Array.getElem?_eq_getElem (by omega), Array.getElem?_eq_getElem hlt]
    rfl
  unfold position?
  rw [hfirst, hlast, hsegment]
  simp only [Option.bind_eq_bind, Option.bind_some, Option.pure_def]
  -- whichever way the times compare, there is a waypoint or a segment to read
  split
  · exact ⟨_, rfl⟩
  · split
    · exact ⟨_, rfl⟩
    · split
      · exact ⟨_, rfl⟩
      · exact ⟨_, rfl⟩

end MotionScript.PathTable
