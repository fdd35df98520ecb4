import MotionScript.Proofs.Curve.PathTable
import MotionScript.Proofs.Curve.Reduction

/-!
# The shape of path tables

A table is made for a route, made again for another one, and cleared. Whatever the numbers in a route are, its
table has no waypoints, or two of them at least, so every time falls in a segment.

* `after_eq`: a table depends on what was last done to it alone.
* `positions_fill`: the waypoints of a table are the points of its outline, unless it is held.
* `segment_eq`: every time has a segment, with both its ends in the table.
* `well_formed_after`: the shape of every table.
-/

namespace MotionScript.PathTable

/-! ## What is done to a table -/

/-- What the table of a path is made from. -/
structure Route where
  points : List Vec2
  duration : Scalar
  interpolation : Interpolation
  settings : CurveSettings

/-- The table of a route. -/
def Route.table (route : Route) : PathTable :=
  build route.points route.duration route.interpolation route.settings

/-- What is done to a table. -/
inductive Edit where
  | build (route : Route)
  | rebuild (route : Route)
  | clear

/-- The table after something is done to it. -/
def Edit.apply (table : PathTable) : Edit → PathTable
  | build route => route.table
  | rebuild route => table.rebuild route.points route.duration route.interpolation route.settings
  | clear => table.clear

/-- The route that an edit makes the table for. -/
def Edit.route? : Edit → Option Route
  | build route => some route
  | rebuild route => some route
  | clear => none

/-- The table after all that is done to it, from the beginning. -/
def after (edits : List Edit) : PathTable := edits.foldl Edit.apply empty

/-- The route that a table was last made for, if it has not been cleared since. -/
def lastRoute (edits : List Edit) : Option Route := edits.getLast?.bind Edit.route?

/-- **Nothing of an earlier table is left.** -/
theorem after_eq (edits : List Edit) : after edits = ((lastRoute edits).map Route.table).getD empty := by
  rcases List.eq_nil_or_concat edits with rfl | ⟨before, edit, rfl⟩
  · rfl
  · unfold after lastRoute
    rw [List.concat_eq_append, List.foldl_concat, List.getLast?_concat, Option.bind_some]
    cases edit with
    | build route => rfl
    | rebuild route => exact rebuild_eq_build ..
    | clear => exact clear_eq_empty (before.foldl Edit.apply empty)

/-! ## Waypoints -/

/-- Where the waypoints of a table are. -/
def positions (table : PathTable) : List Vec2 := table.waypoints.toList.map (·.position)

theorem map_position_timed (scale duration : Scalar) (ws : List Waypoint) :
    (timed scale duration ws).map (·.position) = ws.map (·.position) := by
  induction ws with
  | nil => rfl
  | cons w ws ih =>
    cases ws with
    | nil => rfl
    | cons w' ws => exact congrArg (w.position :: ·) ih

theorem map_position_lengths (total : Scalar) (previous : Vec2) (points : List Vec2) :
    (lengths total previous points).map (·.position) = points := by
  induction points generalizing total previous with
  | nil => rfl
  | cons p ps ih => exact congrArg (p :: ·) (ih _ p)

theorem map_position_measured (points : List Vec2) : (measured points).map (·.position) = points := by
  cases points with
  | nil => rfl
  | cons p ps => exact congrArg (p :: ·) (map_position_lengths 0 p ps)

theorem length_measured (points : List Vec2) : (measured points).length = points.length := by
  conv_rhs => rw [← map_position_measured points, List.length_map]

/-- The waypoints of a table are the points of its outline, or the table is held. -/
theorem positions_fill (line : List Vec2) (anchor : Vec2) (duration : Scalar) :
    (empty.fill line anchor duration).positions = [anchor, anchor] ∨
      2 ≤ line.length ∧ (empty.fill line anchor duration).positions = line := by
  rw [fill_eq]
  split
  · exact .inl rfl
  · next hlong =>
    refine .inr ⟨?_, ?_⟩
    · rw [length_measured] at hlong
      omega
    · show ((timed _ _ _).toArray.toList.map _) = _
      rw [map_position_timed, map_position_measured]

theorem length_positions (table : PathTable) : table.positions.length = table.waypoints.size := by
  rw [positions, List.length_map, Array.length_toList]

/-- A table that is not empty has two waypoints at least. -/
theorem two_le_size_build {points : List Vec2} (h : points ≠ []) (duration : Scalar) (interpolation : Interpolation)
    (settings : CurveSettings) : 2 ≤ (build points duration interpolation settings).waypoints.size := by
  cases points with
  | nil => exact absurd rfl h
  | cons anchor rest =>
    rw [build_cons, ← length_positions]
    rcases positions_fill (outline (anchor :: rest) interpolation settings) anchor duration with hheld | ⟨hlong, hline⟩
    · rw [hheld]
      rfl
    · rw [hline]
      exact hlong

theorem duration_build {points : List Vec2} (h : points ≠ []) (duration : Scalar) (interpolation : Interpolation)
    (settings : CurveSettings) :
    (build points duration interpolation settings).duration = Scalar.max duration 0 := by
  obtain ⟨last, hlast, htime⟩ := exists_back_build h duration interpolation settings
  rw [PathTable.duration, hlast]
  exact htime

/-! ## Segments -/

/-- A table with two waypoints has a segment for every time. -/
theorem segmentEnd_bounds {table : PathTable} (h : 2 ≤ table.waypoints.size) (time : Scalar) :
    1 ≤ table.segmentEnd time ∧ table.segmentEnd time < table.waypoints.size := by
  unfold segmentEnd
  omega

/-- Both ends of a segment are in the table. -/
theorem segment_eq {table : PathTable} (h : 2 ≤ table.waypoints.size) (time : Scalar) :
    ∃ a b, table.waypoints[table.segmentEnd time - 1]? = some a ∧ table.waypoints[table.segmentEnd time]? = some b ∧
      table.segment? time = some (a, b) := by
  obtain ⟨hlow, hhigh⟩ := segmentEnd_bounds h time
  have ha : table.waypoints[table.segmentEnd time - 1]? = some table.waypoints[table.segmentEnd time - 1] :=
    Array.getElem?_eq_getElem (by omega)
  have hb : table.waypoints[table.segmentEnd time]? = some table.waypoints[table.segmentEnd time] :=
    Array.getElem?_eq_getElem hhigh
  refine ⟨_, _, ha, hb, ?_⟩
  unfold segment?
  simp only [ha, hb, Option.bind_eq_bind, Option.bind_some, Option.pure_def]

theorem heading_eq {table : PathTable} (h : 2 ≤ table.waypoints.size) {time : Scalar} {a b : Waypoint}
    (hsegment : table.segment? time = some (a, b)) : table.heading? time = Vec2.unit? (b.position - a.position) := by
  unfold heading?
  rw [if_neg (by omega), hsegment]
  rfl

theorem position_eq_none_iff {table : PathTable} {time : Scalar} :
    table.position? time = none ↔ table.waypoints = #[] := by
  constructor
  · intro h
    by_contra hne
    obtain ⟨p, hp⟩ := exists_position hne time
    rw [hp] at h
    cases h
  · intro h
    unfold position?
    rw [h]
    rfl

/-- **The shape of every table**, whatever has been done to it and whatever the numbers in the routes are. It is
empty just if it has been cleared, or made from no points, and else has two waypoints at least. A rebuilt table is
the same as a new one. A table lasts as long as its route, if that is not negative. With straight segments the
waypoints are some of the points, the ends among them, or twice the first one. A table that is not empty has a
segment for every time, in the range that the index is held in, and is somewhere at every time. -/
theorem well_formed_after (edits : List Edit) :
    let table := after edits
    (table.waypoints = #[] ↔ ∀ route ∈ lastRoute edits, route.points = []) ∧
    (table.waypoints = #[] ∨ 2 ≤ table.waypoints.size) ∧
    (∀ (earlier : PathTable) (route : Route),
      earlier.rebuild route.points route.duration route.interpolation route.settings = route.table) ∧
    (∀ route ∈ lastRoute edits, route.points ≠ [] → table.duration = Scalar.max route.duration 0) ∧
    (∀ route ∈ lastRoute edits, route.interpolation = .linear →
      (∃ first, route.points.head? = some first ∧ table.positions = [first, first]) ∨
        table.positions.Sublist route.points ∧ table.positions.head? = route.points.head? ∧
          table.positions.getLast? = route.points.getLast?) ∧
    ∀ time : Scalar,
      (table.position? time = none ↔ table.waypoints = #[]) ∧
      (table.waypoints ≠ #[] →
        1 ≤ table.waypoints.size - 1 ∧ 1 ≤ table.segmentEnd time ∧ table.segmentEnd time ≤ table.waypoints.size - 1 ∧
        ∃ a b, table.waypoints[table.segmentEnd time - 1]? = some a ∧
          table.waypoints[table.segmentEnd time]? = some b ∧ table.segment? time = some (a, b) ∧
          table.heading? time = Vec2.unit? (b.position - a.position)) := by
  intro table
  have hempty : table.waypoints = #[] ↔ ∀ route ∈ lastRoute edits, route.points = [] := by
    rw [show table = _ from after_eq edits]
    cases lastRoute edits with
    | none => simp [empty]
    | some route =>
      simp only [Option.map_some, Option.getD_some, Option.mem_def, Option.some.injEq, forall_eq']
      exact waypoints_build_eq_empty
  have hmade : ∀ route ∈ lastRoute edits, table = route.table := by
    intro route hroute
    rw [show table = _ from after_eq edits, Option.mem_def.1 hroute]
    rfl
  have htwo : table.waypoints = #[] ∨ 2 ≤ table.waypoints.size := by
    by_cases h : table.waypoints = #[]
    · exact .inl h
    · right
      rw [hempty] at h
      push Not at h
      obtain ⟨route, hroute, hpoints⟩ := h
      rw [hmade route hroute]
      exact two_le_size_build hpoints _ _ _
  refine ⟨hempty, htwo, fun _ _ => rebuild_eq_build .., ?_, ?_, fun time => ⟨position_eq_none_iff, fun hne => ?_⟩⟩
  · intro route hroute hpoints
    rw [hmade route hroute]
    exact duration_build hpoints _ _ _
  · intro route hroute hlinear
    rw [hmade route hroute]
    rw [Route.table]
    cases hpoints : route.points with
    | nil => exact .inr ⟨List.Sublist.refl _, rfl, rfl⟩
    | cons anchor rest =>
      rw [build_cons]
      rcases positions_fill (outline (anchor :: rest) route.interpolation route.settings) anchor route.duration with
        hheld | ⟨-, hline⟩
      · exact .inl ⟨anchor, rfl, hheld⟩
      · rw [hline, hlinear]
        exact .inr ⟨Polyline.reduce_sublist _ _, Polyline.head?_reduce _ _, Polyline.getLast?_reduce _ _⟩
  · have hsize : 2 ≤ table.waypoints.size := htwo.resolve_left hne
    obtain ⟨hlow, hhigh⟩ := segmentEnd_bounds hsize time
    obtain ⟨a, b, ha, hb, hsegment⟩ := segment_eq hsize time
    exact ⟨by omega, hlow, by omega, a, b, ha, hb, hsegment, heading_eq hsize hsegment⟩

end MotionScript.PathTable
