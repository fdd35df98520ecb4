import MotionScript.Generator.Stock
import MotionScript.Proofs.Playback.Settled

/-!
# Which path a table is of

Reaching a path fills the table of waypoints. Only bindings and manual control empty it, while a step of
another kind, the end of the sequence and the end of the script leave it as it is.

* `pathPoints`: the control points of the last path before an index.
* `Playhead.Drawn`: the table is that of the last path that has been reached.
* `Controller.drawn_perform`: every operation of an owner keeps it so.
* `Controller.waypoints_only_on_path_iff`: the controllers without waypoints outside a path.
-/

namespace MotionScript

variable {γ β : Type}

/-- The control points of the last path before an index of a sequence. Without a path there are none. -/
def pathPoints (steps : Sequence) : ℕ → List Vec2
  | 0 => []
  | i + 1 =>
    match steps[i]? with
    | some (.path _ count _) => Step.controlPoints count (steps.drop (i + 1))
    | _ => pathPoints steps i

section Points

variable {steps : Sequence} {i : ℕ} {step : Step}

theorem pathPoints_succ_path {duration : Scalar} {count : ℕ} {interpolation : Interpolation}
    (h : steps[i]? = some (.path duration count interpolation)) :
    pathPoints steps (i + 1) = Step.controlPoints count (steps.drop (i + 1)) := by
  rw [pathPoints, h]

theorem pathPoints_succ_of_ne (h : steps[i]? = some step) (hp : step.kind ≠ .path) :
    pathPoints steps (i + 1) = pathPoints steps i := by
  rw [pathPoints, h]
  cases step with
  | path => exact absurd rfl hp
  | _ => rfl

theorem pathPoints_end : pathPoints steps (steps.length + 1) = pathPoints steps steps.length := by
  rw [pathPoints, List.getElem?_eq_none le_rfl]

end Points

namespace Playhead

/-- **The table is that of the last path before an index.** It is empty just if that path has no points. -/
def DrawnBefore (steps : Sequence) (i : ℕ) (p : Playhead) : Prop :=
  p.path.waypoints = #[] ↔ pathPoints steps i = []

/-- Under manual control there is no table; else it is that of the last path up to the current step. -/
def Drawn (p : Playhead) : Prop :=
  (p.mode = .manual → p.path.waypoints = #[]) ∧
    (p.mode ≠ .manual → ∀ steps, p.steps? = some steps → p.DrawnBefore steps (p.step + 1))

variable {steps : Sequence} {p : Playhead} {step : Step}

theorem path_enter_of_ne (rest : List Step) (p : Playhead) (h : step.kind ≠ .path) :
    (p.enter rest step).path = p.path := by
  cases step with
  | path => exact absurd rfl h
  | _ => rfl

/-- Reaching a step fills the table if it is a path, and leaves it as it is else. -/
theorem DrawnBefore.enter (h : p.DrawnBefore steps p.step) (hstep : steps[p.step]? = some step) :
    (p.enter (steps.drop (p.step + 1)) step).DrawnBefore steps (p.step + 1) := by
  unfold DrawnBefore at h ⊢
  by_cases hp : step.kind = .path
  · cases step with
    | path duration count interpolation =>
      rw [pathPoints_succ_path hstep]
      exact PathTable.waypoints_build_eq_empty
    | _ => cases hp
  · rw [path_enter_of_ne _ p hp, pathPoints_succ_of_ne hstep hp]
    exact h

theorem DrawnBefore.play (h : p.DrawnBefore steps p.step) (hle : p.step ≤ steps.length) :
    (play (steps.drop p.step) p).DrawnBefore steps ((play (steps.drop p.step) p).step + 1) := by
  refine play_induction (fun q => q.DrawnBefore steps q.step) (fun q => q.DrawnBefore steps (q.step + 1))
    ?_ ?_ ?_ ?_ h hle
  · intro q hq hend
    rw [hend, DrawnBefore, pathPoints_end, ← hend]
    exact hq
  · intro q step hq hstep _
    rw [step_next, step_enter]
    exact hq.enter hstep
  · intro q step hq hstep _ _
    rw [step_enter]
    exact hq.enter hstep
  · intro q step hq hstep _ _ _
    rw [step_leave, step_enter]
    exact hq.enter hstep

/-- A binding starts with an empty table. -/
theorem drawnBefore_start (script : ScriptSet) (i : ℕ) (curve : CurveSettings) (steps : Sequence) :
    ((start script i curve).scan steps).DrawnBefore steps (((start script i curve).scan steps).step + 1) := by
  refine scan_induction (p := start script i curve) (fun q => q.DrawnBefore steps q.step)
    (fun q => q.DrawnBefore steps (q.step + 1)) ?_ ?_ ?_ (iff_of_true rfl rfl) (Nat.zero_le _)
  · intro q hq hend
    rw [hend, DrawnBefore, pathPoints_end, ← hend]
    exact hq
  · intro q step hq hstep _
    rw [step_next, step_enter]
    exact hq.enter hstep
  · intro q step hq hstep _
    rw [step_enter]
    exact hq.enter hstep

/-- Whoever is at rest in a sequence is not under manual control. -/
theorem Settled.mode_ne_manual (h : p.Settled steps) : p.mode ≠ .manual := by
  intro hm
  have hv : p.mode ≠ .vanished := by
    rw [hm]
    decide
  rcases mode_of_settled h hv with h' | h' <;> rw [hm] at h' <;> cases h'

theorem drawn_of_settled (hset : p.Settled steps) (hsteps : p.steps? = some steps)
    (h : p.DrawnBefore steps (p.step + 1)) : p.Drawn := by
  refine ⟨fun hm => absurd hm hset.mode_ne_manual, fun _ steps' hsteps' => ?_⟩
  cases hsteps.symm.trans hsteps'
  exact h

/-- **An update keeps the table** that of the last path, whatever the time. -/
theorem Drawn.update (h : p.Drawn) (hs : p.Sound) (delta : Scalar) : (p.update delta).Drawn := by
  by_cases hm : p.mode = .manual
  · rw [update_manual hm]
    exact ⟨h.1, fun hne => absurd hm hne⟩
  by_cases hv : p.mode = .vanished
  · rwa [update_vanished hv]
  obtain ⟨steps, hsteps, hset⟩ := hs.exists_settled hm
  have hdrawn := h.2 hm steps hsteps
  refine drawn_of_settled (hset.update hsteps delta) ((steps?_update p delta).trans hsteps) ?_
  rw [update_driven (mode_of_settled hset hv) hsteps]
  unfold playOn
  dsimp only
  split
  · next hd => exact DrawnBefore.play (p := (p.wait delta).leave) hdrawn hd.2
  · exact hdrawn

end Playhead

namespace Controller

theorem drawn_bind {c : Controller γ} (h : c.playhead.Drawn) (script : ScriptSet) (i : ℕ) :
    (c.bind script i).playhead.Drawn := by
  cases hs : script.sequence? i with
  | none => rwa [bind_of_none c hs]
  | some steps =>
    rw [playhead_bind c hs]
    exact Playhead.drawn_of_settled (Playhead.settled_start script i c.curve steps)
      (Playhead.steps?_scan_start c.curve hs) (Playhead.drawnBefore_start script i c.curve steps)

/-- **Every operation keeps the table** that of the last path. -/
theorem drawn_perform [Target β] [Generator γ β] {c : Controller γ} (hs : c.playhead.Sound)
    (h : c.playhead.Drawn) (op : Operation γ β) : (c.perform op).playhead.Drawn := by
  cases op with
  | setCurve curve => exact h
  | setFaceHeading faceHeading => exact h
  | setGenerator generator => exact h
  | bind script i => exact drawn_bind h script i
  | selectSequence i =>
    unfold perform
    dsimp only
    cases hscript : c.script with
    | none => rwa [selectSequence_of_none c hscript]
    | some script =>
      rw [selectSequence_eq_bind c hscript]
      exact drawn_bind h script i
  -- manual control empties the table
  | manualMove direction speed => exact ⟨fun _ => rfl, fun hne => absurd rfl hne⟩
  | manualAccelerate direction amount => exact ⟨fun _ => rfl, fun hne => absurd rfl hne⟩
  | manualTime duration => exact ⟨fun _ => rfl, fun hne => absurd rfl hne⟩
  | update delta body =>
    unfold perform
    dsimp only
    rw [Scene.playhead_update]
    exact h.update hs delta

theorem drawn_operations [Target β] [Generator γ β] (ops : List (Operation γ β)) {c : Controller γ}
    (hs : c.playhead.Sound) (h : c.playhead.Drawn) : (ops.foldl perform c).playhead.Drawn := by
  induction ops generalizing c with
  | nil => exact h
  | cons op ops ih => exact ih (sound_perform hs op) (drawn_perform hs h op)

theorem drawn_after [Target β] [Generator γ β] (ops : List (Operation γ β)) :
    (after ops : Controller γ).playhead.Drawn :=
  drawn_operations ops ⟨rfl, rfl, rfl⟩ ⟨fun _ => rfl, fun hne => absurd rfl hne⟩

/-! ## Tables outside paths -/

/-- The current step is a path, and it is being played. -/
def OnPath (c : Controller γ) : Prop :=
  c.mode = .path ∧ ∃ duration count interpolation,
    (c.steps?.bind fun steps => steps[c.step]?) = some (.path duration count interpolation)

/-- The control points of a path that playback has left behind, if the owner has not taken over since. -/
def leftBehind (c : Controller γ) : List Vec2 :=
  if c.mode = .manual then [] else pathPoints (c.steps?.getD []) c.step

/-- Off a path no step has filled the table but those before the current one. -/
theorem pathPoints_of_not_onPath {c : Controller γ} {steps : Sequence} (hset : c.playhead.Settled steps)
    (hsteps : c.steps? = some steps) (h : ¬c.OnPath) :
    pathPoints steps (c.step + 1) = pathPoints steps c.step := by
  cases hstep : steps[c.step]? with
  | none => rw [pathPoints, hstep]
  | some step =>
    refine pathPoints_succ_of_ne hstep fun hkind => ?_
    cases step with
    | path duration count interpolation =>
      unfold Playhead.Settled at hset
      rw [show c.playhead.step = c.step from rfl, hstep] at hset
      refine h ⟨hset.1, duration, count, interpolation, ?_⟩
      rw [hsteps, Option.bind_some, hstep]
    | _ => cases hkind

/-- **When there are waypoints outside a path.** After any operations of an owner, a controller that is not
playing a path has waypoints just if playback has left a path with control points behind, and no other path
since. So the table is that of the current path or empty just if the current step is a path that is being
played, or no such path has been left behind. Under manual control the table is empty in any case. -/
theorem waypoints_only_on_path_iff [Target β] [Generator γ β] (ops : List (Operation γ β)) :
    let c : Controller γ := after ops
    (c.mode = .manual → c.path.waypoints = #[]) ∧
    (¬c.OnPath → (c.path.waypoints ≠ #[] ↔ c.leftBehind ≠ [])) ∧
    ((c.path.waypoints ≠ #[] → c.OnPath) ↔ c.OnPath ∨ c.leftBehind = []) := by
  intro c
  have hsound : c.playhead.Sound := sound_after ops
  have hdrawn : c.playhead.Drawn := drawn_after ops
  have hoff : ¬c.OnPath → (c.path.waypoints ≠ #[] ↔ c.leftBehind ≠ []) := by
    intro hoff
    unfold leftBehind
    by_cases hm : c.mode = .manual
    · rw [if_pos hm]
      exact not_congr (iff_of_true (hdrawn.1 hm) rfl)
    · obtain ⟨steps, hplayhead, hset⟩ := hsound.exists_settled hm
      have hsteps : c.steps? = some steps := hplayhead
      rw [if_neg hm, hsteps, Option.getD_some, ← pathPoints_of_not_onPath hset hsteps hoff]
      exact not_congr (hdrawn.2 hm steps hsteps)
  refine ⟨hdrawn.1, hoff, fun h => ?_, fun h hne => ?_⟩
  · by_cases hon : c.OnPath
    · exact .inl hon
    · refine .inr ?_
      by_contra hleft
      exact hon (h ((hoff hon).2 hleft))
  · rcases h with hon | hleft
    · exact hon
    · by_contra hon
      exact (hoff hon).1 hne hleft

/-- A path is over, and its waypoints are still there: while playback waits, at the end of the sequence, and after
the end of the script. -/
theorem waypoints_outlive_path :
    let table (behind : List Step) : ScriptSet :=
      ⟨"path", [.path 1 2 .linear :: .point ⟨0, 0⟩ :: .point ⟨10, 0⟩ :: behind]⟩
    let played (behind : List Step) : Controller Stock := after [.bind (table behind) 0, .update 1 ({} : Body)]
    ((played [.wait 1]).mode = .move ∧ (played [.wait 1]).step = 3 ∧ (played [.wait 1]).path.waypoints.size = 2) ∧
    ((played []).isIdle ∧ (played []).path.waypoints.size = 2) ∧
    ((played [.vanish]).mode = .vanished ∧ (played [.vanish]).path.waypoints.size = 2) := by
  decide +kernel

end Controller

end MotionScript
