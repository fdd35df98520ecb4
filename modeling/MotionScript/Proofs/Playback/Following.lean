import MotionScript.Proofs.Playback.Completion
import MotionScript.Proofs.Playback.Passage
import MotionScript.Proofs.Playback.Timeline

/-!
# Where a path takes the entity

A path is followed to a time that is computed in three ways: as the clock before an update and a slice of the update,
which may be cut off at the end of the path; as what is left of an update after other steps; and as what the clock
shows afterwards. They are the same time, or the path is still at its start. So it does not matter in which slices
time has passed.

* `LevelTarget`, `KeepsDepth`: entities that keep their depth, and generators that leave it to them.
* `Scene.OnTrack`: the entity is where its path is at the time that the clock shows.
* `Scene.onTrack_proceed`, `Scene.onTrack_stay`: so it is in the middle of a path, and after reaching one.
* `Scene.kept_keepsLevel`: every stage of an update keeps the depth.
* `Controller.position_follows_clock`: after any updates the entity is on its path, and at its depth.
-/

namespace MotionScript

variable {γ β : Type}

/-- **An entity that keeps its depth**, when it is moved to another point of that depth. -/
class LevelTarget (β : Type) [Target β] : Prop where
  depth_moveTo (b : β) (p : Vec3) (h : Scalar.SameNumber p.z (Target.position b).z) :
    Scalar.SameNumber (Target.position (Target.moveTo b p)).z (Target.position b).z

instance : LevelTarget Body where
  depth_moveTo _ _ h := h

instance : LevelTarget Sprite where
  depth_moveTo b p h := by
    show Scalar.SameNumber ((b.depth.map fun d => if d == p.z then d else p.z).getD 0) (b.depth.getD 0)
    change Scalar.SameNumber p.z (b.depth.getD 0) at h
    cases hd : b.depth with
    | none => exact .refl 0
    | some d =>
      rw [hd] at h
      simp only [Option.map_some, Option.getD_some] at h ⊢
      split
      · exact .refl d
      · exact h

/-- A generator that leaves every entity at its depth. -/
def KeepsDepth (γ β : Type) [Target β] [Generator γ β] : Prop :=
  ∀ (g : γ) (call : Call) (b : β),
    Scalar.SameNumber (Target.position (Generator.call g call b).2.1).z (Target.position b).z

namespace Playhead

variable {steps : Sequence} {p : Playhead}

/-- The path that is the current step takes its whole duration. -/
theorem Settled.target_path {duration : Scalar} {count : ℕ} {interpolation : Interpolation} (h : p.Settled steps)
    (hstep : steps[p.step]? = some (.path duration count interpolation)) (hpos : 0 < duration) :
    p.target = duration ∧ ∃ settings,
      p.path = .build (Step.controlPoints count (steps.drop (p.step + 1))) duration interpolation settings := by
  unfold Settled at h
  rw [hstep] at h
  obtain ⟨-, htarget, hpath⟩ := h
  exact ⟨htarget.trans (Scalar.max_zero_of_pos hpos), hpath⟩

/-- The clock is behind the end of a step that is not over, by more than the tolerance in fact. -/
theorem elapsed_lt_target (hf : p.elapsed.isFinite) (hn : ¬p.target.isNaN) (hdue : ¬p.isDue) :
    p.elapsed < p.target := by
  obtain ⟨htf, ht0, -⟩ := timeTolerance_bounds
  unfold isDue at hdue
  rw [decide_eq_true_iff] at hdue
  exact Scalar.lt_of_not_le_add hf hn htf ht0 hdue

end Playhead

namespace Scene

/-! ## The way of a path -/

section Track

variable [Target β]

/-- **The entity is where its path is at the time that the clock shows**, if the current step is a path that takes
time. A way that is too long to be divided has waypoints at no time at all. -/
def OnTrack (steps : Sequence) (s : Scene γ β) : Prop :=
  ∀ duration count interpolation, steps[s.controller.step]? = some (.path duration count interpolation) →
    0 < duration → s.controller.mode = .path → s.controller.elapsed.isFinite →
    s.controller.path.waypoints ≠ #[] → (∀ w ∈ s.controller.path.waypoints, ¬w.time.isNaN) →
    s.controller.path.position? s.controller.elapsed = some s.plane

variable {steps : Sequence} {s : Scene γ β}

/-- A path leaves the entity where the path is at the time to which it is followed. -/
theorem position_follow [LawfulTarget β] {time : Scalar} (h : s.controller.path.waypoints ≠ #[]) :
    s.controller.path.position? time = some (s.follow time).plane := by
  obtain ⟨p, hp⟩ := PathTable.exists_position h time
  rw [hp, plane, plane_follow s hp]

/-- It is enough to follow a path that is not over to the time on the clock, or to its start if the clock is not
past it. -/
theorem onTrack_of_position (hset : s.controller.playhead.Settled steps) (hdue : ¬s.controller.isDue)
    (h : s.controller.mode = .path → s.controller.path.waypoints ≠ #[] → s.controller.elapsed.isFinite →
      s.controller.elapsed < s.controller.target →
      s.controller.path.position? (if 0 < s.controller.elapsed then s.controller.elapsed else 0) =
          some s.plane ∨
        s.controller.path.position? s.controller.elapsed = some s.plane) :
    s.OnTrack steps := by
  intro duration count interpolation hstep hpos hmode hfinite hne hnan
  obtain ⟨htarget, settings, hbuild⟩ := hset.target_path hstep hpos
  have hlt : s.controller.elapsed < s.controller.target := by
    refine Playhead.elapsed_lt_target (p := s.controller.playhead) hfinite ?_ hdue
    rw [htarget]
    exact Scalar.not_isNaN_of_lt hpos
  rcases h hmode hne hfinite hlt with hclock | hclock
  · split at hclock
    · exact hclock
    · next hstart =>
      -- the clock may show a negative time, when the step before has ended early
      have hbuild' : s.controller.path = _ := hbuild
      rw [← hclock, PathTable.position_of_not_pos hbuild' hne hnan hpos hfinite hstart,
        PathTable.position_of_not_pos hbuild' hne hnan hpos rfl (by decide)]
  · exact hclock

/-- **In the middle of a path** the slice of an update is all of it, if the path is not over afterwards. -/
theorem onTrack_proceed [LawfulTarget β] (hset : s.controller.playhead.Settled steps) (delta : Scalar)
    (hdue : ¬(s.proceed delta).controller.isDue) : (s.proceed delta).OnTrack steps := by
  have hp := playhead_proceed s delta
  have hset' : (s.proceed delta).controller.playhead.Settled steps := by
    rw [hp]
    exact hset
  refine onTrack_of_position hset' hdue fun hmode hne hfinite hlt => .inr ?_
  have hmode' : s.controller.mode = .path := (congrArg Playhead.mode hp).symm.trans hmode
  have hpath : (s.proceed delta).controller.path = s.controller.path := congrArg Playhead.path hp
  have helapsed : (s.proceed delta).controller.elapsed = s.controller.elapsed + delta := congrArg Playhead.elapsed hp
  have htarget : (s.proceed delta).controller.target = s.controller.target := congrArg Playhead.target hp
  rw [hpath] at hne ⊢
  rw [helapsed] at hfinite hlt ⊢
  rw [htarget] at hlt
  have hplane : (s.proceed delta).plane = (s.follow (s.controller.elapsed + delta)).plane := by
    unfold proceed advance
    dsimp only
    rw [hmode', Scalar.min_gap hfinite hlt]
    rfl
  rw [hplane]
  exact position_follow hne

variable [LawfulTarget β] [Generator γ β]

/-- **A path that has just been reached** is followed for what is left of the update, and not before its start. -/
theorem onTrack_stay {rest : List Step} {step : Step}
    (hset : (s.reach rest step).controller.playhead.Settled steps)
    (hdue : ¬(s.reach rest step).overflow.controller.isDue) : (s.reach rest step).overflow.OnTrack steps := by
  generalize s.reach rest step = q at *
  have hp := playhead_overflow q
  have hset' : q.overflow.controller.playhead.Settled steps := by
    rw [hp]
    exact hset
  refine onTrack_of_position hset' hdue fun hmode hne hfinite hlt => .inl ?_
  have hmode' : q.controller.mode = .path := (congrArg Playhead.mode hp).symm.trans hmode
  have hpath : q.overflow.controller.path = q.controller.path := congrArg Playhead.path hp
  have helapsed : q.overflow.controller.elapsed = q.controller.elapsed := congrArg Playhead.elapsed hp
  have htarget : q.overflow.controller.target = q.controller.target := congrArg Playhead.target hp
  rw [hpath] at hne ⊢
  rw [helapsed, htarget] at hlt
  rw [helapsed]
  have hover : q.overflow = q.follow (if 0 < q.controller.elapsed then q.controller.elapsed else 0) := by
    unfold overflow advance
    rw [hmode', Scalar.zero_add_max_min hlt]
  rw [hover]
  exact position_follow hne

/-- Playback from step to step leaves the entity on its track. -/
theorem onTrack_play (hready : s.controller.playhead.Ready) (hle : s.controller.step ≤ steps.length) :
    (play (steps.drop s.controller.step) s).OnTrack steps := by
  refine play_induction (fun q => q.controller.playhead.Ready) (OnTrack steps) ?_ ?_ ?_ ?_ ?_ hready hle
  · intro q _ hend duration count interpolation hstep
    rw [step_overflow, hend, List.getElem?_eq_none le_rfl] at hstep
    cases hstep
  · intro q step hq _ hi
    have hnext : (q.controller.playhead.enter (steps.drop (q.controller.step + 1)) step).next.Ready :=
      hq.enter_instant hi
    rwa [← playhead_reach q] at hnext
  · intro q step _ _ _ hv duration count interpolation _ _ hmode
    unfold Controller.isDeletable at hv
    rw [hmode] at hv
    cases hv
  · intro q step hq hstep hi _ hdue
    have hset := hq.settled_enter hstep hi
    rw [show q.controller.playhead.step = q.controller.step from rfl, ← playhead_reach q] at hset
    exact onTrack_stay hset hdue
  · intro q step hq hstep hi hv _
    have hset := hq.settled_enter hstep hi
    rw [show q.controller.playhead.step = q.controller.step from rfl, ← playhead_reach q, ← playhead_overflow] at hset
    refine Playhead.Ready.leave (Playhead.mode_of_settled hset fun hm => hv ?_)
    rw [playhead_overflow] at hm
    exact beq_iff_eq.2 hm

/-- **An update leaves the entity on its track**, wherever playback stood. -/
theorem onTrack_playOn (hset : s.controller.playhead.Settled steps) (hv : s.controller.mode ≠ .vanished)
    (delta : Scalar) : (s.playOn delta steps).OnTrack steps := by
  have hp := playhead_proceed s delta
  unfold playOn
  dsimp only
  split
  · next hd =>
    have hready : (s.proceed delta).leave.controller.playhead.Ready := by
      refine Playhead.Ready.leave (p := (s.proceed delta).controller.playhead) ?_
      rw [hp]
      exact Playhead.mode_of_settled hset hv
    exact onTrack_play hready hd.2
  · next hd =>
    by_cases hdue : (s.proceed delta).controller.isDue
    · -- at the end of the sequence
      intro duration count interpolation hstep
      have hlt := (List.getElem?_eq_some_iff.1 hstep).1
      exact absurd ⟨hdue, hlt⟩ hd
    · exact onTrack_proceed hset delta hdue

theorem onTrack_update (hsound : s.controller.playhead.Sound) (hsteps : s.controller.steps? = some steps)
    (delta : Scalar) : (s.update delta).OnTrack steps := by
  have hupdate := playhead_update s delta
  have hflush := playhead_flush_tick s delta
  -- neither manual control nor the end of the script leaves a path to follow
  by_cases hm : s.controller.mode = .manual
  · intro duration count interpolation _ _ hmode
    rw [Playhead.update_manual hm] at hupdate
    have hmode' := (congrArg Playhead.mode hupdate).symm.trans hmode
    exact absurd (hm.symm.trans hmode') (by decide)
  by_cases hv : s.controller.mode = .vanished
  · intro duration count interpolation _ _ hmode
    rw [Playhead.update_vanished hv] at hupdate
    have hmode' := (congrArg Playhead.mode hupdate).symm.trans hmode
    exact absurd (hv.symm.trans hmode') (by decide)
  have hset : s.controller.playhead.Settled steps := by
    obtain ⟨steps', hsteps', hset⟩ := hsound.exists_settled hm
    cases hsteps.symm.trans hsteps'
    exact hset
  rw [update_driven (Playhead.mode_of_settled hset hv) hsteps]
  refine onTrack_playOn ?_ ?_ delta
  · rwa [hflush]
  · rw [mode_flush_tick]
    exact hv

end Track

/-! ## Depth -/

section Depth

variable [Target β]

/-- The entity is at the same depth. -/
def Level (s t : Scene γ β) : Prop := Scalar.SameNumber (Target.position t.body).z (Target.position s.body).z

variable {s t u : Scene γ β}

theorem Level.trans (h : s.Level t) (h' : t.Level u) : s.Level u := Scalar.SameNumber.trans h' h

theorem level_of_position (h : Target.position t.body = Target.position s.body) : s.Level t := by
  unfold Level
  rw [h]
  exact .refl _

section Motion

variable [LawfulTarget β] [LevelTarget β]

omit [LevelTarget β] in
theorem level_face (s : Scene γ β) (direction : Vec2) : s.Level (s.face direction) :=
  level_of_position (position_face s direction)

theorem level_drift (s : Scene γ β) (dt : Scalar) : s.Level (s.drift dt) := by
  unfold drift
  split
  · exact level_of_position rfl
  · -- nothing is added to the depth, but that may take the sign from a zero
    have hsum : Scalar.SameNumber (Target.position s.body + Vec3.ofPlane (s.controller.velocity * dt) 0).z
        (Target.position s.body).z := Scalar.sameNumber_add_zero Scalar.zero_beq_zero
    have hmove := LevelTarget.depth_moveTo s.body _ hsum
    dsimp only
    split
    · exact hmove
    · refine Level.trans ?_ (level_face _ _)
      exact hmove

theorem level_follow (s : Scene γ β) (time : Scalar) : s.Level (s.follow time) := by
  have hmove : ∀ p : Vec2, s.Level { s with body := Target.moveTo s.body (.ofPlane p (Target.position s.body).z) } :=
    fun p => LevelTarget.depth_moveTo s.body _ (.refl _)
  unfold follow
  dsimp only
  -- by whether there is a heading, and then by whether there is a point
  split
  · split
    · exact (hmove _).trans (level_face _ _)
    · exact level_face s _
  · split
    · exact hmove _
    · exact level_of_position rfl

end Motion

variable [Generator γ β]

/-- Nothing but the script changes the depth. -/
def Calm (s : Scene γ β) : Prop := s.controller.generator = none ∨ KeepsDepth γ β

/-- The entity is at the same depth, and nothing but the script will change it. -/
def KeepsLevel (s t : Scene γ β) : Prop := s.Level t ∧ t.Calm

theorem KeepsLevel.trans (h : s.KeepsLevel t) (h' : t.KeepsLevel u) : s.KeepsLevel u := ⟨h.1.trans h'.1, h'.2⟩

theorem Calm.keepsLevel_control (h : s.Calm) {f : Controller γ → Controller γ}
    (hf : (f s.controller).generator = s.controller.generator) : s.KeepsLevel (s.control f) :=
  ⟨level_of_position rfl, h.imp hf.trans id⟩

theorem Calm.keepsLevel_leave (h : s.Calm) : s.KeepsLevel s.leave := h.keepsLevel_control (f := (·.leave)) rfl

theorem Calm.keepsLevel_callGenerator (h : s.Calm) (delta : Scalar) : s.KeepsLevel (s.callGenerator delta) := by
  rcases h with hn | hk
  · rw [callGenerator_of_none hn]
    exact ⟨level_of_position rfl, .inl hn⟩
  · refine ⟨?_, .inr hk⟩
    unfold callGenerator
    split
    · exact level_of_position rfl
    · exact hk _ _ _

variable [LawfulTarget β]

theorem Calm.keepsLevel_switch (h : s.Calm) (n : ℕ) : s.KeepsLevel (s.switch n) :=
  ⟨level_of_position (LawfulTarget.position_animate _ _), h⟩

theorem Calm.keepsLevel_deliver (h : s.Calm) (step : Step) : s.KeepsLevel (s.deliver step) := by
  unfold deliver
  split
  · exact h.keepsLevel_switch _
  · split
    · have hactive := h.keepsLevel_control (f := fun c => { c with activation := .active }) rfl
      exact hactive.trans (hactive.2.keepsLevel_callGenerator 0)
    · exact ⟨level_of_position rfl, h⟩
  · exact ⟨level_of_position rfl, h⟩

theorem Calm.keepsLevel_reach (h : s.Calm) (rest : List Step) (step : Step) : s.KeepsLevel (s.reach rest step) := by
  have henter : s.KeepsLevel ((s.note (.reached s.controller.step step)).control (·.enter rest step)) :=
    ⟨level_of_position rfl, h.imp (Controller.generator_enter rest s.controller step).trans id⟩
  exact henter.trans (henter.2.keepsLevel_deliver step)

theorem Calm.keepsLevel_flush (h : s.Calm) : s.KeepsLevel s.flush := by
  obtain ⟨t, ht, hflush⟩ := flush_cases s
  have hswitch : s.KeepsLevel t := by
    rcases ht with ⟨-, rfl⟩ | ⟨n, -, rfl⟩
    · exact ⟨level_of_position rfl, h⟩
    · have hnone := h.keepsLevel_control (f := fun c => { c with pendingAnimation := none }) rfl
      exact hnone.trans (hnone.2.keepsLevel_switch n)
  rcases hflush with ⟨-, hflush⟩ | ⟨-, hflush⟩
  · rwa [hflush]
  · have hactive := hswitch.2.keepsLevel_control (f := fun c => { c with activation := .active }) rfl
    rw [hflush]
    exact hswitch.trans (hactive.trans (hactive.2.keepsLevel_callGenerator 0))

omit [LawfulTarget β] in
theorem Calm.keepsLevel_tick (h : s.Calm) (delta : Scalar) : s.KeepsLevel (s.tick delta) := by
  unfold tick
  split
  · exact h.keepsLevel_callGenerator delta
  · exact ⟨level_of_position rfl, h⟩

variable [LevelTarget β]

theorem Calm.keepsLevel_drift (h : s.Calm) (dt : Scalar) : s.KeepsLevel (s.drift dt) :=
  ⟨level_drift s dt, h.imp (generator_drift s dt).trans id⟩

theorem Calm.keepsLevel_follow (h : s.Calm) (time : Scalar) : s.KeepsLevel (s.follow time) := by
  refine ⟨level_follow s time, h.imp (fun hn => ?_) id⟩
  rwa [controller_follow]

/-- **Every stage of an update keeps the depth.** -/
theorem kept_keepsLevel (s : Scene γ β) : Kept s.KeepsLevel where
  flush _ h := h.trans h.2.keepsLevel_flush
  tick _ delta h := h.trans (h.2.keepsLevel_tick delta)
  drift _ dt h := h.trans (h.2.keepsLevel_drift dt)
  follow _ time h := h.trans (h.2.keepsLevel_follow time)
  clock _ _ h := h.trans (h.2.keepsLevel_control rfl)
  reach _ rest step h := h.trans (h.2.keepsLevel_reach rest step)
  next _ h := h.trans (h.2.keepsLevel_control rfl)
  leave _ h := h.trans h.2.keepsLevel_leave

end Depth

end Scene

namespace Controller

variable [Target β] [Generator γ β]

theorem sound_updates {s : Scene γ β} (h : s.controller.playhead.Sound) (deltas : List Scalar) :
    (deltas.foldl Scene.update s).controller.playhead.Sound := by
  induction deltas generalizing s with
  | nil => exact h
  | cons delta deltas ih =>
    refine ih ?_
    rw [Scene.playhead_update]
    exact h.update delta

/-- **Where a path puts the entity depends on the clock alone.** Let a scene come from any operations of an owner and
then from any updates, and let it be on a path that takes time and has waypoints, all of them at some time. Then the
entity is where the path is at the time that the clock shows. If no generator interferes, then the entity has still
the depth that it had before those updates. -/
theorem position_follows_clock [LawfulTarget β] [LevelTarget β] (ops : List (Operation γ β)) {body : β}
    {deltas : List Scalar} (hne : deltas ≠ []) {s : Scene γ β}
    (hs : s = deltas.foldl Scene.update { controller := after ops, body }) {steps : Sequence} {duration : Scalar}
    {count : ℕ} {interpolation : Interpolation} (hsteps : s.controller.steps? = some steps)
    (hstep : steps[s.controller.step]? = some (.path duration count interpolation)) (hpos : 0 < duration)
    (hmode : s.controller.mode = .path) (hfinite : s.controller.elapsed.isFinite)
    (hwaypoints : s.controller.path.waypoints ≠ #[])
    (hnumbers : ∀ w ∈ s.controller.path.waypoints, ¬w.time.isNaN) :
    s.controller.path.position? s.controller.elapsed = some s.plane ∧
      ((after ops : Controller γ).generator = none ∨ KeepsDepth γ β →
        Scalar.SameNumber (Target.position s.body).z (Target.position body).z) := by
  constructor
  · -- the last update alone decides
    obtain rfl | ⟨earlier, delta, rfl⟩ := List.eq_nil_or_concat deltas
    · exact absurd rfl hne
    rw [List.concat_eq_append, List.foldl_append, List.foldl_cons, List.foldl_nil] at hs
    have hsound := sound_updates (s := { controller := after ops, body }) (sound_after ops) earlier
    generalize List.foldl Scene.update { controller := after ops, body } earlier = t at *
    subst hs
    have hsteps' : t.controller.steps? = some steps := by
      rw [← hsteps]
      exact ((congrArg Playhead.steps? (Scene.playhead_update t delta)).trans
        (Playhead.steps?_update t.controller.playhead delta)).symm
    exact Scene.onTrack_update hsound hsteps' delta duration count interpolation hstep hpos hmode hfinite
      hwaypoints hnumbers
  · intro hcalm
    rw [hs]
    exact ((Scene.kept_keepsLevel { controller := after ops, body }).updates deltas
      ⟨Scene.level_of_position rfl, hcalm⟩).1

theorem position_follows_clock_after_wait :
    let script : ScriptSet := ⟨"path", [[.wait 0.1, .path 1 2 .linear, .point ⟨0, 0⟩, .point ⟨10, 0⟩]]⟩
    let body : Body := { position := ⟨3, 4, 5⟩ }
    let ops : List (Operation Stock Body) := [.bind script 0]
    let s : Scene Stock Body := [0.3, 0.3].foldl Scene.update { controller := after ops, body }
    s.controller.mode = .path ∧ s.controller.path.position? s.controller.elapsed = some s.plane ∧
      Scalar.SameNumber (Target.position s.body).z (Target.position body).z := by
  intro script body ops s
  have hs : s = [0.3, 0.3].foldl Scene.update { controller := after ops, body } := rfl
  have hsteps : s.controller.steps? = some [.wait 0.1, .path 1 2 .linear, .point ⟨0, 0⟩, .point ⟨10, 0⟩] := by
    decide +kernel
  have hstep : [Step.wait 0.1, .path 1 2 .linear, .point ⟨0, 0⟩, .point ⟨10, 0⟩][s.controller.step]? =
      some (.path 1 2 .linear) := by decide +kernel
  have hmode : s.controller.mode = .path := by decide +kernel
  obtain ⟨hplane, hdepth⟩ := position_follows_clock ops (List.cons_ne_nil _ _) hs hsteps hstep (by decide +kernel)
    hmode (by decide +kernel) (by decide +kernel) (by decide +kernel)
  exact ⟨hmode, hplane, hdepth (.inl (by decide +kernel))⟩

end Controller

end MotionScript
