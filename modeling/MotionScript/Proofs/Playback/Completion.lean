import MotionScript.Proofs.Playback.Journal
import MotionScript.Proofs.Playback.Settled
import MotionScript.Proofs.Scalar.Sign
import MotionScript.Generator.Stock

/-!
# How paths end

A path is left when its time is up, which the tolerance of the clock makes a little early. Its last motion
puts the entity on the path all the same, at its end if the motion went that far, and there the entity stays
as long as nothing else moves it.

* `Scene.EndsPath`: a scene in which a path is about to be left.
* `Scene.exists_endsPath`: an update in which a path is left comes to such a scene.
* `Scene.plane_play`: what follows a path without moving the entity.
* `Controller.path_completion`: both, after any operations of an owner.
-/

namespace MotionScript

variable {γ β : Type}

/-- A generator that leaves every entity where it is on the screen. -/
def KeepsPlace (γ β : Type) [Target β] [Generator γ β] : Prop :=
  ∀ (g : γ) (call : Call) (b : β),
    (Target.position (Generator.call g call b).2.1).plane = (Target.position b).plane

/-- The step sets a velocity or an acceleration. -/
def Step.SetsMotion (step : Step) : Prop :=
  (∃ direction speed, step = .move direction speed) ∨ ∃ direction amount, step = .accelerate direction amount

/-- **Steps that leave an entity where a path has put it**: they take no time up to one that ends the script, or
to the end of the sequence, provided that then some other step has taken the entity off the path. -/
def HoldsStill (steps : List Step) : Prop :=
  (∃ before after, steps = before ++ .vanish :: after ∧ ∀ step ∈ before, step.IsInstant) ∨
    (∀ step ∈ steps, step.IsInstant) ∧ ∃ step ∈ steps, step.SetsMotion

/-- Steps that take no time do not set the entity on a path. -/
theorem mode_of_instants {steps : List Step} (hi : ∀ step ∈ steps, step.IsInstant) :
    steps.foldl (fun mode step => step.modeFrom mode) .move = .move := by
  induction steps with
  | nil => rfl
  | cons step steps ih =>
    obtain ⟨hstep, hsteps⟩ := List.forall_mem_cons.1 hi
    have hmode : step.modeFrom .move = .move := by cases step <;> first | rfl | cases hstep
    rw [List.foldl_cons, hmode, ih hsteps]

/-- A step that sets a motion takes the entity off its path. -/
theorem mode_of_setsMotion {steps : List Step} (hi : ∀ step ∈ steps, step.IsInstant)
    (h : ∃ step ∈ steps, step.SetsMotion) (mode : Mode) :
    steps.foldl (fun mode step => step.modeFrom mode) mode = .move := by
  induction steps generalizing mode with
  | nil =>
    obtain ⟨step, hmem, -⟩ := h
    cases hmem
  | cons step steps ih =>
    obtain ⟨hstep, hsteps⟩ := List.forall_mem_cons.1 hi
    obtain ⟨step', hmem, hsets⟩ := h
    rw [List.foldl_cons]
    rcases List.mem_cons.1 hmem with rfl | hmem
    · have hmode : step'.modeFrom mode = .move := by
        rcases hsets with ⟨a, b, rfl⟩ | ⟨a, b, rfl⟩ <;> rfl
      rw [hmode, mode_of_instants hsteps]
    · exact ih hsteps ⟨step', hmem, hsets⟩ _

namespace Scene

/-- The point of the screen where the entity is. -/
def plane [Target β] (s : Scene γ β) : Vec2 := (Target.position s.body).plane

variable [Target β] [LawfulTarget β] [Generator γ β]

/-- Nothing but the script moves the entity. -/
def Steady (s : Scene γ β) : Prop := s.controller.generator = none ∨ KeepsPlace γ β

variable {s : Scene γ β} {steps : Sequence} {rest : List Step} {step : Step}

omit [LawfulTarget β] in
theorem plane_callGenerator (h : s.Steady) (delta : Scalar) : (s.callGenerator delta).plane = s.plane := by
  unfold callGenerator
  rcases h with h | h
  · rw [h]
  · split
    · rfl
    · exact h _ _ _

omit [LawfulTarget β] in
theorem Steady.reach (h : s.Steady) (rest : List Step) (step : Step) : (s.reach rest step).Steady :=
  h.imp (fun hn => generator_reach hn rest step) id

theorem plane_reach (h : s.Steady) (rest : List Step) (step : Step) : (s.reach rest step).plane = s.plane := by
  unfold Scene.reach deliver
  split
  · exact congrArg Vec3.plane (LawfulTarget.position_animate _ _)
  · split
    · rw [plane_callGenerator]
      · rfl
      · exact h.imp (fun hn => (Controller.generator_enter _ _ _).trans hn) id
    · rfl
  · rfl

/-- Steps that take no time leave the entity where it is. -/
theorem play_instants (before : List Step) (hi : ∀ step ∈ before, step.IsInstant) (h : s.Steady) (rest : List Step) :
    ∃ t : Scene γ β, play (before ++ rest) s = play rest t ∧ t.plane = s.plane ∧ t.Steady ∧
      t.controller.target = s.controller.target ∧
      t.controller.mode = before.foldl (fun mode step => step.modeFrom mode) s.controller.mode := by
  induction before generalizing s with
  | nil => exact ⟨s, rfl, rfl, h, rfl, rfl⟩
  | cons step before ih =>
    obtain ⟨hstep, hbefore⟩ := List.forall_mem_cons.1 hi
    have hp := playhead_reach s (before ++ rest) step
    have htarget : (s.reach (before ++ rest) step).controller.target = s.controller.target := by
      refine (congrArg Playhead.target hp).trans ?_
      cases step <;> first | rfl | cases hstep
    have hmode : (s.reach (before ++ rest) step).controller.mode = step.modeFrom s.controller.mode :=
      (congrArg Playhead.mode hp).trans (Playhead.mode_enter _ _ _)
    obtain ⟨t, hplay, hplane, hsteady, ht, hm⟩ :=
      ih (s := (s.reach (before ++ rest) step).control (·.next)) hbefore (h.reach _ _)
    refine ⟨t, ?_, hplane.trans (plane_reach h _ _), hsteady, ht.trans htarget, ?_⟩
    · rw [List.cons_append, play_cons, if_pos hstep, hplay]
    · rw [hm, List.foldl_cons, ← hmode]
      rfl

omit [LawfulTarget β] [Generator γ β] in
/-- At the end of a sequence a scene without a path and without a duration stays as it is. -/
theorem overflow_of_move (hm : s.controller.mode = .move) (ht : s.controller.target = 0) : s.overflow = s := by
  have hzero : Scalar.max (Scalar.min s.controller.elapsed 0) 0 ≤ 0 := by
    have hpos : ¬0 < Scalar.min s.controller.elapsed 0 := by
      unfold Scalar.min
      split
      · next hneg => exact Scalar.not_lt_of_lt hneg
      · rw [if_neg (by decide)]
        decide
    unfold Scalar.max
    rw [if_neg hpos, if_neg (by decide)]
    decide
  unfold overflow advance
  rw [hm, ht]
  exact drift_of_le s hzero

/-- **What follows a path without moving the entity.** -/
theorem plane_play (h : s.Steady) (ht : s.controller.target = 0) (hrest : HoldsStill rest) :
    (play rest s).plane = s.plane := by
  rcases hrest with ⟨before, after, rfl, hbefore⟩ | ⟨hi, hsets⟩
  · -- up to the end of the script, with whatever mode
    obtain ⟨t, hplay, hplane, hsteady, -, -⟩ := play_instants before hbefore h (.vanish :: after)
    have hvanished : (t.reach after .vanish).controller.isDeletable := by
      have hmode := congrArg Playhead.mode (playhead_reach t after .vanish)
      exact beq_iff_eq.2 hmode
    rw [hplay, play_cons, if_neg (by decide), if_pos hvanished, plane_reach hsteady, hplane]
  · -- up to the end of the sequence, where the motion of the last step still gets its turn
    obtain ⟨t, hplay, hplane, -, htarget, hmode⟩ := play_instants rest hi h []
    have hmove : t.controller.mode = .move := by
      rw [hmode]
      exact mode_of_setsMotion hi hsets _
    rw [List.append_nil] at hplay
    rw [hplay, play, overflow_of_move hmove (htarget.trans ht), hplane]

/-! ## Where a path is left -/

/-- **A scene in which a path is about to be left.** Its last motion has put the entity on the path. -/
structure EndsPath (steps : Sequence) (k : ℕ) (duration : Scalar) (count : ℕ) (interpolation : Interpolation)
    (s : Scene γ β) (time : Scalar) : Prop where
  step : s.controller.step = k
  mode : s.controller.mode = .path
  target : s.controller.target = Scalar.max duration 0
  path : ∃ settings, s.controller.path =
    .build (Step.controlPoints count (steps.drop (k + 1))) duration interpolation settings
  due : s.controller.isDue
  moved : s.journal.head? = some (.followed k time)
  place : s.controller.path.position? time = some s.plane

variable {k count : ℕ} {duration time delta : Scalar} {interpolation : Interpolation}

omit [Generator γ β] in
/-- A step that follows a path ends with the path where it has put the entity. -/
theorem endsPath_of_follow {q : Scene γ β} (hpoints : Step.controlPoints count (steps.drop (k + 1)) ≠ [])
    (hs : s.controller.step = k) (hpath : s.controller.path = q.controller.path)
    (hbody : q.body = (s.follow time).body) (hjournal : q.journal = (s.follow time).journal)
    (step : q.controller.step = k) (mode : q.controller.mode = .path)
    (target : q.controller.target = Scalar.max duration 0)
    (path : ∃ settings, q.controller.path =
      .build (Step.controlPoints count (steps.drop (k + 1))) duration interpolation settings)
    (due : q.controller.isDue) : EndsPath steps k duration count interpolation q time := by
  refine ⟨step, mode, target, path, due, ?_, ?_⟩
  · rw [hjournal, journal_follow, hs, List.head?_cons]
  · obtain ⟨settings, hbuild⟩ := path
    have hne : s.controller.path.waypoints ≠ #[] := by
      rw [hpath, hbuild]
      exact fun h => hpoints (PathTable.waypoints_build_eq_empty.1 h)
    obtain ⟨p, hp⟩ := PathTable.exists_position hne time
    rw [← hpath, hp, plane, hbody, plane_follow s hp]

/-- A path that has just been reached. -/
theorem endsPath_reach {q : Scene γ β} (hpoints : Step.controlPoints count (steps.drop (k + 1)) ≠ [])
    (hq : q.controller.step = k)
    (due : (q.reach (steps.drop (k + 1)) (.path duration count interpolation)).overflow.controller.isDue) :
    EndsPath steps k duration count interpolation
      (q.reach (steps.drop (k + 1)) (.path duration count interpolation)).overflow
      (0 + Scalar.max (Scalar.min q.controller.elapsed (Scalar.max duration 0)) 0) := by
  have hp := playhead_reach q (steps.drop (k + 1)) (.path duration count interpolation)
  generalize q.reach (steps.drop (k + 1)) (.path duration count interpolation) = b at *
  have hstep : b.controller.step = k := (congrArg Playhead.step hp).trans hq
  have hmode : b.controller.mode = .path := congrArg Playhead.mode hp
  have htarget : b.controller.target = Scalar.max duration 0 := congrArg Playhead.target hp
  have helapsed : b.controller.elapsed = q.controller.elapsed := congrArg Playhead.elapsed hp
  have hpath : b.controller.path = .build (Step.controlPoints count (steps.drop (k + 1))) duration interpolation
    q.controller.curve := congrArg Playhead.path hp
  have hover : b.overflow =
      b.follow (0 + Scalar.max (Scalar.min q.controller.elapsed (Scalar.max duration 0)) 0) := by
    unfold overflow advance
    rw [hmode, helapsed, htarget]
  rw [hover] at due ⊢
  rw [controller_follow] at due
  refine endsPath_of_follow hpoints hstep ?_ rfl rfl ?_ ?_ ?_ ⟨q.controller.curve, ?_⟩ ?_ <;>
    rw [controller_follow]
  all_goals assumption

omit [Generator γ β] in
/-- A path that has been followed for some time. -/
theorem endsPath_proceed (hpoints : Step.controlPoints count (steps.drop (k + 1)) ≠ [])
    (hset : s.controller.playhead.Settled steps) (hs : s.controller.step = k)
    (hstep : steps[k]? = some (.path duration count interpolation)) (due : (s.proceed delta).controller.isDue) :
    EndsPath steps k duration count interpolation (s.proceed delta)
      (s.controller.elapsed + Scalar.min (Scalar.max (Scalar.max duration 0 - s.controller.elapsed) 0) delta) := by
  have hp := playhead_proceed s delta
  unfold Playhead.Settled at hset
  rw [show s.controller.playhead.step = k from hs, hstep] at hset
  obtain ⟨hmode, htarget, settings, hpath⟩ := hset
  have hmode' : s.controller.mode = .path := hmode
  have htarget' : s.controller.target = Scalar.max duration 0 := htarget
  have hproceed : s.proceed delta =
      (s.follow (s.controller.elapsed +
        Scalar.min (Scalar.max (Scalar.max duration 0 - s.controller.elapsed) 0) delta)).control
          fun c => { c with elapsed := c.elapsed + delta } := by
    unfold proceed advance
    dsimp only
    rw [hmode', htarget']
  refine endsPath_of_follow hpoints hs ?_ ?_ ?_ ?_ ?_ ?_ ⟨settings, ?_⟩ due
  · exact (congrArg Playhead.path hp).symm
  · rw [hproceed]
    rfl
  · rw [hproceed]
    rfl
  · exact (congrArg Playhead.step hp).trans hs
  · exact (congrArg Playhead.mode hp).trans hmode
  · exact (congrArg Playhead.target hp).trans htarget
  · exact (congrArg Playhead.path hp).trans hpath

omit [LawfulTarget β] in
/-- Before playback no step is left. -/
theorem left_of_update (hj : s.journal = []) : .left k ∉ (s.flush.tick delta).journal := by
  intro hm
  have h := (logs_flush s 0).left_mem ((logs_tick s.flush delta 0).left_mem hm)
  rw [hj] at h
  exact absurd h List.not_mem_nil

theorem Steady.prepare (h : s.Steady) (delta : Scalar) : (s.flush.tick delta).Steady := by
  refine h.imp (fun hn => ?_) id
  have hf := (flush_of_none hn).1
  rw [tick_of_none hf, hf]

omit [LawfulTarget β] in
theorem Steady.overflow (h : s.Steady) : s.overflow.Steady := h.imp (fun hn => (generator_advance s _ _).trans hn) id

/-- **An update in which a path is left** comes to a scene in which the path ends, and goes on from there. -/
theorem exists_endsPath (hj : s.journal = []) (hset : s.controller.playhead.Settled steps)
    (hplaying : s.controller.steps? = some steps)
    (hstep : steps[k]? = some (.path duration count interpolation))
    (hpoints : Step.controlPoints count (steps.drop (k + 1)) ≠ []) (h : .left k ∈ (s.update delta).journal) :
    ∃ (q : Scene γ β) (time : Scalar), EndsPath steps k duration count interpolation q time ∧
      s.update delta = play (steps.drop (k + 1)) q.leave ∧ (s.Steady → q.Steady) ∧
      (s.controller.step = k ∧ q.controller.elapsed = s.controller.elapsed + delta ∧
          time = s.controller.elapsed +
            Scalar.min (Scalar.max (Scalar.max duration 0 - s.controller.elapsed) 0) delta ∨
        s.controller.step < k ∧
          time = 0 + Scalar.max (Scalar.min q.controller.elapsed (Scalar.max duration 0)) 0) := by
  by_cases hv : s.controller.mode = .vanished
  · rw [update_vanished hv] at h
    exact absurd h (left_of_update hj)
  rw [update_driven (Playhead.mode_of_settled hset hv) hplaying] at h ⊢
  have hp := playhead_flush_tick s delta
  have hnot : .left k ∉ (s.flush.tick delta).journal := left_of_update hj
  have hsteady : s.Steady → (s.flush.tick delta).Steady := fun hs => hs.prepare delta
  rw [← hp] at hset
  have hstep0 : (s.flush.tick delta).controller.step = s.controller.step := congrArg Playhead.step hp
  have helapsed : (s.flush.tick delta).controller.elapsed = s.controller.elapsed := congrArg Playhead.elapsed hp
  rw [← hstep0, ← helapsed]
  generalize s.flush.tick delta = b at *
  have hnot' : .left k ∉ (b.proceed delta).journal := fun hm => hnot ((logs_advance b _ _).left_mem hm)
  have hstep' : (b.proceed delta).controller.step = b.controller.step :=
    congrArg Playhead.step (playhead_proceed b delta)
  have hsteady' : s.Steady → (b.proceed delta).Steady :=
    fun hs => (hsteady hs).imp (fun hn => (generator_advance b _ _).trans hn) id
  unfold playOn at h ⊢
  dsimp only at h ⊢
  split at h
  · next hd =>
    rw [if_pos hd]
    -- the path is the current step, or is reached in this update
    rcases eq_or_ne b.controller.step k with hk | hk
    · have helapsed' : (b.proceed delta).controller.elapsed = b.controller.elapsed + delta :=
        congrArg Playhead.elapsed (playhead_proceed b delta)
      refine ⟨b.proceed delta, _, endsPath_proceed hpoints hset hk hstep hd.1, ?_, hsteady',
        .inl ⟨hk, helapsed', rfl⟩⟩
      rw [hstep', hk]
    · have hleave : .left k ∉ (b.proceed delta).leave.journal := by
        intro hm
        rcases List.mem_cons.1 hm with heq | hm
        · exact hk (by rw [← hstep']; exact (Event.left.inj heq).symm)
        · exact hnot' hm
      obtain ⟨q, step, hq, hle, hgen, hfound, hdue, hplay⟩ := play_of_left rfl hleave h
      rw [hstep] at hfound
      cases hfound
      have helapsed' : (q.reach (steps.drop (k + 1)) (.path duration count interpolation)).overflow.controller.elapsed =
          q.controller.elapsed := by
        refine (congrArg Playhead.elapsed (playhead_overflow _)).trans ?_
        exact (congrArg Playhead.elapsed (playhead_reach q _ _)).trans Playhead.elapsed_enter
      refine ⟨_, _, endsPath_reach hpoints hq hdue, hplay, fun hs => ?_, .inr ⟨?_, by rw [helapsed']⟩⟩
      · have hq' : q.Steady := (hsteady' hs).imp hgen id
        exact (hq'.reach _ _).overflow
      · have hlt : (b.proceed delta).controller.step + 1 ≤ k := hle
        rw [hstep'] at hlt
        exact hlt
  · exact absurd h hnot'

end Scene

/-- A motion to the end of a step goes that far, but for rounding. -/
theorem le_slice {D e delta : Scalar} (h : D ≤ e + delta) :
    D ≤ e + Scalar.min (Scalar.max (D - e) 0) delta ∨
      e + Scalar.min (Scalar.max (D - e) 0) delta = e + Scalar.max (D - e) 0 := by
  unfold Scalar.min
  split
  · exact .inr rfl
  · split
    · exact .inr rfl
    · exact .inl h

/-- A motion from the start of a step to its end goes that far. -/
theorem le_whole_slice {duration e : Scalar} (h : Scalar.max duration 0 ≤ e) :
    Scalar.max duration 0 ≤ 0 + Scalar.max (Scalar.min e (Scalar.max duration 0)) 0 := by
  rw [Scalar.min_of_le h]
  by_cases hpos : 0 < duration
  · obtain ⟨hadd, hle⟩ := Scalar.zero_add_of_pos hpos
    have hmax : Scalar.max duration 0 = duration := if_pos hpos
    rw [hmax, hmax, hadd]
    exact hle
  · have hmax : Scalar.max duration 0 = 0 := by
      unfold Scalar.max
      rw [if_neg hpos, if_neg (by decide)]
    rw [hmax]
    decide

namespace Scene

variable [Target β] {steps : Sequence} {k count : ℕ} {duration time : Scalar} {interpolation : Interpolation}
  {q : Scene γ β}

/-- A path ends at its last waypoint if its last motion goes that far. -/
theorem EndsPath.exists_last (h : q.EndsPath steps k duration count interpolation time)
    (hpoints : Step.controlPoints count (steps.drop (k + 1)) ≠ []) :
    ∃ last, q.controller.path.waypoints.back? = some last ∧ last.time = Scalar.max duration 0 ∧
      (Scalar.max duration 0 ≤ time → q.plane = last.position) := by
  obtain ⟨settings, hpath⟩ := h.path
  obtain ⟨last, hlast, htime⟩ := PathTable.exists_back_build hpoints duration interpolation settings
  rw [← hpath] at hlast
  refine ⟨last, hlast, htime, fun hle => ?_⟩
  have hplace := PathTable.position_of_le hlast (htime.trans_le hle)
  rw [h.place] at hplace
  exact Option.some.inj hplace

/-- What the journal of an update holds that goes on from a scene in which a path ends. -/
theorem EndsPath.exists_later [Generator γ β] (h : q.EndsPath steps k duration count interpolation time)
    (rest : List Step) : ∃ later : List (Event β),
      (play rest q.leave).events = q.events ++ .left k :: later ∧ ∀ e ∈ later, e.From (k + 1) := by
  obtain ⟨l, hl, hfrom⟩ := logs_play rest q.leave
  have hstep : q.leave.controller.step = k + 1 := congrArg (· + 1) h.step
  have hjournal : q.leave.journal = .left k :: q.journal := by rw [← h.step]; rfl
  rw [hstep] at hfrom
  refine ⟨l.reverse, ?_, fun e he => hfrom e (List.mem_reverse.1 he)⟩
  rw [events, hl, hjournal, List.reverse_append, List.reverse_cons, List.append_assoc]
  rfl

/-- Under manual control no step is left. -/
theorem left_of_manual [Generator γ β] {s : Scene γ β} (hj : s.journal = []) (hm : s.controller.mode = .manual)
    (delta : Scalar) : .left k ∉ (s.update delta).journal := by
  rw [update_manual hm]
  exact fun h => left_of_update hj ((logs_drift (s.flush.tick delta) delta).left_mem h)

end Scene

namespace Controller

/-- **How a path ends.** After any operations of an owner, let an update leave a path that has control points.
Its last motion, to a time `time`, has put the entity where the path is then, and nothing about the step or
those before it follows. The time is as far as the update goes in it. If the step does not end early that is
the whole duration, but for rounding, and then the path is at its last waypoint. What holds still leaves the
entity there. -/
theorem path_completion [Target β] [LawfulTarget β] [Generator γ β] (ops : List (Operation γ β))
    {script : ScriptSet} {steps : Sequence} (hscript : (after ops).script = some script)
    (hsteps : script.sequence? (after ops).sequence = some steps) {k count : ℕ} {duration : Scalar}
    {interpolation : Interpolation} (hstep : steps[k]? = some (.path duration count interpolation))
    (hpoints : Step.controlPoints count (steps.drop (k + 1)) ≠ []) (body : β) (delta : Scalar) {s : Scene γ β}
    (hs : s = Scene.update { controller := after ops, body } delta) (hleft : .left k ∈ s.events) :
    ∃ (q : Scene γ β) (time : Scalar) (later : List (Event β)) (last : Waypoint),
      q.EndsPath steps k duration count interpolation time ∧
      s = Scene.play (steps.drop (k + 1)) q.leave ∧
      s.events = q.events ++ .left k :: later ∧ (∀ e ∈ later, e.From (k + 1)) ∧
      ((after ops).step = k ∧ q.controller.elapsed = (after ops).elapsed + delta ∧
          time = (after ops).elapsed +
            Scalar.min (Scalar.max (Scalar.max duration 0 - (after ops).elapsed) 0) delta ∨
        (after ops).step < k ∧
          time = 0 + Scalar.max (Scalar.min q.controller.elapsed (Scalar.max duration 0)) 0) ∧
      (Scalar.max duration 0 ≤ q.controller.elapsed → Scalar.max duration 0 ≤ time ∨
        (after ops).step = k ∧
          time = (after ops).elapsed + Scalar.max (Scalar.max duration 0 - (after ops).elapsed) 0) ∧
      q.controller.path.waypoints.back? = some last ∧ last.time = Scalar.max duration 0 ∧
      (Scalar.max duration 0 ≤ time → q.plane = last.position) ∧
      ((after ops).generator = none ∨ KeepsPlace γ β → HoldsStill (steps.drop (k + 1)) → s.plane = q.plane) := by
  have hsound := sound_after ops
  unfold Playhead.Sound at hsound
  rw [show (after ops).playhead.script = some script from hscript] at hsound
  obtain ⟨steps', hsteps', -, hset⟩ := hsound
  cases (show script.sequence? (after ops).sequence = some steps' from hsteps').symm.trans hsteps
  have hplaying : (after ops).steps? = some steps := by
    rw [steps?, hscript, Option.bind_some, hsteps]
  rw [Scene.events, List.mem_reverse, hs] at hleft
  by_cases hm : (after ops).mode = .manual
  · exact absurd hleft (Scene.left_of_manual rfl hm delta)
  obtain ⟨q, time, hq, hplay, hsteady, htime⟩ :=
    Scene.exists_endsPath rfl (hset hm) hplaying hstep hpoints hleft
  obtain ⟨later, hevents, hlater⟩ := hq.exists_later (steps.drop (k + 1))
  obtain ⟨last, hlast, hlasttime, harrive⟩ := hq.exists_last hpoints
  rw [← hs] at hplay
  refine ⟨q, time, later, last, hq, hplay, ?_, hlater, htime, ?_, hlast, hlasttime, harrive, ?_⟩
  · rw [hplay, hevents]
  · intro hdue
    rcases htime with ⟨hk, helapsed, htime⟩ | ⟨-, htime⟩
    · rw [helapsed] at hdue
      rw [htime]
      exact (le_slice hdue).imp_right fun heq => ⟨hk, heq⟩
    · rw [htime]
      exact .inl (le_whole_slice hdue)
  · intro hgen hstill
    have hleave : q.leave.Steady := hsteady hgen
    rw [hplay, Scene.plane_play hleave rfl hstill]
    rfl

theorem path_completion_vanish :
    let steps : Sequence := [.path 1 2 .linear, .point ⟨0, 0⟩, .point ⟨10, 0⟩, .vanish]
    let ops : List (Operation Stock Body) := [.bind ⟨"path", [steps]⟩ 0, .update 0.5 {}]
    let s : Scene Stock Body := Scene.update { controller := after ops, body := {} } 0.5
    .left 0 ∈ s.events ∧ ∃ (q : Scene Stock Body) (time : Scalar),
      q.EndsPath steps 0 1 2 .linear time ∧ s.plane = q.plane := by
  intro steps ops s
  have hscript : (after ops).script = some ⟨"path", [steps]⟩ := by decide +kernel
  have hsequence : (after ops).sequence = 0 := by decide +kernel
  have hsteps : (⟨"path", [steps]⟩ : ScriptSet).sequence? (after ops).sequence = some steps := by
    rw [hsequence]
    rfl
  have hstep : steps[0]? = some (.path 1 2 .linear) := rfl
  have hpoints : Step.controlPoints 2 (steps.drop (0 + 1)) ≠ [] := List.cons_ne_nil _ _
  have hleft : .left 0 ∈ s.events := by decide +kernel
  have hstill : HoldsStill (steps.drop (0 + 1)) := .inl ⟨[.point ⟨0, 0⟩, .point ⟨10, 0⟩], [], rfl, by decide⟩
  have hgenerator : (after ops).generator = none := by decide +kernel
  obtain ⟨q, time, _, _, hq, _, _, _, _, _, _, _, _, hplane⟩ :=
    path_completion ops hscript hsteps hstep hpoints {} 0.5 rfl hleft
  exact ⟨hleft, q, time, hq, hplane (.inl hgenerator) hstill⟩

/-- A path that is left early has not come to its last waypoint. -/
theorem path_cut_short :
    let script : ScriptSet := ⟨"path", [[.path 1 2 .linear, .point ⟨0, 0⟩, .point ⟨10, 0⟩, .wait 1]]⟩
    let s : Scene Stock Body := Scene.update { controller := manual.bind script 0, body := {} } 0.99995
    s.events = [.followed 0 0.99995, .left 0, .reached 1 (.point ⟨0, 0⟩), .reached 2 (.point ⟨10, 0⟩),
      .reached 3 (.wait 1)] ∧
    (manual.bind script 0 : Controller Stock).path.waypoints.back?.map (·.position) = some ⟨10, 0⟩ ∧
    s.plane ≠ ⟨10, 0⟩ := by
  decide +kernel

end Controller

end MotionScript
