import MotionScript.Generator.Stock
import MotionScript.Proofs.Playback.Passage
import MotionScript.Proofs.Playback.Strides
import MotionScript.Proofs.Playback.Timeline

/-!
# Time that is spent in strides

If all times are whole numbers of ticks, then the strides on account of a step that waits take just the time of the step,
however often it is cut up by updates.

* `spentBefore`, `spentAt`: the ticks that the strides of each step have to take.
* `Scene.Account.proceed`, `Scene.Account.overflow`, `Scene.Account.leave`: so they do at each stage of an update.
* `Scene.Account.update`: so they do after an update, wherever playback stood.
* `Controller.account_bind`: a binding opens the account.
* `Controller.strides_cover_waits`: how long the strides are in a run, and with which velocities.
-/

namespace MotionScript

variable {γ β : Type}

/-! ## Time on the grid -/

/-- The ticks that a step with an index waits. -/
def waitTicks (steps : Sequence) (i : ℕ) : ℕ :=
  match steps[i]? with
  | some (.wait duration) => duration.ticks
  | _ => 0

/-- The ticks of the strides on account of each step, while playback is on its way to the step with an index. -/
def spentBefore (steps : Sequence) (i k : ℕ) : ℕ := if k < i then waitTicks steps k else 0

/-- The ticks of the strides on account of each step, where playback rests at the step with an index some ticks after
the binding. -/
def spentAt (steps : Sequence) (S i k : ℕ) : ℕ :=
  spentBefore steps i k + if i = k then min (S - ticksBefore steps i) (waitTicks steps i) else 0

section Spent

variable {steps : Sequence} {S i k : ℕ}

theorem waitTicks_of_wait {duration : Scalar} (h : steps[i]? = some (.wait duration)) :
    waitTicks steps i = (Step.wait duration).ticks := by
  rw [waitTicks, h]
  rfl

theorem exists_wait_of_waitTicks (h : waitTicks steps i ≠ 0) : ∃ duration, steps[i]? = some (.wait duration) := by
  unfold waitTicks at h
  split at h
  · next duration hs => exact ⟨duration, hs⟩
  · exact absurd rfl h

theorem spentAt_of_not_wait (h : waitTicks steps i = 0) (S : ℕ) : spentAt steps S i = spentBefore steps i := by
  funext k
  rw [spentAt, h, Nat.min_zero, ite_self, Nat.add_zero]

theorem spentBefore_succ_of_not_wait (h : waitTicks steps i = 0) : spentBefore steps (i + 1) = spentBefore steps i := by
  funext k
  unfold spentBefore
  rcases Nat.lt_trichotomy k i with hk | rfl | hk
  · rw [if_pos (by omega), if_pos hk]
  · rw [if_pos (by omega), if_neg (by omega), h]
  · rw [if_neg (by omega), if_neg (by omega)]

/-- A step that is over has been waited for as long as it takes. -/
theorem spentAt_of_not_stops (hstops : ¬Stops steps S i) : spentAt steps S i = spentBefore steps (i + 1) := by
  have hwait : waitTicks steps i ≤ S - ticksBefore steps i := by
    by_cases h0 : waitTicks steps i = 0
    · omega
    · obtain ⟨duration, hs⟩ := exists_wait_of_waitTicks h0
      have hticks := waitTicks_of_wait hs
      rw [stops_iff_of_duration hs rfl] at hstops
      omega
  funext k
  unfold spentAt spentBefore
  by_cases hk : k < i
  · rw [if_pos hk, if_neg (by omega), if_pos (by omega), Nat.add_zero]
  · by_cases heq : i = k
    · subst heq
      rw [if_neg hk, if_pos rfl, if_pos (by omega), Nat.zero_add]
      omega
    · rw [if_neg hk, if_neg heq, if_neg (by omega)]

end Spent

namespace Playhead

variable {steps : Sequence} {S : ℕ} {p : Playhead}

/-- Velocity and acceleration drive the entity while a step waits, or at the end of the sequence. -/
theorem Settled.target_of_move (h : p.Settled steps) (hgrid : ∀ step ∈ steps, step.OnGrid) (hm : p.mode = .move) :
    p.target.Ticks (waitTicks steps p.step) := by
  unfold Settled at h
  unfold waitTicks
  split at h
  · next hs =>
    rw [hs, h.2.2]
    exact Scalar.clock_zero.toTicks
  · next duration hs =>
    rw [hs, h.2]
    exact (hgrid _ (List.mem_of_getElem? hs) duration rfl).ticks.max_zero.toTicks
  · rw [hm] at h
    cases h.1
  · rw [hm] at h
    cases h.1
  · exact h.elim

theorem Settled.waitTicks_of_ne (h : p.Settled steps) (hm : p.mode ≠ .move) : waitTicks steps p.step = 0 := by
  unfold Settled at h
  unfold waitTicks
  split at h
  · next hs => rw [hs]
  · exact absurd h.1 hm
  · next hs => rw [hs]
  · next hs => rw [hs]
  · exact h.elim

end Playhead

namespace Scene

variable {steps : Sequence} {m : Motion} {S k : ℕ} {s : Scene γ β}

/-- **A step that is over** is left with its strides made. -/
theorem Account.leave (h : s.Account steps m (s.controller.step + 1) (spentAt steps S s.controller.step))
    (hstanding : s.controller.playhead.Standing steps S) (hgrid : ∀ step ∈ steps, step.OnGrid) (hS : S < 2 ^ 23)
    (hv : s.controller.mode ≠ .vanished) (hlt : s.controller.step < steps.length) (hdue : s.controller.isDue) :
    s.leave.controller.playhead.Passing steps S ∧
      s.leave.Account steps m s.leave.controller.step (spentBefore steps s.leave.controller.step) := by
  have hpast : ¬Stops steps S s.controller.step := (hstanding.isDue_iff hgrid hS hv hlt).1 hdue
  refine ⟨hstanding.leave hgrid hS hv hlt hdue, ?_⟩
  show s.leave.Account steps m (s.controller.step + 1) (spentBefore steps (s.controller.step + 1))
  rw [← spentAt_of_not_stops hpast]
  exact h.still ⟨[.left s.controller.step], rfl, List.forall_mem_singleton.2 trivial⟩ rfl

section Motion

variable [Target β]

/-- **The motion of a step is entered in the account**, if it is one of velocity and acceleration. -/
theorem Account.advance (h : s.Account steps m (s.controller.step + 1) (spentAt steps S s.controller.step))
    (hset : s.controller.playhead.Settled steps) (start : Scalar) {dt : Scalar} {T n : ℕ}
    (hmove : s.controller.mode = .move → dt.Ticks n ∧
      min (S - ticksBefore steps s.controller.step) (waitTicks steps s.controller.step) + n =
        min (T - ticksBefore steps s.controller.step) (waitTicks steps s.controller.step)) :
    (s.advance start dt).Account steps m (s.controller.step + 1) (spentAt steps T s.controller.step) := by
  by_cases hm : s.controller.mode = .move
  · obtain ⟨hdt, hn⟩ := hmove hm
    have hdrift := h.drift hdt fun hne => exists_wait_of_waitTicks (by omega)
    have hadvance : s.advance start dt = s.drift dt := by rw [Scene.advance, hm]
    have hspent : (fun k => spentAt steps S s.controller.step k + if s.controller.step = k then n else 0) =
        spentAt steps T s.controller.step := by
      funext k
      by_cases hk : s.controller.step = k
      · simp only [spentAt, hk, if_true]
        rw [← hk, ← hn, Nat.add_assoc]
      · simp only [spentAt, if_neg hk]
    rw [hadvance, ← hspent]
    exact hdrift
  · -- nothing else makes a stride
    have hnone : waitTicks steps s.controller.step = 0 := hset.waitTicks_of_ne hm
    have hspent : spentAt steps S s.controller.step = spentAt steps T s.controller.step := by
      rw [spentAt_of_not_wait hnone, spentAt_of_not_wait hnone]
    rw [hspent] at h
    unfold Scene.advance
    split
    · next hmove => exact absurd hmove hm
    · refine h.still ⟨[_], journal_follow s _, List.forall_mem_singleton.2 trivial⟩ ?_
      rw [controller_follow]
    · exact h
    · exact h

theorem Account.proceed (h : s.Account steps m (s.controller.step + 1) (spentAt steps S s.controller.step))
    (hstanding : s.controller.playhead.Standing steps S) (hgrid : ∀ step ∈ steps, step.OnGrid) {delta : Scalar}
    (hdelta : delta.Ticks k) (hS : S + k < 2 ^ 23) :
    (s.proceed delta).Account steps m (s.controller.step + 1) (spentAt steps (S + k) s.controller.step) := by
  have hadvance : (s.advance s.controller.elapsed
      (Scalar.min (Scalar.max (s.controller.target - s.controller.elapsed) 0) delta)).Account steps m
      (s.controller.step + 1) (spentAt steps (S + k) s.controller.step) := by
    refine h.advance hstanding.settled _
      (n := min (waitTicks steps s.controller.step - (S - ticksBefore steps s.controller.step)) k) fun hm => ?_
    have hv : s.controller.playhead.mode ≠ .vanished := by
      rw [show s.controller.playhead.mode = .move from hm]
      decide
    have hspent : ticksBefore steps s.controller.step ≤ S := hstanding.spent hv
    have htarget : s.controller.target.Ticks (waitTicks steps s.controller.step) :=
      hstanding.settled.target_of_move hgrid hm
    have hclock : s.controller.elapsed.Ticks (S - ticksBefore steps s.controller.step) :=
      (hstanding.clock hv).toTicks
    exact ⟨Scalar.ticks_slice htarget hclock hdelta (by omega), by omega⟩
  exact hadvance.still (logs_of_eq rfl) rfl

/-- The motion of a step that has just been reached. -/
theorem Account.overflow (h : s.Account steps m (s.controller.step + 1) (spentBefore steps s.controller.step))
    (hstanding : s.controller.playhead.Standing steps S) (hgrid : ∀ step ∈ steps, step.OnGrid) :
    s.overflow.Account steps m (s.controller.step + 1) (spentAt steps S s.controller.step) := by
  have hnothing : spentAt steps (ticksBefore steps s.controller.step) s.controller.step =
      spentBefore steps s.controller.step := by
    funext k
    rw [spentAt, Nat.sub_self, Nat.zero_min, ite_self, Nat.add_zero]
  rw [← hnothing] at h
  refine h.advance hstanding.settled 0 (n := min (S - ticksBefore steps s.controller.step)
    (waitTicks steps s.controller.step)) fun hm => ⟨?_, by omega⟩
  have hv : s.controller.playhead.mode ≠ .vanished := by
    rw [show s.controller.playhead.mode = .move from hm]
    decide
  have htarget : s.controller.target.Ticks (waitTicks steps s.controller.step) :=
    hstanding.settled.target_of_move hgrid hm
  exact (Scalar.ticks_min (hstanding.clock hv).toTicks htarget).max_zero.toTicks

end Motion

section Playback

variable [Target β] [Generator γ β]

theorem standing_reach {step : Step} (h : s.controller.playhead.Passing steps S)
    (hstep : steps[s.controller.step]? = some step) (hi : ¬step.IsInstant) :
    (s.reach (steps.drop (s.controller.step + 1)) step).controller.playhead.Standing steps S := by
  rw [playhead_reach]
  exact h.standing_enter hstep hi

theorem Account.reach_standing {step : Step}
    (h : s.Account steps m s.controller.step (spentBefore steps s.controller.step))
    (hstep : steps[s.controller.step]? = some step) {rest : List Step} :
    (s.reach rest step).Account steps m ((s.reach rest step).controller.step + 1)
      (spentBefore steps (s.reach rest step).controller.step) := by
  rw [step_reach]
  exact h.reach hstep rest

/-- **Playback from step to step** makes the strides that are due. -/
theorem Account.play (h : s.Account steps m s.controller.step (spentBefore steps s.controller.step))
    (hpassing : s.controller.playhead.Passing steps S) (hgrid : ∀ step ∈ steps, step.OnGrid) (hS : S < 2 ^ 23)
    (hle : s.controller.step ≤ steps.length) :
    (play (steps.drop s.controller.step) s).Account steps m ((play (steps.drop s.controller.step) s).controller.step + 1)
      (spentAt steps S (play (steps.drop s.controller.step) s).controller.step) := by
  refine play_induction
    (fun q => q.controller.playhead.Passing steps S ∧
      q.Account steps m q.controller.step (spentBefore steps q.controller.step))
    (fun q => q.Account steps m (q.controller.step + 1) (spentAt steps S q.controller.step))
    ?_ ?_ ?_ ?_ ?_ ⟨hpassing, h⟩ hle
  · rintro q ⟨hpass, hq⟩ hend
    rw [step_overflow]
    refine Account.overflow ?_ (hpass.standing_end hend) hgrid
    exact hq.at_end hend
  · rintro q step ⟨hpass, hq⟩ hstep hi
    have hreach := hq.reach hstep (steps.drop (q.controller.step + 1))
    have hnone : waitTicks steps q.controller.step = 0 := by
      rw [waitTicks, hstep]
      cases step <;> first | rfl | cases hi
    refine ⟨?_, ?_⟩
    · have hnext := hpass.enter_instant hstep hi (steps.drop (q.controller.step + 1))
      rwa [← playhead_reach q] at hnext
    · show Account steps m ((q.reach _ step).controller.step + 1)
        (spentBefore steps ((q.reach _ step).controller.step + 1)) _
      rw [step_reach, spentBefore_succ_of_not_wait hnone]
      exact hreach.still (logs_of_eq rfl) rfl
  · rintro q step ⟨hpass, hq⟩ hstep hi hv
    have hreach := hq.reach hstep (steps.drop (q.controller.step + 1))
    have hstanding := standing_reach hpass hstep hi
    have hnone : waitTicks steps q.controller.step = 0 := by
      rw [← step_reach q (steps.drop (q.controller.step + 1)) step]
      refine hstanding.settled.waitTicks_of_ne ?_
      rw [show (q.reach _ step).controller.playhead.mode = .vanished from beq_iff_eq.1 hv]
      decide
    rw [step_reach, spentAt_of_not_wait hnone]
    exact hreach
  · rintro q step ⟨hpass, hq⟩ hstep hi hv hdue
    rw [step_overflow]
    exact (hq.reach_standing hstep).overflow (standing_reach hpass hstep hi) hgrid
  · rintro q step ⟨hpass, hq⟩ hstep hi hv hdue
    have hstanding := standing_reach hpass hstep hi
    have hover := (hq.reach_standing hstep).overflow hstanding hgrid
    have hp := playhead_overflow (q.reach (steps.drop (q.controller.step + 1)) step)
    rw [← hp] at hstanding
    rw [← step_overflow] at hover
    refine hover.leave hstanding hgrid hS ?_ ?_ hdue
    · rw [show (q.reach _ step).overflow.controller.mode = _ from congrArg Playhead.mode hp]
      exact fun hm => hv (beq_iff_eq.2 hm)
    · rw [step_overflow, step_reach]
      exact (List.getElem?_eq_some_iff.1 hstep).1

theorem motion_flush_tick (s : Scene γ β) (delta : Scalar) :
    (s.flush.tick delta).controller.motion = s.controller.motion := by
  obtain ⟨g, activation, n, hc, -, -⟩ := controller_flush s
  have hflush : s.flush.controller.motion = s.controller.motion := by
    rw [hc]
    rfl
  unfold tick
  split
  · obtain ⟨g', hc', -⟩ := controller_callGenerator s.flush delta
    rw [hc']
    exact hflush
  · exact hflush

/-- **An update makes the strides that are due**, wherever playback stood. -/
theorem Account.update (h : s.Account steps m (s.controller.step + 1) (spentAt steps S s.controller.step))
    (hstanding : s.controller.playhead.Standing steps S) (hgrid : ∀ step ∈ steps, step.OnGrid)
    (hsteps : s.controller.steps? = some steps) {delta : Scalar} (hdelta : delta.Ticks k) (hS : S + k < 2 ^ 23) :
    (s.update delta).Account steps m ((s.update delta).controller.step + 1)
      (spentAt steps (S + k) (s.update delta).controller.step) := by
  have hp := playhead_flush_tick s delta
  have hflush : (s.flush.tick delta).Account steps m (s.controller.step + 1) (spentAt steps S s.controller.step) := by
    have hlogs : ∀ k, Logs (Event.Concerns k) s (s.flush.tick delta) :=
      fun k => (logs_flush s k).trans (logs_tick s.flush delta k)
    exact h.still (logs_still hlogs) (motion_flush_tick s delta)
  have hstep : (s.flush.tick delta).controller.step = s.controller.step := congrArg Playhead.step hp
  rw [← hp] at hstanding
  rw [← hstep] at hflush
  by_cases hv : s.controller.mode = .vanished
  · have hnone : waitTicks steps (s.flush.tick delta).controller.step = 0 := by
      refine hstanding.settled.waitTicks_of_ne ?_
      rw [show (s.flush.tick delta).controller.playhead.mode = _ from mode_flush_tick s delta, hv]
      decide
    rw [update_vanished hv, spentAt_of_not_wait hnone]
    rwa [spentAt_of_not_wait hnone] at hflush
  have hv' : (s.flush.tick delta).controller.playhead.mode ≠ .vanished := by
    rw [show (s.flush.tick delta).controller.playhead.mode = _ from mode_flush_tick s delta]
    exact hv
  have hmode := Playhead.mode_of_settled hstanding.settled hv'
  rw [show (s.flush.tick delta).controller.playhead.mode = _ from mode_flush_tick s delta] at hmode
  rw [update_driven hmode hsteps]
  generalize s.flush.tick delta = q at *
  have hproceed := hflush.proceed hstanding hgrid hdelta hS
  have hpq := playhead_proceed q delta
  have hstanding' : (q.proceed delta).controller.playhead.Standing steps (S + k) := by
    rw [hpq]
    exact hstanding.wait hdelta hS
  have hstep' : (q.proceed delta).controller.step = q.controller.step := congrArg Playhead.step hpq
  have hmode' : (q.proceed delta).controller.mode = q.controller.mode := congrArg Playhead.mode hpq
  rw [← hstep'] at hproceed
  unfold playOn
  dsimp only
  split
  · next hd =>
    obtain ⟨hpassing, hleave⟩ := hproceed.leave hstanding' hgrid hS (by rw [hmode']; exact hv') hd.2 hd.1
    exact hleave.play hpassing hgrid hS hd.2
  · exact hproceed

/-- **Updates make the strides that are due.** -/
theorem Account.updates (h : s.Account steps m (s.controller.step + 1) (spentAt steps S s.controller.step))
    (hstanding : s.controller.playhead.Standing steps S) (hgrid : ∀ step ∈ steps, step.OnGrid)
    (hsteps : s.controller.steps? = some steps) {deltas : List Scalar} (hdeltas : ∀ delta ∈ deltas, delta.OnGrid)
    (hS : S + (deltas.map Scalar.ticks).sum < 2 ^ 23) :
    (deltas.foldl Scene.update s).Account steps m ((deltas.foldl Scene.update s).controller.step + 1)
      (spentAt steps (S + (deltas.map Scalar.ticks).sum) (deltas.foldl Scene.update s).controller.step) := by
  induction deltas generalizing S s with
  | nil => exact h
  | cons delta deltas ih =>
    obtain ⟨hdelta, hrest⟩ := List.forall_mem_cons.1 hdeltas
    rw [List.map_cons, List.sum_cons, ← Nat.add_assoc] at hS ⊢
    have hupdate := h.update hstanding hgrid hsteps hdelta.ticks (by omega)
    have hplaced := hstanding.update hgrid hsteps hdelta.ticks (by omega)
    have hp := playhead_update s delta
    rw [← hp] at hplaced
    have hsteps' : (s.update delta).controller.steps? = some steps :=
      ((congrArg Playhead.steps? hp).trans (Playhead.steps?_update _ _)).trans hsteps
    rw [List.foldl_cons]
    exact ih hupdate hplaced.1 hsteps' hrest hS

end Playback

end Scene

namespace Controller

theorem motion_defer (c : Controller γ) (step : Step) : (c.defer step).motion = c.motion := by
  unfold defer
  split
  · rfl
  · split <;> rfl
  · rfl

/-- **A binding sets the motion** as the steps say that it reaches, as no time passes. -/
theorem motion_scan {steps : Sequence} {c : Controller γ} (h : c.motion = motionBefore steps c.step)
    (hle : c.step ≤ steps.length) :
    (scan (steps.drop c.step) c).motion = motionBefore steps ((scan (steps.drop c.step) c).step + 1) := by
  -- on the steps ahead, of which the controller tells by its index how many there are
  generalize hrest : steps.drop c.step = rest
  induction rest generalizing c with
  | nil =>
    have hend : c.step = steps.length := by
      have := List.drop_eq_nil_iff.1 hrest
      omega
    rw [scan, hend, motionBefore_end, ← hend]
    exact h
  | cons step rest ih =>
    obtain ⟨hstep, hdrop⟩ := Playhead.drop_eq_cons hrest
    have hlt : c.step < steps.length := (List.getElem?_eq_some_iff.1 hstep).1
    have hreach : ((c.enter rest step).defer step).step = c.step := by
      have hp := playhead_defer (c.enter rest step) step
      rw [playhead_enter] at hp
      exact (congrArg Playhead.step hp).trans Playhead.step_enter
    have hmotion : ((c.enter rest step).defer step).motion = motionBefore steps (c.step + 1) := by
      rw [motion_defer, Scene.motion_enter, h, ← motionBefore_succ hstep]
    unfold scan
    dsimp only
    split
    · have hnext : ((c.enter rest step).defer step).next.step = c.step + 1 := congrArg (· + 1) hreach
      refine ih ?_ (by omega) ?_
      · rw [hnext]
        exact hmotion
      · rw [hnext, ← hdrop]
    · rw [hreach]
      exact hmotion

end Controller

/-! ## A binding -/

section Binding

variable {steps : Sequence}

/-- Without acceleration no step sets one. -/
theorem Coasting.acceleration (h : Coasting steps) (i : ℕ) : (motionBefore steps i).acceleration.Same 0 := by
  induction i with
  | zero => exact .refl _
  | succ i ih =>
    cases hstep : steps[i]? with
    | none =>
      have hlen : steps.length ≤ i := List.getElem?_eq_none_iff.1 hstep
      have htake : motionBefore steps (i + 1) = motionBefore steps i := by
        unfold motionBefore
        rw [List.take_of_length_le (by omega), List.take_of_length_le hlen]
      rw [htake]
      exact ih
    | some step =>
      rw [motionBefore_succ hstep]
      cases step with
      | accelerate => exact h _ _ (List.mem_of_getElem? hstep)
      | _ => exact ih

/-- A wait that is not there to stop at takes no time. -/
theorem spentAt_start {i : ℕ} (h : ∀ j < i, ¬Stops steps 0 j) (k : ℕ) : spentAt steps 0 i k = 0 := by
  have hbefore : spentBefore steps i k = 0 := by
    unfold spentBefore
    split
    · next hk =>
      by_contra hne
      obtain ⟨duration, hs⟩ := exists_wait_of_waitTicks hne
      have hticks := waitTicks_of_wait hs
      have hstops := h k hk
      rw [stops_iff_of_duration hs rfl] at hstops
      omega
    · rfl
  rw [spentAt, hbefore, Nat.zero_sub, Nat.zero_min, ite_self]

variable (c : Controller γ) {script : ScriptSet} {i : ℕ}

/-- **A binding opens the account.** -/
theorem Controller.account_bind (h : script.sequence? i = some steps) (body : β) :
    Scene.Account steps (c.bind script i).motion ((c.bind script i).step + 1) (spentAt steps 0 (c.bind script i).step)
      { controller := c.bind script i, body } := by
  have hstanding := Playhead.standing_start script i c.curve steps
  rw [← playhead_bind c h] at hstanding
  have hmotion : (c.bind script i).motion = motionBefore steps ((c.bind script i).step + 1) := by
    have hi : i < script.sequences.length := (List.getElem?_eq_some_iff.1 h).1
    have hs : steps? { c with script := some script, sequence := i } = some steps := h
    unfold bind restart
    rw [if_pos hi, hs]
    exact motion_scan (c := reset { c with script := some script, sequence := i }) rfl (Nat.zero_le _)
  refine ⟨rfl, List.forall_mem_nil _, fun k => ?_, fun hcoast => ?_, fun _ => List.forall_mem_nil _⟩
  · rw [spentAt_start (i := (c.bind script i).step) hstanding.past]
    simp [Scene.strides, Scene.events, Motion.strides, timeOf]
  · have hvelocity : (c.bind script i).velocity = _ := congrArg Motion.velocity hmotion
    have hacceleration : (c.bind script i).acceleration = _ := congrArg Motion.acceleration hmotion
    rw [hvelocity, hacceleration]
    exact ⟨.refl _, hcoast.acceleration _⟩

end Binding

/-! ## Velocities -/

theorem timeOf_cons (p : Stride → Prop) [DecidablePred p] (stride : Stride) (l : List Stride) :
    timeOf p (stride :: l) = (if p stride then stride.time.toRat else 0) + timeOf p l := by
  by_cases h : p stride
  · simp [timeOf, h]
  · simp [timeOf, h]

/-- If the steps tell the velocities, then the time at a velocity is that of the steps which have it. -/
theorem timeOf_velocity {l : List Stride} {velocity : ℕ → Vec2} {n : ℕ}
    (h : ∀ stride ∈ l, stride.step < n ∧ stride.velocity.Same (velocity stride.step)) (v : Vec2) :
    timeOf (·.velocity.Same v) l = ∑ k ∈ Finset.range n, if (velocity k).Same v then timeOf (·.step = k) l else 0 := by
  induction l with
  | nil => simp [timeOf]
  | cons stride l ih =>
    obtain ⟨⟨hlt, hsame⟩, hl⟩ := List.forall_mem_cons.1 h
    have hv : stride.velocity.Same v ↔ (velocity stride.step).Same v := ⟨hsame.symm.trans, hsame.trans⟩
    have hone : (if stride.velocity.Same v then stride.time.toRat else 0) =
        ∑ k ∈ Finset.range n, if (velocity k).Same v then (if stride.step = k then stride.time.toRat else 0) else 0 := by
      rw [Finset.sum_eq_single_of_mem stride.step (Finset.mem_range.2 hlt)]
      · simp only [hv, if_true]
      · intro k _ hk
        rw [if_neg (Ne.symm hk), ite_self]
    rw [timeOf_cons, ih hl, hone, ← Finset.sum_add_distrib]
    refine Finset.sum_congr rfl fun k _ => ?_
    rw [timeOf_cons]
    split
    · rfl
    · exact add_zero _

/-! ## Runs -/

namespace Controller

variable {steps : Sequence} {script : ScriptSet} {i : ℕ} {deltas : List Scalar}

/-- The strides of a run on account of a step that waits. -/
theorem timeOf_wait {m : Motion} {S k : ℕ} {s : Scene γ β} {duration : Scalar}
    (h : s.Account steps m (s.controller.step + 1) (spentAt steps S s.controller.step))
    (hstanding : s.controller.playhead.Standing steps S)
    (hplaced : S = 0 ∨ s.controller.playhead.Placed steps S) (hgrid : ∀ step ∈ steps, step.OnGrid)
    (hk : steps[k]? = some (.wait duration)) :
    (k < s.controller.step → timeOf (·.step = k) (s.strides m) = duration.toRat) ∧
      (k = s.controller.step → timeOf (·.step = k) (s.strides m) = s.controller.elapsed.toRat) ∧
      (s.controller.step < k → timeOf (·.step = k) (s.strides m) = 0) := by
  have hduration : duration.toRat = (waitTicks steps k : ℚ) / 128 := by
    rw [waitTicks_of_wait hk]
    exact (hgrid _ (List.mem_of_getElem? hk) duration rfl).ticks.value
  refine ⟨fun hlt => ?_, fun heq => ?_, fun hlt => ?_⟩
  · rw [h.times, spentAt, spentBefore, if_pos hlt, if_neg (by omega), hduration, Nat.add_zero]
  · subst heq
    have hv : s.controller.playhead.mode ≠ .vanished := by
      intro hv
      have hvanish := hstanding.settled.vanish hv
      rw [show s.controller.playhead.step = s.controller.step from rfl, hk] at hvanish
      cases hvanish
    have hclock := (hstanding.clock hv).value
    -- the current step has not been over yet
    have hle : S - ticksBefore steps s.controller.step ≤ waitTicks steps s.controller.step := by
      rcases hplaced with rfl | hplaced
      · omega
      · have hstops : Stops steps S s.controller.step := hplaced.2 (List.getElem?_eq_some_iff.1 hk).1
        have hticks := waitTicks_of_wait hk
        rw [stops_iff_of_duration hk rfl] at hstops
        omega
    rw [h.times, spentAt, spentBefore, if_neg (by omega), if_pos rfl, Nat.zero_add, Nat.min_eq_left hle]
    exact hclock.symm
  · rw [h.times, spentAt, spentBefore, if_neg (by omega), if_neg (by omega)]
    simp

/-- Time that passes is not nothing. -/
theorem sum_ticks_eq_zero (hdeltas : ∀ delta ∈ deltas, delta.OnGrid ∧ 0 < delta) :
    (deltas.map Scalar.ticks).sum = 0 ↔ deltas = [] := by
  refine ⟨fun h => ?_, fun h => by rw [h]; rfl⟩
  cases deltas with
  | nil => rfl
  | cons delta deltas =>
    obtain ⟨hgrid, hpos⟩ := (List.forall_mem_cons.1 hdeltas).1
    rw [List.map_cons, List.sum_cons] at h
    have := (Scalar.clock_zero.toTicks.lt_iff hgrid.ticks).1 hpos
    omega

variable [Target β] [Generator γ β]

/-- What a run has come to: the strides that are due, and playback where it has to be. -/
theorem account_run (c : Controller γ) (hsteps : script.sequence? i = some steps)
    (hgrid : ∀ step ∈ steps, step.OnGrid) (hdeltas : ∀ delta ∈ deltas, delta.OnGrid) {S : ℕ}
    (hS : (deltas.map Scalar.ticks).sum = S) (hlt : S < 2 ^ 23) (body : β) {s : Scene γ β}
    (hs : s = deltas.foldl Scene.update { controller := c.bind script i, body }) :
    s.Account steps (c.bind script i).motion (s.controller.step + 1) (spentAt steps S s.controller.step) ∧
      s.controller.playhead.Standing steps S ∧ (deltas ≠ [] → s.controller.playhead.Placed steps S) := by
  have hstart := Playhead.standing_start script i c.curve steps
  have hplaying := Playhead.steps?_scan_start c.curve hsteps
  have hrun := Scene.playhead_updates deltas { controller := c.bind script i, body }
  rw [← hs, playhead_bind c hsteps] at hrun
  have hplaced : deltas ≠ [] → s.controller.playhead.Placed steps S := by
    intro hne
    have h := hstart.updates hgrid hplaying hne hdeltas (by omega)
    rwa [← hrun, hS, Nat.zero_add] at h
  rw [← playhead_bind c hsteps] at hstart hplaying
  have haccount := Scene.Account.updates (s := { controller := c.bind script i, body }) (account_bind c hsteps body)
    hstart hgrid hplaying hdeltas (by omega)
  rw [← hs, hS, Nat.zero_add] at haccount
  refine ⟨haccount, ?_, hplaced⟩
  rcases eq_or_ne deltas [] with rfl | hne
  · obtain rfl : S = 0 := hS.symm
    rw [hs]
    exact hstart
  · exact (hplaced hne).1

/-- **Playback loses no time and applies none twice.** Let all times be whole numbers of ticks, and let time pass in any
slices since a binding. Then every stride has been made on account of a step that waits. Those of a step that is over
have taken its duration, and those of the current step have taken the time that the clock shows. If no step accelerates,
then every stride has had the velocity that was set by the last step before it which sets one, and the time that the
strides at a velocity have taken does not depend on the slices. -/
theorem strides_cover_waits (c : Controller γ) (hsteps : script.sequence? i = some steps)
    (hgrid : ∀ step ∈ steps, step.OnGrid) (hdeltas : ∀ delta ∈ deltas, delta.OnGrid ∧ 0 < delta)
    (hsum : (deltas.map Scalar.toRat).sum < 2 ^ 16) (body : β) :
    let run (deltas : List Scalar) : Scene γ β := deltas.foldl Scene.update { controller := c.bind script i, body }
    let strides (deltas : List Scalar) : List Stride := (run deltas).strides (c.bind script i).motion
    let s := run deltas
    s.controller.motion = s.events.foldl Motion.hear (c.bind script i).motion ∧
    (∀ stride ∈ strides deltas, ∃ duration, steps[stride.step]? = some (.wait duration)) ∧
    (∀ k duration, steps[k]? = some (.wait duration) →
      (k < s.controller.step → timeOf (·.step = k) (strides deltas) = duration.toRat) ∧
      (k = s.controller.step → timeOf (·.step = k) (strides deltas) = s.controller.elapsed.toRat) ∧
      (s.controller.step < k → timeOf (·.step = k) (strides deltas) = 0)) ∧
    (Coasting steps →
      (∀ stride ∈ strides deltas, stride.velocity.Same (velocityAt steps stride.step)) ∧
      ∀ deltas' : List Scalar, (∀ delta ∈ deltas', delta.OnGrid ∧ 0 < delta) →
        (deltas'.map Scalar.toRat).sum = (deltas.map Scalar.toRat).sum →
        ∀ v, timeOf (·.velocity.Same v) (strides deltas') = timeOf (·.velocity.Same v) (strides deltas)) := by
  intro run strides s
  have hgrids : ∀ delta ∈ deltas, delta.OnGrid := fun delta hd => (hdeltas delta hd).1
  obtain ⟨S, hS⟩ : ∃ S, (deltas.map Scalar.ticks).sum = S := ⟨_, rfl⟩
  have hseconds := Scalar.sum_ticks fun delta hd => (hgrids delta hd).ticks.value
  rw [hS] at hseconds
  have hlt : S < 2 ^ 23 := by
    rw [hseconds, div_lt_iff₀ (by norm_num)] at hsum
    norm_num at hsum
    exact_mod_cast hsum
  obtain ⟨haccount, hstanding, hplaced⟩ := account_run c hsteps hgrid hgrids hS hlt body (s := s) rfl
  have hzero : S = 0 ↔ deltas = [] := by
    rw [← hS]
    exact sum_ticks_eq_zero hdeltas
  have hplaced' : S = 0 ∨ s.controller.playhead.Placed steps S := by
    rw [hzero]
    exact or_iff_not_imp_left.2 hplaced
  refine ⟨haccount.told, haccount.waits, fun k duration hk => timeOf_wait haccount hstanding hplaced' hgrid hk,
    fun hcoast => ⟨haccount.velocities hcoast, fun deltas' hdeltas' hsame v => ?_⟩⟩
  have hgrids' : ∀ delta ∈ deltas', delta.OnGrid := fun delta hd => (hdeltas' delta hd).1
  have hS' : (deltas'.map Scalar.ticks).sum = S := by
    rw [hseconds, Scalar.sum_ticks fun delta hd => (hgrids' delta hd).ticks.value, div_left_inj' (by norm_num)] at hsame
    exact_mod_cast hsame
  obtain ⟨haccount', -, hplaced''⟩ := account_run c hsteps hgrid hgrids' hS' hlt body (s := run deltas') rfl
  -- both runs have come to the same step
  have hstep : (run deltas').controller.step = s.controller.step := by
    have hzero' : deltas' = [] ↔ deltas = [] := by rw [← sum_ticks_eq_zero hdeltas', hS', hzero]
    rcases eq_or_ne deltas [] with hnil | hne
    · have hnil' := hzero'.2 hnil
      subst hnil hnil'
      rfl
    · exact ((hplaced'' (hzero'.not.2 hne)).agree (hplaced hne)).1
  have hbound : ∀ {l : List Stride}, (∀ stride ∈ l, ∃ duration, steps[stride.step]? = some (.wait duration)) →
      (∀ stride ∈ l, stride.velocity.Same (velocityAt steps stride.step)) →
      ∀ stride ∈ l, stride.step < steps.length ∧ stride.velocity.Same (velocityAt steps stride.step) := by
    intro l hwaits hvelocities stride hs
    obtain ⟨duration, hd⟩ := hwaits stride hs
    exact ⟨(List.getElem?_eq_some_iff.1 hd).1, hvelocities stride hs⟩
  rw [timeOf_velocity (hbound haccount'.waits (haccount'.velocities hcoast)),
    timeOf_velocity (hbound haccount.waits (haccount.velocities hcoast))]
  refine Finset.sum_congr rfl fun k _ => ?_
  rw [haccount'.times, haccount.times, hstep]

theorem strides_cover_waits_of_two :
    let steps : Sequence := [.move 0 10, .wait 0.5, .path 0.25 1 .linear, .point ⟨1, 2⟩, .move 90 10, .wait 1]
    let script : ScriptSet := ⟨"steps", [steps]⟩
    let c : Controller Stock := manual
    let run (deltas : List Scalar) : Scene Stock Body :=
      deltas.foldl Scene.update { controller := c.bind script 0, body := {} }
    let strides (deltas : List Scalar) : List Stride := (run deltas).strides (c.bind script 0).motion
    timeOf (·.step = 1) (strides [0.25, 1]) = (0.5 : Scalar).toRat ∧
      timeOf (·.step = 5) (strides [0.25, 1]) = (run [0.25, 1]).controller.elapsed.toRat ∧
      ∀ v, timeOf (·.velocity.Same v) (strides [0.5, 0.5, 0.25]) = timeOf (·.velocity.Same v) (strides [0.25, 1]) := by
  intro steps script c run strides
  have hquarter : (0.25 : Scalar).toRat = 8388608 * 2 ^ (-25 : ℤ) := rfl
  have hhalf : (0.5 : Scalar).toRat = 8388608 * 2 ^ (-24 : ℤ) := rfl
  have hone : (1 : Scalar).toRat = 8388608 * 2 ^ (-23 : ℤ) := rfl
  have gquarter : (0.25 : Scalar).OnGrid := ⟨rfl, 32, by rw [hquarter]; norm_num⟩
  have ghalf : (0.5 : Scalar).OnGrid := ⟨rfl, 64, by rw [hhalf]; norm_num⟩
  have gone : (1 : Scalar).OnGrid := ⟨rfl, 128, by rw [hone]; norm_num⟩
  have pquarter : (0 : Scalar) < 0.25 := by decide +kernel
  have phalf : (0 : Scalar) < 0.5 := by decide +kernel
  have pone : (0 : Scalar) < 1 := by decide +kernel
  have hgrid : ∀ step ∈ steps, step.OnGrid := by
    simp only [steps, List.forall_mem_cons, Step.OnGrid, Step.duration?]
    simp [gquarter, ghalf, gone]
  have hdeltas : ∀ delta ∈ [(0.25 : Scalar), 1], delta.OnGrid ∧ 0 < delta := by
    simp [gquarter, gone, pquarter, pone]
  have hdeltas' : ∀ delta ∈ [(0.5 : Scalar), 0.5, 0.25], delta.OnGrid ∧ 0 < delta := by
    simp [gquarter, ghalf, pquarter, phalf]
  have hsum : ([(0.25 : Scalar), 1].map Scalar.toRat).sum < 2 ^ 16 := by
    simp only [List.map_cons, List.map_nil, List.sum_cons, List.sum_nil, hquarter, hone]
    norm_num
  have hsame : ([(0.5 : Scalar), 0.5, 0.25].map Scalar.toRat).sum = ([(0.25 : Scalar), 1].map Scalar.toRat).sum := by
    simp only [List.map_cons, List.map_nil, List.sum_cons, List.sum_nil, hquarter, hhalf, hone]
    norm_num
  have hcoast : Coasting steps := by
    intro direction amount h
    simp [steps] at h
  have hstep : (run [0.25, 1]).controller.step = 5 := by decide +kernel
  have hsequence : script.sequence? 0 = some steps := rfl
  obtain ⟨-, -, htimes, hvelocities⟩ := strides_cover_waits c hsequence hgrid hdeltas hsum ({} : Body)
  refine ⟨(htimes 1 0.5 rfl).1 ?_, (htimes 5 1 rfl).2.1 hstep.symm, (hvelocities hcoast).2 _ hdeltas' hsame⟩
  show 1 < (run [0.25, 1]).controller.step
  rw [hstep]
  decide

end Controller

end MotionScript
