import MotionScript.Proofs.Playback.Settled
import MotionScript.Proofs.Scalar.Grid
import MotionScript.Generator.Stock

/-!
# Time that is passed in slices

If all times are whole numbers of ticks, 128 to the second, then playback gets just as far in many small
updates as in a single one: nothing is rounded, and the tolerance at the end of a step does not tell.

* `StopsAt`: where playback stands after a time, by the durations alone.
* `Playhead.Standing`, `Playhead.Passing`: a playhead at rest, or on its way, at a time since the binding.
* `Playhead.Standing.update`: an update takes the one to the other.
* `Controller.slices_agree`: many updates do what one does, and they stop at the first place to stop.
-/

namespace MotionScript

variable {γ β : Type}

namespace Step

/-- The duration of a step that takes time. -/
def duration? : Step → Option Scalar
  | .wait duration => some duration
  | .path duration _ _ => some duration
  | _ => none

/-- The seconds that a step takes. -/
def time (step : Step) : ℚ := step.duration?.elim 0 Scalar.toRat

/-- The ticks that a step takes. -/
def ticks (step : Step) : ℕ := step.duration?.elim 0 Scalar.ticks

/-- The duration of the step, if it has one, is a whole number of ticks. -/
def OnGrid (step : Step) : Prop := ∀ duration, step.duration? = some duration → duration.OnGrid

theorem OnGrid.time_eq {step : Step} (h : step.OnGrid) : step.time = step.ticks / 128 := by
  unfold time ticks
  cases hd : step.duration? with
  | none => simp
  | some d => exact (h d hd).ticks.value

theorem ticks_of_instant {step : Step} (h : step.IsInstant) : step.ticks = 0 := by
  cases step <;> first | rfl | cases h

theorem duration?_of_instant {step : Step} (h : step.IsInstant) : step.duration? = none := by
  cases step <;> first | rfl | cases h

end Step

/-! ## Places to stop -/

/-- The seconds that all steps of a list take. -/
def totalTime (steps : List Step) : ℚ := (steps.map Step.time).sum

/-- **A place where playback stands after a time**: a step that ends the script, or one that takes time
and lasts longer. -/
def StopsAt (steps : Sequence) (time : ℚ) (i : ℕ) : Prop :=
  ∃ step, steps[i]? = some step ∧
    (step = .vanish ∨ step.duration?.isSome ∧ time < totalTime (steps.take (i + 1)))

/-- The ticks that the steps before an index take. -/
def ticksBefore (steps : Sequence) (i : ℕ) : ℕ := ((steps.take i).map Step.ticks).sum

/-- The mode of a playhead that has come to an index. -/
def modeBefore (steps : Sequence) (i : ℕ) : Mode := (steps.take i).foldl (fun mode step => step.modeFrom mode) .move

/-- A place where playback stands after ticks. -/
def Stops (steps : Sequence) (S i : ℕ) : Prop :=
  ∃ step, steps[i]? = some step ∧ (step = .vanish ∨ step.duration?.isSome ∧ S < ticksBefore steps (i + 1))

section Places

variable {steps : Sequence} {i S S' : ℕ} {step : Step}

theorem ticksBefore_succ (h : steps[i]? = some step) :
    ticksBefore steps (i + 1) = ticksBefore steps i + step.ticks := by
  unfold ticksBefore
  rw [List.take_add_one, h]
  simp

theorem modeBefore_succ (h : steps[i]? = some step) :
    modeBefore steps (i + 1) = step.modeFrom (modeBefore steps i) := by
  unfold modeBefore
  rw [List.take_add_one, h]
  simp

theorem modeBefore_end : modeBefore steps (steps.length + 1) = modeBefore steps steps.length := by
  unfold modeBefore
  rw [List.take_of_length_le (Nat.le_succ _), List.take_length]

theorem totalTime_take (h : ∀ step ∈ steps, step.OnGrid) (i : ℕ) :
    totalTime (steps.take i) = ticksBefore steps i / 128 :=
  Scalar.sum_ticks fun step hs => (h step (List.mem_of_mem_take hs)).time_eq

theorem stopsAt_iff (h : ∀ step ∈ steps, step.OnGrid) : StopsAt steps (S / 128) i ↔ Stops steps S i := by
  unfold StopsAt Stops
  rw [totalTime_take h, div_lt_div_iff_of_pos_right (by norm_num), Nat.cast_lt]

theorem not_stops_mono (h : ¬Stops steps S i) (hS : S ≤ S') : ¬Stops steps S' i := by
  rintro ⟨step, hstep, hv | ⟨hd, hlt⟩⟩
  · exact h ⟨step, hstep, .inl hv⟩
  · exact h ⟨step, hstep, .inr ⟨hd, by omega⟩⟩

theorem not_stops_instant (h : steps[i]? = some step) (hi : step.IsInstant) : ¬Stops steps S i := by
  rintro ⟨step', hstep, hv | ⟨hd, -⟩⟩
  · rw [h] at hstep
    cases hstep
    subst hv
    cases hi
  · rw [h] at hstep
    cases hstep
    rw [Step.duration?_of_instant hi] at hd
    cases hd

theorem stops_iff_of_duration (h : steps[i]? = some step) (hd : step.duration?.isSome) :
    Stops steps S i ↔ S < ticksBefore steps i + step.ticks := by
  rw [← ticksBefore_succ h]
  constructor
  · rintro ⟨step', hstep, hv | ⟨-, hlt⟩⟩
    · rw [h] at hstep
      cases hstep
      subst hv
      cases hd
    · exact hlt
  · exact fun hlt => ⟨step, h, .inr ⟨hd, hlt⟩⟩

end Places

/-! ## Playheads at a time -/

namespace Playhead

/-- A playhead at rest, some ticks after the binding. -/
structure Standing (steps : Sequence) (S : ℕ) (p : Playhead) : Prop where
  settled : p.Settled steps
  mode : p.mode = modeBefore steps (p.step + 1)
  past : ∀ j < p.step, ¬Stops steps S j
  spent : p.mode ≠ .vanished → ticksBefore steps p.step ≤ S
  clock : p.mode ≠ .vanished → p.elapsed.Clock (S - ticksBefore steps p.step)

/-- A playhead that is about to reach a step, some ticks after the binding. -/
structure Passing (steps : Sequence) (S : ℕ) (p : Playhead) : Prop where
  ready : p.Ready
  mode : p.mode = modeBefore steps p.step
  past : ∀ j < p.step, ¬Stops steps S j
  spent : ticksBefore steps p.step ≤ S
  clock : p.elapsed.Clock (S - ticksBefore steps p.step)

/-- A playhead that stands where it has to at a time. -/
def Placed (steps : Sequence) (S : ℕ) (p : Playhead) : Prop :=
  p.Standing steps S ∧ (p.step < steps.length → Stops steps S p.step)

variable {steps : Sequence} {S k : ℕ} {p q : Playhead} {step : Step}

/-- The step tells the duration that is set. -/
theorem Settled.target_eq (h : p.Settled steps) :
    p.target = (steps[p.step]?.bind Step.duration?).elim 0 (Scalar.max · 0) := by
  unfold Settled at h
  split at h
  · next hs =>
    rw [hs]
    exact h.2.2
  · next hs =>
    rw [hs]
    exact h.2
  · next hs =>
    rw [hs]
    exact h.2.1
  · next hs =>
    rw [hs]
    exact h.2
  · exact h.elim

theorem Settled.vanish (h : p.Settled steps) (hv : p.mode = .vanished) : steps[p.step]? = some .vanish := by
  unfold Settled at h
  split at h
  · rcases h.2.1 with hm | hm <;> rw [hv] at hm <;> cases hm
  · rw [hv] at h
    cases h.1
  · rw [hv] at h
    cases h.1
  · assumption
  · exact h.elim

theorem Settled.isSome_duration (h : p.Settled steps) (hv : p.mode ≠ .vanished) (hlt : p.step < steps.length) :
    steps[p.step].duration?.isSome := by
  unfold Settled at h
  rw [List.getElem?_eq_getElem hlt] at h
  split at h
  · next hs => cases hs
  · next hs => rw [Option.some.inj hs]; rfl
  · next hs => rw [Option.some.inj hs]; rfl
  · exact absurd h.1 hv
  · exact h.elim

theorem Settled.target_clock (h : p.Settled steps) (hgrid : ∀ step ∈ steps, step.OnGrid)
    (hv : p.mode ≠ .vanished) (hlt : p.step < steps.length) :
    steps[p.step].duration?.isSome ∧ p.target.Clock steps[p.step].ticks := by
  have hsome := h.isSome_duration hv hlt
  refine ⟨hsome, ?_⟩
  obtain ⟨d, hd⟩ := Option.isSome_iff_exists.1 hsome
  have htarget := h.target_eq
  rw [List.getElem?_eq_getElem hlt, Option.bind_some, hd, Option.elim_some] at htarget
  rw [htarget, Step.ticks, hd, Option.elim_some]
  exact (hgrid _ (List.getElem_mem hlt) d hd).ticks.max_zero

theorem Passing.standing_end (h : p.Passing steps S) (hend : p.step = steps.length) : p.Standing steps S where
  settled := h.ready.settled_end hend
  mode := by rw [h.mode, hend, modeBefore_end]
  past := h.past
  spent _ := h.spent
  clock _ := h.clock

theorem Passing.enter_instant (h : p.Passing steps S) (hstep : steps[p.step]? = some step) (hi : step.IsInstant)
    (rest : List Step) : (p.enter rest step).next.Passing steps S := by
  have hnext : (p.enter rest step).next.step = p.step + 1 := by simp [next]
  have helapsed : (p.enter rest step).next.elapsed = p.elapsed := elapsed_enter
  have hticks : ticksBefore steps (p.step + 1) = ticksBefore steps p.step := by
    rw [ticksBefore_succ hstep, Step.ticks_of_instant hi, Nat.add_zero]
  refine ⟨h.ready.enter_instant hi, ?_, ?_, ?_, ?_⟩
  · rw [hnext, modeBefore_succ hstep, ← h.mode]
    exact mode_enter rest p step
  · intro j hj
    rw [hnext] at hj
    rcases Nat.lt_succ_iff_lt_or_eq.1 hj with hlt | rfl
    · exact h.past j hlt
    · exact not_stops_instant hstep hi
  · rw [hnext, hticks]
    exact h.spent
  · rw [hnext, hticks, helapsed]
    exact h.clock

theorem Passing.standing_enter (h : p.Passing steps S) (hstep : steps[p.step]? = some step)
    (hi : ¬step.IsInstant) : (p.enter (steps.drop (p.step + 1)) step).Standing steps S where
  settled := h.ready.settled_enter hstep hi
  mode := by rw [step_enter, modeBefore_succ hstep, ← h.mode, mode_enter]
  past := by
    rw [step_enter]
    exact h.past
  spent _ := by
    rw [step_enter]
    exact h.spent
  clock _ := by
    rw [step_enter, elapsed_enter]
    exact h.clock

/-- The tolerance is less than half a tick. -/
theorem timeTolerance_bounds :
    Controller.timeTolerance.isFinite ∧ 0 ≤ Controller.timeTolerance.toRat ∧
      Controller.timeTolerance.toRat ≤ 1 / 256 := by
  have hval : Controller.timeTolerance.toRat = 13743895 * 2 ^ (-37 : ℤ) := rfl
  refine ⟨rfl, ?_, ?_⟩ <;> rw [hval] <;> norm_num

/-- **The clock tells whether a step is over.** -/
theorem Standing.isDue_iff (h : p.Standing steps S) (hgrid : ∀ step ∈ steps, step.OnGrid) (hS : S < 2 ^ 23)
    (hv : p.mode ≠ .vanished) (hlt : p.step < steps.length) : p.isDue ↔ ¬Stops steps S p.step := by
  obtain ⟨hd, htarget⟩ := h.settled.target_clock hgrid hv hlt
  have hspent := h.spent hv
  obtain ⟨hf, h0, h1⟩ := timeTolerance_bounds
  -- the sum with the tolerance is rounded, which may not take it to the next tick
  unfold isDue
  rw [decide_eq_true_iff, htarget.toTicks.le_add_iff (h.clock hv).toTicks (by omega) hf h0 h1,
    stops_iff_of_duration (List.getElem?_eq_getElem hlt) hd]
  omega

theorem Standing.leave (h : p.Standing steps S) (hgrid : ∀ step ∈ steps, step.OnGrid) (hS : S < 2 ^ 23)
    (hv : p.mode ≠ .vanished) (hlt : p.step < steps.length) (hdue : p.isDue) : p.leave.Passing steps S := by
  have hpast := (h.isDue_iff hgrid hS hv hlt).1 hdue
  obtain ⟨hd, htarget⟩ := h.settled.target_clock hgrid hv hlt
  have hsucc := ticksBefore_succ (List.getElem?_eq_getElem hlt)
  -- no more is taken off the clock than it shows
  have hspent : ticksBefore steps p.step + steps[p.step].ticks ≤ S := by
    rwa [stops_iff_of_duration (List.getElem?_eq_getElem hlt) hd, not_lt] at hpast
  refine ⟨Ready.leave (mode_of_settled h.settled hv), h.mode, ?_, ?_, ?_⟩
  · intro j hj
    rcases Nat.lt_succ_iff_lt_or_eq.1 hj with hj | rfl
    · exact h.past j hj
    · exact hpast
  · show ticksBefore steps (p.step + 1) ≤ S
    rwa [hsucc]
  · show (p.elapsed - p.target).Clock (S - ticksBefore steps (p.step + 1))
    rw [hsucc, ← Nat.sub_sub]
    exact (h.clock hv).sub htarget (by omega) (by omega)

/-! ## Playback on the grid -/

theorem Passing.play (h : p.Passing steps S) (hgrid : ∀ step ∈ steps, step.OnGrid) (hS : S < 2 ^ 23)
    (hle : p.step ≤ steps.length) : (play (steps.drop p.step) p).Placed steps S := by
  refine play_induction (Passing steps S) (Placed steps S) ?_ ?_ ?_ ?_ h hle
  · intro q hq hend
    exact ⟨hq.standing_end hend, fun hlt => absurd hend hlt.ne⟩
  · intro q step hq hstep hi
    exact hq.enter_instant hstep hi _
  · intro q step hq hstep hi hdue
    have hstanding := hq.standing_enter hstep hi
    refine ⟨hstanding, fun hlt => ?_⟩
    by_cases hv : (q.enter (steps.drop (q.step + 1)) step).mode = .vanished
    · exact ⟨.vanish, hstanding.settled.vanish hv, .inl rfl⟩
    · by_contra hs
      exact hdue hv ((hstanding.isDue_iff hgrid hS hv hlt).2 hs)
  · intro q step hq hstep hi hv hdue
    have hlt : (q.enter (steps.drop (q.step + 1)) step).step < steps.length := by
      rw [step_enter]
      exact (List.getElem?_eq_some_iff.1 hstep).1
    exact (hq.standing_enter hstep hi).leave hgrid hS hv hlt hdue

theorem standing_start (script : ScriptSet) (i : ℕ) (curve : CurveSettings) (steps : Sequence) :
    ((start script i curve).scan steps).Standing steps 0 := by
  have hstart : (start script i curve).Passing steps 0 :=
    ⟨⟨.inl rfl, rfl⟩, rfl, fun j hj => absurd hj (Nat.not_lt_zero j), le_rfl, Scalar.clock_zero⟩
  refine scan_induction (Passing steps 0) (Standing steps 0) ?_ ?_ ?_ hstart (Nat.zero_le _)
  · intro q hq hend
    exact hq.standing_end hend
  · intro q step hq hstep hi
    exact hq.enter_instant hstep hi _
  · intro q step hq hstep hi
    exact hq.standing_enter hstep hi

theorem Standing.wait (h : p.Standing steps S) {delta : Scalar} (hk : delta.Ticks k) (hS : S + k < 2 ^ 23) :
    (p.wait delta).Standing steps (S + k) where
  settled := h.settled
  mode := h.mode
  past j hj := not_stops_mono (h.past j hj) (Nat.le_add_right S k)
  spent hv := (h.spent hv).trans (Nat.le_add_right S k)
  clock hv := by
    have hspent := h.spent hv
    have hsum := (h.clock hv).add hk (by omega)
    rwa [← Nat.sub_add_comm hspent] at hsum

/-- **An update puts the playhead where it has to be**, wherever it stood. -/
theorem Standing.update (h : p.Standing steps S) (hgrid : ∀ step ∈ steps, step.OnGrid)
    (hsteps : p.steps? = some steps) {delta : Scalar} (hk : delta.Ticks k) (hS : S + k < 2 ^ 23) :
    (p.update delta).Placed steps (S + k) := by
  by_cases hv : p.mode = .vanished
  · -- the end of the script is a place to stop at any time
    rw [update_vanished hv]
    refine ⟨⟨h.settled, h.mode, ?_, ?_, ?_⟩, fun _ => ⟨.vanish, h.settled.vanish hv, .inl rfl⟩⟩
    · exact fun j hj => not_stops_mono (h.past j hj) (Nat.le_add_right S k)
    · exact fun hne => absurd hv hne
    · exact fun hne => absurd hv hne
  rw [update_driven (mode_of_settled h.settled hv) hsteps]
  have hwait := h.wait hk hS
  unfold playOn
  dsimp only
  split
  · next hd =>
    exact (hwait.leave hgrid hS hv hd.2 hd.1).play hgrid hS hd.2
  · next hd =>
    refine ⟨hwait, fun hlt => ?_⟩
    by_contra hs
    exact hd ⟨(hwait.isDue_iff hgrid hS hv hlt).2 hs, hlt⟩

/-- The place to stop is the first one. -/
theorem Placed.step_le (hp : p.Placed steps S) (hq : q.Placed steps S) : q.step ≤ p.step := by
  by_contra hlt
  have hp' := hp.2 (by have := hq.1.settled.step_le; omega)
  exact hq.1.past p.step (by omega) hp'

/-- **The time since the binding fixes a playhead**, as far as it has been placed. -/
theorem Placed.agree (hp : p.Placed steps S) (hq : q.Placed steps S) :
    p.step = q.step ∧ p.mode = q.mode ∧ p.target = q.target ∧ (p.mode ≠ .vanished → p.elapsed = q.elapsed) := by
  have hstep : p.step = q.step := le_antisymm (hq.step_le hp) (hp.step_le hq)
  have hmode : p.mode = q.mode := by rw [hp.1.mode, hq.1.mode, hstep]
  have htarget : p.target = q.target := by rw [hp.1.settled.target_eq, hq.1.settled.target_eq, hstep]
  refine ⟨hstep, hmode, htarget, fun hv => ?_⟩
  have hclock := hp.1.clock hv
  rw [hstep] at hclock
  exact hclock.unique (hq.1.clock (hmode ▸ hv))

/-- **Any updates put the playhead where it has to be.** -/
theorem Standing.updates (h : p.Standing steps S) (hgrid : ∀ step ∈ steps, step.OnGrid)
    (hsteps : p.steps? = some steps) {deltas : List Scalar} (hne : deltas ≠ [])
    (hdeltas : ∀ delta ∈ deltas, delta.OnGrid) (hS : S + (deltas.map Scalar.ticks).sum < 2 ^ 23) :
    (deltas.foldl Playhead.update p).Placed steps (S + (deltas.map Scalar.ticks).sum) := by
  induction deltas generalizing S p with
  | nil => exact absurd rfl hne
  | cons delta deltas ih =>
    obtain ⟨hdelta, hrest⟩ := List.forall_mem_cons.1 hdeltas
    rw [List.map_cons, List.sum_cons, ← Nat.add_assoc] at hS ⊢
    have hplaced := h.update hgrid hsteps hdelta.ticks (by omega)
    rw [List.foldl_cons]
    -- at least one update is needed: a binding stays at a step even if its duration is zero
    rcases eq_or_ne deltas [] with rfl | hne'
    · exact hplaced
    · exact ih hplaced.1 ((steps?_update p delta).trans hsteps) hne' hrest hS

end Playhead

/-! ## Slices -/

namespace Controller

variable [Target β] [Generator γ β]

/-- The controller after updates, each with the entity that is at hand then. -/
def updates (c : Controller γ) (slices : List (Scalar × β)) : Controller γ :=
  slices.foldl (fun c slice => (Scene.update { controller := c, body := slice.2 } slice.1).controller) c

theorem playhead_updates (slices : List (Scalar × β)) (c : Controller γ) :
    (c.updates slices).playhead = (slices.map Prod.fst).foldl Playhead.update c.playhead := by
  unfold updates
  induction slices generalizing c with
  | nil => rfl
  | cons slice slices ih =>
    rw [List.foldl_cons, ih, List.map_cons, List.foldl_cons, Scene.playhead_update]

/-- Where updates leave a controller that has just been bound. -/
theorem placed_updates (c : Controller γ) {script : ScriptSet} {i : ℕ} {steps : Sequence}
    (hsteps : script.sequence? i = some steps) (hgrid : ∀ step ∈ steps, step.OnGrid)
    {slices : List (Scalar × β)} (hne : slices ≠ []) (hslices : ∀ slice ∈ slices, slice.1.OnGrid)
    {T : Scalar} (hT : T.OnGrid) (hsum : (slices.map (·.1.toRat)).sum = T.toRat) (hlt : T.toRat < 2 ^ 16) :
    ((c.bind script i).updates slices).steps? = some steps ∧
      ((c.bind script i).updates slices).playhead.Placed steps T.ticks := by
  have hticks : ((slices.map Prod.fst).map Scalar.ticks).sum = T.ticks := by
    rw [Scalar.sum_ticks fun slice hs => (hslices slice hs).ticks.value, hT.ticks.value,
      div_left_inj' (by norm_num)] at hsum
    rw [List.map_map]
    exact_mod_cast hsum
  -- less than 2 ^ 16 seconds, which leaves room for the tolerance
  have hbound : T.ticks < 2 ^ 23 := by
    rw [hT.ticks.value, div_lt_iff₀ (by norm_num)] at hlt
    norm_num at hlt
    exact_mod_cast hlt
  have hplaying := Playhead.steps?_scan_start c.curve hsteps
  have hdeltas : ∀ delta ∈ slices.map Prod.fst, delta.OnGrid := by simpa using hslices
  have h := (Playhead.standing_start script i c.curve steps).updates hgrid hplaying
    (by simpa using hne) hdeltas (by omega)
  have hrun := playhead_updates slices (c.bind script i)
  rw [playhead_bind c hsteps] at hrun
  rw [hticks, Nat.zero_add, ← hrun] at h
  refine ⟨?_, h⟩
  show ((c.bind script i).updates slices).playhead.steps? = some steps
  rw [hrun, Playhead.steps?_updates, hplaying]

/-- The time since the binding fixes a controller, as far as it has been placed. -/
theorem agree_of_placed {c d : Controller γ} {steps : Sequence} {S : ℕ} (hc : c.playhead.Placed steps S)
    (hd : d.playhead.Placed steps S) (hsteps : c.steps? = d.steps?) :
    c.step = d.step ∧ c.mode = d.mode ∧ c.target = d.target ∧ c.isIdle = d.isIdle ∧
      c.isDeletable = d.isDeletable ∧ (c.mode ≠ .vanished → c.elapsed = d.elapsed) := by
  obtain ⟨hstep, hmode, htarget, helapsed⟩ := hc.agree hd
  have hstep' : c.step = d.step := hstep
  have hmode' : c.mode = d.mode := hmode
  refine ⟨hstep, hmode, htarget, ?_, ?_, helapsed⟩
  · rw [isIdle, isIdle, hsteps, hstep']
  · rw [isDeletable, isDeletable, hmode']

/-- A controller that has been placed is at the first place to stop. -/
theorem stopsAt_of_placed {c : Controller γ} {steps : Sequence} {S : ℕ} (h : c.playhead.Placed steps S)
    (hgrid : ∀ step ∈ steps, step.OnGrid) :
    (StopsAt steps (S / 128) c.step ∨ c.step = steps.length) ∧ ∀ j < c.step, ¬StopsAt steps (S / 128) j := by
  constructor
  · rcases Nat.lt_or_ge c.step steps.length with hlt | hge
    · exact .inl ((stopsAt_iff hgrid).2 (h.2 hlt))
    · exact .inr (le_antisymm h.1.settled.step_le hge)
  · exact fun j hj hs => h.1.past j hj ((stopsAt_iff hgrid).1 hs)

/-- **Time may be passed in any slices.** If all times are whole numbers of ticks, then a controller that
has just been bound stands after many updates where a single one puts it: at the first place to stop. -/
theorem slices_agree (c : Controller γ) {script : ScriptSet} {i : ℕ} {steps : Sequence}
    (hsteps : script.sequence? i = some steps) (hgrid : ∀ step ∈ steps, step.OnGrid)
    {slices : List (Scalar × β)} (hne : slices ≠ []) (hslices : ∀ slice ∈ slices, slice.1.OnGrid)
    {T : Scalar} (hT : T.OnGrid) (hsum : (slices.map (·.1.toRat)).sum = T.toRat) (hlt : T.toRat < 2 ^ 16)
    (body : β) :
    let sliced := (c.bind script i).updates slices
    let once := (c.bind script i).updates [(T, body)]
    (sliced.step = once.step ∧ sliced.mode = once.mode ∧ sliced.target = once.target ∧
      sliced.isIdle = once.isIdle ∧ sliced.isDeletable = once.isDeletable ∧
      (sliced.mode ≠ .vanished → sliced.elapsed = once.elapsed)) ∧
    (StopsAt steps T.toRat sliced.step ∨ sliced.step = steps.length) ∧
    ∀ j < sliced.step, ¬StopsAt steps T.toRat j := by
  have hone : ([(T, body)].map (·.1.toRat)).sum = T.toRat := by simp
  obtain ⟨hplaying, hplaced⟩ := placed_updates c hsteps hgrid hne hslices hT hsum hlt
  obtain ⟨hplaying', hplaced'⟩ := placed_updates c hsteps hgrid (List.cons_ne_nil (T, body) [])
    (List.forall_mem_singleton.2 hT) hT hone hlt
  rw [hT.ticks.value]
  exact ⟨agree_of_placed hplaced hplaced' (hplaying.trans hplaying'.symm), stopsAt_of_placed hplaced hgrid⟩

theorem slices_agree_of_two :
    let steps : Sequence := [.wait 0.5, .move 0 10, .path 0.25 1 .linear, .point ⟨1, 2⟩, .wait 1]
    let c : Controller Stock := manual.bind ⟨"steps", [steps]⟩ 0
    let sliced := c.updates ([(0.25, {}), (0.5, {})] : List (Scalar × Body))
    let once := c.updates ([(0.75, {})] : List (Scalar × Body))
    sliced.step = once.step ∧ sliced.mode = once.mode ∧ sliced.target = once.target := by
  intro steps c sliced once
  have hquarter : (0.25 : Scalar).toRat = 8388608 * 2 ^ (-25 : ℤ) := rfl
  have hhalf : (0.5 : Scalar).toRat = 8388608 * 2 ^ (-24 : ℤ) := rfl
  have hone : (1 : Scalar).toRat = 8388608 * 2 ^ (-23 : ℤ) := rfl
  have htotal : (0.75 : Scalar).toRat = 12582912 * 2 ^ (-24 : ℤ) := rfl
  have gquarter : (0.25 : Scalar).OnGrid := ⟨rfl, 32, by rw [hquarter]; norm_num⟩
  have ghalf : (0.5 : Scalar).OnGrid := ⟨rfl, 64, by rw [hhalf]; norm_num⟩
  have gone : (1 : Scalar).OnGrid := ⟨rfl, 128, by rw [hone]; norm_num⟩
  have gtotal : (0.75 : Scalar).OnGrid := ⟨rfl, 96, by rw [htotal]; norm_num⟩
  have hsteps : (⟨"steps", [steps]⟩ : ScriptSet).sequence? 0 = some steps := rfl
  have hgrid : ∀ step ∈ steps, step.OnGrid := by
    simp only [steps, List.forall_mem_cons, Step.OnGrid, Step.duration?]
    simp [gquarter, ghalf, gone]
  have hslices : ∀ slice ∈ ([(0.25, {}), (0.5, {})] : List (Scalar × Body)), slice.1.OnGrid := by
    simp [gquarter, ghalf]
  have hsum : (([(0.25, {}), (0.5, {})] : List (Scalar × Body)).map (·.1.toRat)).sum = (0.75 : Scalar).toRat := by
    simp only [List.map_cons, List.map_nil, List.sum_cons, List.sum_nil, hquarter, hhalf, htotal]
    norm_num
  have hlt : (0.75 : Scalar).toRat < 2 ^ 16 := by
    rw [htotal]
    norm_num
  obtain ⟨hstep, hmode, htarget, -⟩ :=
    (slices_agree (manual : Controller Stock) hsteps hgrid (List.cons_ne_nil _ _) hslices gtotal hsum hlt {}).1
  exact ⟨hstep, hmode, htarget⟩

end Controller

end MotionScript
