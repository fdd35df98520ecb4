import MotionScript.Proofs.Curve.PathTable
import MotionScript.Proofs.Playback.Playhead

/-!
# Where playback comes to rest

Whatever the owner of a controller does, and whatever times pass, playback never rests on a step that
takes no time and never leaves its sequence.

* `Playhead.Settled`: a playhead at rest in a sequence; mode, duration and path fit the current step.
* `Playhead.Ready`: a playhead on its way to the next place of rest.
* `Playhead.Sound`: what the operations of an owner keep.
* `Controller.RestsAt`: the four kinds of places.
* `Controller.rests_after`: after any operations a controller that its script drives is at just one of them.
-/

namespace MotionScript

variable {γ β : Type}

namespace Playhead

/-- **A playhead at rest.** The path is the one through the points that follow, as finely drawn as was
set at the time. -/
def Settled (steps : Sequence) (p : Playhead) : Prop :=
  match steps[p.step]? with
  | none => p.step = steps.length ∧ (p.mode = .move ∨ p.mode = .path) ∧ p.target = 0
  | some (.wait duration) => p.mode = .move ∧ p.target = Scalar.max duration 0
  | some (.path duration count interpolation) =>
    p.mode = .path ∧ p.target = Scalar.max duration 0 ∧ ∃ settings,
      p.path = .build (Step.controlPoints count (steps.drop (p.step + 1))) duration interpolation settings
  | some .vanish => p.mode = .vanished ∧ p.target = 0
  | some _ => False

/-- A playhead that is about to reach a step. -/
structure Ready (p : Playhead) : Prop where
  mode : p.mode = .move ∨ p.mode = .path
  target : p.target = 0

variable {steps : Sequence} {p : Playhead} {step : Step}

theorem Settled.step_le (h : p.Settled steps) : p.step ≤ steps.length := by
  unfold Settled at h
  split at h
  · exact h.1.le
  all_goals
    next hs => exact (List.getElem?_eq_some_iff.1 hs).1.le

theorem Ready.settled_end (h : p.Ready) (hend : p.step = steps.length) : p.Settled steps := by
  unfold Settled
  rw [List.getElem?_eq_none hend.ge]
  exact ⟨hend, h.mode, h.target⟩

theorem Ready.enter_instant {rest : List Step} (h : p.Ready) (hi : step.IsInstant) :
    (p.enter rest step).next.Ready := by
  cases step with
  | move => exact ⟨.inl rfl, h.target⟩
  | accelerate => exact ⟨.inl rfl, h.target⟩
  | point => exact ⟨h.mode, h.target⟩
  | generate => exact ⟨h.mode, h.target⟩
  | animate => exact ⟨h.mode, h.target⟩
  | wait => cases hi
  | path => cases hi
  | vanish => cases hi

theorem Ready.settled_enter (h : p.Ready) (hstep : steps[p.step]? = some step) (hi : ¬step.IsInstant) :
    (p.enter (steps.drop (p.step + 1)) step).Settled steps := by
  unfold Settled
  rw [step_enter, hstep]
  cases step with
  | wait => exact ⟨rfl, rfl⟩
  | path => exact ⟨rfl, rfl, p.curve, rfl⟩
  | vanish => exact ⟨rfl, h.target⟩
  | move => exact hi rfl
  | accelerate => exact hi rfl
  | point => exact hi rfl
  | generate => exact hi rfl
  | animate => exact hi rfl

theorem Ready.leave (h : p.mode = .move ∨ p.mode = .path) : p.leave.Ready := ⟨h, rfl⟩

/-- A step that takes time and does not vanish leaves the playhead in one of two modes. -/
theorem mode_of_settled (h : p.Settled steps) (hv : p.mode ≠ .vanished) : p.mode = .move ∨ p.mode = .path := by
  unfold Settled at h
  split at h
  · exact h.2.1
  · exact .inl h.1
  · exact .inr h.1
  · exact absurd h.1 hv
  · exact h.elim

/-- **Playback comes to rest.** -/
theorem Ready.settled_play (h : p.Ready) (hle : p.step ≤ steps.length) :
    (play (steps.drop p.step) p).Settled steps := by
  refine play_induction Ready (Settled steps) ?_ ?_ ?_ ?_ h hle
  · intro q hq hend
    exact hq.settled_end hend
  · intro q step hq _ hi
    exact hq.enter_instant hi
  · intro q step hq hstep hi _
    exact hq.settled_enter hstep hi
  · intro q step hq hstep hi hv _
    exact Ready.leave (mode_of_settled (hq.settled_enter hstep hi) hv)

theorem Ready.settled_scan (h : p.Ready) (hle : p.step ≤ steps.length) :
    (scan (steps.drop p.step) p).Settled steps := by
  refine scan_induction Ready (Settled steps) ?_ ?_ ?_ h hle
  · intro q hq hend
    exact hq.settled_end hend
  · intro q step hq _ hi
    exact hq.enter_instant hi
  · intro q step hq hstep hi
    exact hq.settled_enter hstep hi

/-- A binding comes to rest. -/
theorem settled_start (script : ScriptSet) (i : ℕ) (curve : CurveSettings) (steps : Sequence) :
    ((start script i curve).scan steps).Settled steps :=
  Ready.settled_scan (p := start script i curve) ⟨.inl rfl, rfl⟩ (Nat.zero_le _)

/-- An update comes to rest, whatever the time. -/
theorem Settled.playOn (h : p.Settled steps) (hv : p.mode ≠ .vanished) (delta : Scalar) :
    (p.playOn delta steps).Settled steps := by
  unfold Playhead.playOn
  dsimp only
  split
  · next hd =>
    exact Ready.settled_play (Ready.leave (p := p.wait delta) (mode_of_settled h hv)) hd.2
  · exact h

theorem Settled.update (h : p.Settled steps) (hsteps : p.steps? = some steps) (delta : Scalar) :
    (p.update delta).Settled steps := by
  by_cases hv : p.mode = .vanished
  · rwa [update_vanished hv]
  · rw [update_driven (mode_of_settled h hv) hsteps]
    exact h.playOn hv delta

theorem Settled.updates (h : p.Settled steps) (hsteps : p.steps? = some steps) (deltas : List Scalar) :
    (deltas.foldl Playhead.update p).Settled steps := by
  induction deltas generalizing p with
  | nil => exact h
  | cons delta deltas ih => exact ih (h.update hsteps delta) ((steps?_update p delta).trans hsteps)

/-! ## Soundness -/

/-- **A playhead that an owner may leave.** Without a script it is under manual control, at the very
start. With one it stands in a sequence of the script, at rest if it is not under manual control. -/
def Sound (p : Playhead) : Prop :=
  match p.script with
  | none => p.mode = .manual ∧ p.sequence = 0 ∧ p.step = 0
  | some script => ∃ steps, script.sequence? p.sequence = some steps ∧ p.step ≤ steps.length ∧
    (p.mode ≠ .manual → p.Settled steps)

theorem sound_of_settled {script : ScriptSet} (hscript : p.script = some script)
    (hsequence : script.sequence? p.sequence = some steps) (h : p.Settled steps) : p.Sound := by
  unfold Sound
  rw [hscript]
  exact ⟨steps, hsequence, h.step_le, fun _ => h⟩

/-- Manual control takes the playhead as it stands. -/
theorem Sound.manual (h : p.Sound) {q : Playhead} (hscript : q.script = p.script)
    (hsequence : q.sequence = p.sequence) (hstep : q.step = p.step) (hm : q.mode = .manual) : q.Sound := by
  unfold Sound at h ⊢
  rw [hscript, hsequence, hstep]
  split
  · next hn =>
    rw [hn] at h
    exact ⟨hm, h.2⟩
  · next script hs =>
    rw [hs] at h
    obtain ⟨steps, hq, hle, -⟩ := h
    exact ⟨steps, hq, hle, fun hne => absurd hm hne⟩

theorem sound_scan_start {script : ScriptSet} {i : ℕ} (curve : CurveSettings)
    (h : script.sequence? i = some steps) : ((start script i curve).scan steps).Sound := by
  obtain ⟨hscript, hsequence⟩ := sequence_scan steps (start script i curve)
  apply sound_of_settled hscript (by rw [hsequence]; exact h)
  exact settled_start script i curve steps

/-- Whoever is not under manual control has a script, and is at rest in it. -/
theorem Sound.exists_settled (h : p.Sound) (hm : p.mode ≠ .manual) :
    ∃ steps, p.steps? = some steps ∧ p.Settled steps := by
  unfold Sound at h
  split at h
  · exact absurd h.1 hm
  next script hs =>
  obtain ⟨steps, hq, -, hset⟩ := h
  exact ⟨steps, by rw [steps?, hs, Option.bind_some, hq], hset hm⟩

/-- **An update leaves a sound playhead sound**, whatever the time. -/
theorem Sound.update (h : p.Sound) (delta : Scalar) : (p.update delta).Sound := by
  by_cases hm : p.mode = .manual
  · rw [update_manual hm]
    exact h.manual rfl rfl rfl hm
  obtain ⟨hscript, hsequence⟩ := sequence_update p delta
  obtain ⟨steps, hsteps, hset⟩ := h.exists_settled hm
  obtain ⟨script, hs, hq⟩ := Option.bind_eq_some_iff.1 hsteps
  exact sound_of_settled (hscript.trans hs) (by rw [hsequence]; exact hq) (hset.update hsteps delta)

end Playhead

/-! ## What an owner does -/

/-- What the owner of a controller does with it, or has it do for an entity. -/
inductive Operation (γ β : Type) where
  | setCurve (curve : CurveSettings)
  | setFaceHeading (faceHeading : Bool)
  | setGenerator (generator : Option γ)
  | bind (script : ScriptSet) (sequence : ℕ)
  | selectSequence (sequence : ℕ)
  | manualMove (direction speed : Scalar)
  | manualAccelerate (direction amount : Scalar)
  | manualTime (duration : Scalar)
  | update (delta : Scalar) (body : β)

namespace Controller

/-- The controller after an operation. -/
def perform [Target β] [Generator γ β] (c : Controller γ) : Operation γ β → Controller γ
  | .setCurve curve => c.setCurve curve
  | .setFaceHeading faceHeading => c.setFaceHeading faceHeading
  | .setGenerator generator => c.setGenerator generator
  | .bind script sequence => c.bind script sequence
  | .selectSequence sequence => c.selectSequence sequence
  | .manualMove direction speed => c.manualMove direction speed
  | .manualAccelerate direction amount => c.manualAccelerate direction amount
  | .manualTime duration => c.manualTime duration
  | .update delta body => (Scene.update { controller := c, body } delta).controller

theorem sound_bind {c : Controller γ} (h : c.playhead.Sound) (script : ScriptSet) (i : ℕ) :
    (c.bind script i).playhead.Sound := by
  cases hs : script.sequence? i with
  | none => rwa [bind_of_none c hs]
  | some steps =>
    rw [playhead_bind c hs]
    exact Playhead.sound_scan_start c.curve hs

/-- **Every operation leaves a sound playhead sound.** -/
theorem sound_perform [Target β] [Generator γ β] {c : Controller γ} (h : c.playhead.Sound)
    (op : Operation γ β) : (c.perform op).playhead.Sound := by
  -- only bindings and updates take the playhead elsewhere
  cases op with
  | setCurve curve => exact h
  | setFaceHeading faceHeading => exact h
  | setGenerator generator => exact h
  | bind script i => exact sound_bind h script i
  | selectSequence i =>
    unfold perform
    dsimp only
    cases hs : c.script with
    | none => rwa [selectSequence_of_none c hs]
    | some script =>
      rw [selectSequence_eq_bind c hs]
      exact sound_bind h script i
  | manualMove direction speed => exact h.manual rfl rfl rfl rfl
  | manualAccelerate direction amount => exact h.manual rfl rfl rfl rfl
  | manualTime duration => exact h.manual rfl rfl rfl rfl
  | update delta body =>
    unfold perform
    dsimp only
    rw [Scene.playhead_update]
    exact h.update delta

theorem sound_operations [Target β] [Generator γ β] (ops : List (Operation γ β)) {c : Controller γ}
    (h : c.playhead.Sound) : (ops.foldl perform c).playhead.Sound := by
  induction ops generalizing c with
  | nil => exact h
  | cons op ops ih => exact ih (sound_perform h op)

/-- The controller after operations, one after the other. -/
def after [Target β] [Generator γ β] (ops : List (Operation γ β)) : Controller γ := ops.foldl perform manual

theorem sound_after [Target β] [Generator γ β] (ops : List (Operation γ β)) : (after ops).playhead.Sound :=
  sound_operations ops ⟨rfl, rfl, rfl⟩

/-! ## The places of rest -/

/-- A kind of place where playback rests. -/
inductive Place where
  | finished
  | waiting
  | following
  | vanished

/-- A controller rests at a place of its sequence. -/
def RestsAt (steps : Sequence) (c : Controller γ) : Place → Prop
  | .finished => c.step = steps.length ∧ (c.mode = .move ∨ c.mode = .path) ∧ c.target = 0
  | .waiting => ∃ duration, steps[c.step]? = some (.wait duration) ∧ c.mode = .move ∧
      c.target = Scalar.max duration 0
  | .following => ∃ duration count interpolation,
      steps[c.step]? = some (.path duration count interpolation) ∧ c.mode = .path ∧
      c.target = Scalar.max duration 0 ∧
      (c.path.waypoints = #[] ↔ Step.controlPoints count (steps.drop (c.step + 1)) = [])
  | .vanished => steps[c.step]? = some .vanish ∧ c.mode = .vanished ∧ c.target = 0

/-- The step tells the kind of place. -/
def kindOfPlace (steps : Sequence) (c : Controller γ) : Place :=
  match steps[c.step]? with
  | some (.wait _) => .waiting
  | some (.path ..) => .following
  | some .vanish => .vanished
  | _ => .finished

theorem RestsAt.kind {steps : Sequence} {c : Controller γ} {place : Place} (h : c.RestsAt steps place) :
    place = c.kindOfPlace steps := by
  unfold kindOfPlace
  cases place with
  | finished => rw [List.getElem?_eq_none h.1.ge]
  | waiting =>
    obtain ⟨duration, hs, -⟩ := h
    rw [hs]
  | following =>
    obtain ⟨duration, count, interpolation, hs, -⟩ := h
    rw [hs]
  | vanished => rw [h.1]

theorem restsAt_of_settled {steps : Sequence} {c : Controller γ} (h : c.playhead.Settled steps) :
    ∃! place, c.RestsAt steps place := by
  refine ⟨c.kindOfPlace steps, ?_, fun place hp => hp.kind⟩
  have hstep : c.playhead.step = c.step := rfl
  unfold Playhead.Settled at h
  rw [hstep] at h
  unfold kindOfPlace
  split at h
  · next hs =>
    rw [hs]
    exact h
  · next duration hs =>
    rw [hs]
    exact ⟨duration, hs, h⟩
  · next duration count interpolation hs =>
    obtain ⟨hmode, htarget, settings, hpath⟩ := h
    have hempty : c.path.waypoints = #[] ↔ Step.controlPoints count (steps.drop (c.step + 1)) = [] := by
      rw [show c.path = _ from hpath]
      exact PathTable.waypoints_build_eq_empty
    rw [hs]
    exact ⟨duration, count, interpolation, hs, hmode, htarget, hempty⟩
  · next hs =>
    rw [hs]
    exact ⟨hs, h⟩
  · exact h.elim

/-- **Where a controller is after any operations of its owner.** Without a script it is under manual
control, at the very start. With one it stands in a sequence of the script, and unless it is under manual
control it rests there at a place of just one kind. -/
theorem rests_after [Target β] [Generator γ β] (ops : List (Operation γ β)) :
    ((after ops).script = none →
      (after ops).mode = .manual ∧ (after ops).sequence = 0 ∧ (after ops).step = 0) ∧
    ∀ script, (after ops).script = some script →
      ∃ steps, script.sequence? (after ops).sequence = some steps ∧ (after ops).step ≤ steps.length ∧
        ((after ops).mode ≠ .manual → ∃! place, (after ops).RestsAt steps place) := by
  have h := sound_after ops
  generalize after ops = c at h ⊢
  unfold Playhead.Sound at h
  have hscript : c.playhead.script = c.script := rfl
  rw [hscript] at h
  constructor
  · intro hn
    rw [hn] at h
    exact h
  · intro script hs
    rw [hs] at h
    obtain ⟨steps, hq, hle, hset⟩ := h
    exact ⟨steps, hq, hle, fun hm => restsAt_of_settled (hset hm)⟩

end Controller

end MotionScript
