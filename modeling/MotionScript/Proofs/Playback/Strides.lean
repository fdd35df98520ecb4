import MotionScript.Proofs.Playback.Reports
import MotionScript.Proofs.Scalar.Grid
import MotionScript.Proofs.Scalar.Gap

/-!
# Strides

An entity that no path takes along is moved in strides: for a time, with a velocity, on account of a step. The journal
tells of all of them, and it tells the velocity as well, by the steps that have been reached.

* `Motion`, `Motion.hear`: velocity and acceleration, as far as the journal tells.
* `Stride`, `Motion.strides`: the strides of which a journal tells.
* `Scene.strides_drift`: a stride is made with the velocity of the controller.
* `Scene.Account`: the strides of each step, with the time that they have taken and the velocity that they have had.
* `Scene.Account.reach`, `Scene.Account.drift`: what reaching a step and a stride do to the account.
-/

namespace MotionScript

variable {γ β : Type}

/-! ## Motions -/

/-- Velocity and acceleration. -/
structure Motion where
  velocity : Vec2 := 0
  acceleration : Vec2 := 0

/-- One application of a velocity for a time, on account of the step with an index. -/
structure Stride where
  step : ℕ
  velocity : Vec2
  time : Scalar

namespace Motion

/-- What reaching a step does to a motion. -/
def enter (m : Motion) : Step → Motion
  | .move direction speed => { m with velocity := .ofAngle direction speed }
  | .accelerate direction amount => { m with acceleration := .ofAngle direction amount }
  | _ => m

/-- What an entry of the journal tells about a motion. -/
def hear (m : Motion) : Event β → Motion
  | .reached _ step => m.enter step
  | .drifted _ dt => { m with velocity := m.velocity + m.acceleration * dt }
  | _ => m

/-- The stride of which an entry tells. -/
def stride? (m : Motion) : Event β → Option Stride
  | .drifted k dt => some ⟨k, m.velocity, dt⟩
  | _ => none

/-- The strides of which entries tell, from a motion on. -/
def strides (m : Motion) : List (Event β) → List Stride
  | [] => []
  | e :: es => (m.stride? e).toList ++ strides (m.hear e) es

theorem strides_append (m : Motion) (l l' : List (Event β)) :
    m.strides (l ++ l') = m.strides l ++ (l.foldl hear m).strides l' := by
  induction l generalizing m with
  | nil => rfl
  | cons e l ih => rw [List.cons_append, strides, ih, strides, List.foldl_cons, List.append_assoc]

end Motion

/-- The motion of a controller. -/
def Controller.motion (c : Controller γ) : Motion := ⟨c.velocity, c.acceleration⟩

/-- The entry tells nothing about the motion. -/
def Event.Still : Event β → Prop
  | .reached _ _ | .drifted _ _ => False
  | _ => True

theorem Event.Still.hear {e : Event β} (h : e.Still) (m : Motion) : m.hear e = m ∧ m.stride? e = none := by
  cases e with
  | reached => exact h.elim
  | drifted => exact h.elim
  | _ => exact ⟨rfl, rfl⟩

theorem strides_of_still {l : List (Event β)} (h : ∀ e ∈ l, e.Still) (m : Motion) :
    l.foldl Motion.hear m = m ∧ m.strides l = [] := by
  induction l with
  | nil => exact ⟨rfl, rfl⟩
  | cons e l ih =>
    obtain ⟨he, hl⟩ := List.forall_mem_cons.1 h
    obtain ⟨hhear, hnone⟩ := he.hear m
    rw [List.foldl_cons, Motion.strides, hhear, hnone]
    exact ih hl

/-- Two vectors are the same numbers. -/
def Vec2.Same (v w : Vec2) : Prop := Scalar.SameNumber v.x w.x ∧ Scalar.SameNumber v.y w.y

namespace Vec2.Same

variable {u v w : Vec2}

theorem refl (v : Vec2) : v.Same v := ⟨.refl _, .refl _⟩

theorem symm (h : v.Same w) : w.Same v := ⟨h.1.symm, h.2.symm⟩

theorem trans (h : u.Same v) (h' : v.Same w) : u.Same w := ⟨h.1.trans h'.1, h.2.trans h'.2⟩

end Vec2.Same

/-! ## Steps -/

/-- The motion that the steps before an index have set. -/
def motionBefore (steps : Sequence) (i : ℕ) : Motion := (steps.take i).foldl Motion.enter {}

/-- The velocity that the last step up to an index has set which sets one. -/
def velocityAt (steps : Sequence) (i : ℕ) : Vec2 := (motionBefore steps (i + 1)).velocity

/-- No step accelerates. -/
def Coasting (steps : Sequence) : Prop :=
  ∀ direction amount, .accelerate direction amount ∈ steps → Vec2.Same (.ofAngle direction amount) 0

section Steps

variable {steps : Sequence} {i : ℕ} {step : Step}

theorem motionBefore_succ (h : steps[i]? = some step) :
    motionBefore steps (i + 1) = (motionBefore steps i).enter step := by
  unfold motionBefore
  rw [List.take_add_one, h]
  simp

theorem motionBefore_end : motionBefore steps (steps.length + 1) = motionBefore steps steps.length := by
  unfold motionBefore
  rw [List.take_of_length_le (Nat.le_succ _), List.take_length]

end Steps

/-- The seconds that the strides of a list take which have a property. -/
def timeOf (p : Stride → Prop) [DecidablePred p] (l : List Stride) : ℚ := ((l.filter p).map (·.time.toRat)).sum

theorem timeOf_append (p : Stride → Prop) [DecidablePred p] (l l' : List Stride) :
    timeOf p (l ++ l') = timeOf p l + timeOf p l' := by
  simp [timeOf]

instance (x y : Scalar) : Decidable (Scalar.SameNumber x y) := inferInstanceAs (Decidable (_ ∨ _))

instance (v w : Vec2) : Decidable (Vec2.Same v w) := inferInstanceAs (Decidable (_ ∧ _))

/-! ## Strides of a scene -/

namespace Scene

/-- The strides of which the journal tells, if it begins with a motion. -/
def strides (m : Motion) (s : Scene γ β) : List Stride := m.strides s.events

/-- **The strides of a scene are accounted for.** They have been made on account of steps that wait, and those of each
step for as many ticks as have been spent. If no step accelerates, then nothing but the steps before an index has set
the velocity, and every stride has been made with the velocity that was set at the time. -/
structure Account (steps : Sequence) (m : Motion) (i : ℕ) (spent : ℕ → ℕ) (s : Scene γ β) : Prop where
  told : s.controller.motion = s.events.foldl Motion.hear m
  waits : ∀ stride ∈ s.strides m, ∃ duration, steps[stride.step]? = some (.wait duration)
  times : ∀ k, timeOf (·.step = k) (s.strides m) = spent k / 128
  motion : Coasting steps → s.controller.velocity.Same (motionBefore steps i).velocity ∧
    s.controller.acceleration.Same 0
  velocities : Coasting steps → ∀ stride ∈ s.strides m, stride.velocity.Same (velocityAt steps stride.step)

variable {steps : Sequence} {m : Motion} {spent : ℕ → ℕ} {i n : ℕ} {s t : Scene γ β}

/-- What tells nothing about the motion leaves the account as it is. -/
theorem Account.still (h : s.Account steps m i spent) (hlogs : Logs Event.Still s t)
    (hmotion : t.controller.motion = s.controller.motion) : t.Account steps m i spent := by
  obtain ⟨l, hl, hstill⟩ := hlogs
  have hevents := events_of_append hl
  obtain ⟨hhear, hnone⟩ :=
    strides_of_still (fun e he => hstill e (List.mem_reverse.1 he)) (s.events.foldl Motion.hear m)
  have hstrides : t.strides m = s.strides m := by
    rw [strides, hevents, Motion.strides_append, hnone, List.append_nil]
    rfl
  have hvelocity : t.controller.velocity = s.controller.velocity := congrArg Motion.velocity hmotion
  have hacceleration : t.controller.acceleration = s.controller.acceleration := congrArg Motion.acceleration hmotion
  refine ⟨?_, ?_, ?_, ?_, ?_⟩
  · rw [hmotion, hevents, List.foldl_append, hhear, h.told]
  · rw [hstrides]
    exact h.waits
  · rw [hstrides]
    exact h.times
  · rw [hvelocity, hacceleration]
    exact h.motion
  · rw [hstrides]
    exact h.velocities

theorem motion_enter (rest : List Step) (c : Controller γ) (step : Step) :
    (c.enter rest step).motion = c.motion.enter step := by
  cases step <;> rfl

/-- What concerns every step is not about any. -/
theorem logs_still (h : ∀ k, Logs (Event.Concerns k) s t) : Logs Event.Still s t := by
  refine (logs_concerns_all h).mono fun e he => ?_
  cases e with
  | left => exact (he 0).elim
  | reached i => exact absurd ((he 0).symm.trans (he 1)) (by decide)
  | drifted i => exact absurd ((he 0).symm.trans (he 1)) (by decide)
  | followed => trivial
  | switched => trivial
  | called => trivial
  | sent => trivial

theorem Account.at_end (h : s.Account steps m i spent) (hend : i = steps.length) : s.Account steps m (i + 1) spent := by
  subst hend
  refine ⟨h.told, h.waits, h.times, ?_, h.velocities⟩
  rw [motionBefore_end]
  exact h.motion

section Reach

variable [Target β] [Generator γ β]

/-- Reaching a step sets the motion, and no stride is made. -/
theorem Account.reach {step : Step} (h : s.Account steps m s.controller.step spent)
    (hstep : steps[s.controller.step]? = some step) (rest : List Step) :
    (s.reach rest step).Account steps m (s.controller.step + 1) spent := by
  let q : Scene γ β := (s.note (.reached s.controller.step step)).control (·.enter rest step)
  have hevents : q.events = s.events ++ [.reached s.controller.step step] :=
    events_of_append (l := [_]) rfl
  have hstrides : q.strides m = s.strides m := by
    rw [strides, hevents, Motion.strides_append]
    exact List.append_nil _
  have hmotion : q.controller.motion = s.controller.motion.enter step := motion_enter rest s.controller step
  have hq : q.Account steps m (s.controller.step + 1) spent := by
    refine ⟨?_, ?_, ?_, ?_, ?_⟩
    · rw [hmotion, hevents, List.foldl_append, h.told]
      rfl
    · rw [hstrides]
      exact h.waits
    · rw [hstrides]
      exact h.times
    · intro hcoast
      obtain ⟨hvelocity, hacceleration⟩ := h.motion hcoast
      rw [show q.controller.velocity = _ from congrArg Motion.velocity hmotion,
        show q.controller.acceleration = _ from congrArg Motion.acceleration hmotion, motionBefore_succ hstep]
      cases step with
      | move => exact ⟨.refl _, hacceleration⟩
      | accelerate => exact ⟨hvelocity, hcoast _ _ (List.mem_of_getElem? hstep)⟩
      | _ => exact ⟨hvelocity, hacceleration⟩
    · rw [hstrides]
      exact h.velocities
  obtain ⟨g, activation, hc, -, -⟩ := controller_deliver q step
  refine hq.still (logs_still fun k => logs_deliver q step k) ?_
  show (q.deliver step).controller.motion = q.controller.motion
  rw [hc]
  rfl

end Reach

section Drift

variable [Target β]

theorem events_drift {dt : Scalar} (h : ¬dt ≤ 0) (s : Scene γ β) :
    (s.drift dt).events = s.events ++ [.drifted s.controller.step dt] ∧
      (s.drift dt).controller.motion =
        ⟨s.controller.velocity + s.controller.acceleration * dt, s.controller.acceleration⟩ := by
  have hjournal : (s.drift dt).journal = .drifted s.controller.step dt :: s.journal := by
    unfold drift
    rw [if_neg h]
    dsimp only
    split
    · rfl
    · rw [journal_face]
  refine ⟨events_of_append (l := [_]) hjournal, ?_⟩
  unfold drift
  rw [if_neg h]
  dsimp only
  split
  · rfl
  · rw [controller_face]
    rfl

/-- **A stride is made with the velocity of the controller.** -/
theorem strides_drift (htold : s.controller.motion = s.events.foldl Motion.hear m) {dt : Scalar} (h : ¬dt ≤ 0) :
    (s.drift dt).strides m = s.strides m ++ [⟨s.controller.step, s.controller.velocity, dt⟩] := by
  rw [strides, (events_drift h s).1, Motion.strides_append, ← htold]
  rfl

/-- **A stride is entered in the account.** Without acceleration it leaves the velocity as it is, but for the sign of
zeros. -/
theorem Account.drift (h : s.Account steps m (s.controller.step + 1) spent) {dt : Scalar} (hdt : dt.Ticks n)
    (hwait : n ≠ 0 → ∃ duration, steps[s.controller.step]? = some (.wait duration)) :
    (s.drift dt).Account steps m (s.controller.step + 1) fun k => spent k + if s.controller.step = k then n else 0 := by
  have hzero : dt ≤ 0 ↔ n = 0 := (hdt.le_iff Scalar.clock_zero.toTicks).trans Nat.le_zero
  by_cases hle : dt ≤ 0
  · rw [drift_of_le s hle]
    simpa [hzero.1 hle] using h
  have hstrides := strides_drift h.told hle
  obtain ⟨hevents, hmotion⟩ := events_drift hle s
  refine ⟨?_, ?_, ?_, ?_, ?_⟩
  · rw [hevents, List.foldl_append, ← h.told]
    exact hmotion
  · rw [hstrides]
    refine List.forall_mem_append.2 ⟨h.waits, List.forall_mem_singleton.2 ?_⟩
    exact hwait fun hn => hle (hzero.2 hn)
  · intro k
    rw [hstrides, timeOf_append, h.times]
    by_cases hk : s.controller.step = k
    · simp only [timeOf, List.filter_cons, List.filter_nil, hk, decide_true, if_true, List.map_cons, List.map_nil,
        List.sum_cons, List.sum_nil, hdt.value]
      push_cast
      ring
    · simp [timeOf, hk]
  · intro hcoast
    obtain ⟨hvelocity, hacceleration⟩ := h.motion hcoast
    rw [show (s.drift dt).controller.velocity = _ from congrArg Motion.velocity hmotion,
      show (s.drift dt).controller.acceleration = _ from congrArg Motion.acceleration hmotion]
    have hx : s.controller.acceleration.x * dt == 0 := Scalar.mul_beq_zero hacceleration.1.beq_zero hdt.finite
    have hy : s.controller.acceleration.y * dt == 0 := Scalar.mul_beq_zero hacceleration.2.beq_zero hdt.finite
    exact ⟨Vec2.Same.trans ⟨Scalar.sameNumber_add_zero hx, Scalar.sameNumber_add_zero hy⟩ hvelocity, hacceleration⟩
  · intro hcoast
    rw [hstrides]
    refine List.forall_mem_append.2 ⟨h.velocities hcoast, List.forall_mem_singleton.2 ?_⟩
    exact (h.motion hcoast).1

end Drift

end Scene

end MotionScript
