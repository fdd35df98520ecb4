import MotionScript.Proofs.Playback.Journal

/-!
# From step to step

An update reaches steps one after the other until one of them is not over yet. What it does to the entity, to the
generator and to the journal on the way is told step by step.

* `Scene.play_induction`: from what holds of a scene on its way to what holds of it at rest.
* `Scene.Kept`: what every stage of an update keeps, wherever playback stands.
* `Scene.KeptInModes`: what every stage keeps if velocity and acceleration are applied in no mode but theirs.
* `Scene.KeptInModes.update`, `Scene.Kept.updates`: so do updates.
-/

namespace MotionScript.Scene

variable {γ β : Type} [Target β] [Generator γ β] {steps : Sequence}

/-- **Induction along playback.** What holds on the way from step to step comes to hold of a scene at rest: at the
end of the sequence, at the end of the script, or at a step that is not over yet. -/
theorem play_induction (Way Rest : Scene γ β → Prop)
    (finish : ∀ s, Way s → s.controller.step = steps.length → Rest s.overflow)
    (instant : ∀ s step, Way s → steps[s.controller.step]? = some step → step.IsInstant →
      Way ((s.reach (steps.drop (s.controller.step + 1)) step).control (·.next)))
    (vanish : ∀ s step, Way s → steps[s.controller.step]? = some step → ¬step.IsInstant →
      (s.reach (steps.drop (s.controller.step + 1)) step).controller.isDeletable →
      Rest (s.reach (steps.drop (s.controller.step + 1)) step))
    (stay : ∀ s step, Way s → steps[s.controller.step]? = some step → ¬step.IsInstant →
      ¬(s.reach (steps.drop (s.controller.step + 1)) step).controller.isDeletable →
      ¬(s.reach (steps.drop (s.controller.step + 1)) step).overflow.controller.isDue →
      Rest (s.reach (steps.drop (s.controller.step + 1)) step).overflow)
    (leave : ∀ s step, Way s → steps[s.controller.step]? = some step → ¬step.IsInstant →
      ¬(s.reach (steps.drop (s.controller.step + 1)) step).controller.isDeletable →
      (s.reach (steps.drop (s.controller.step + 1)) step).overflow.controller.isDue →
      Way (s.reach (steps.drop (s.controller.step + 1)) step).overflow.leave)
    {s : Scene γ β} (hs : Way s) (hle : s.controller.step ≤ steps.length) :
    Rest (play (steps.drop s.controller.step) s) := by
  -- on the steps ahead, of which the scene tells by its index how many there are
  generalize hrest : steps.drop s.controller.step = rest
  induction rest generalizing s with
  | nil =>
    have := List.drop_eq_nil_iff.1 hrest
    exact finish s hs (by omega)
  | cons step rest ih =>
    obtain ⟨hstep, rfl⟩ := Playhead.drop_eq_cons hrest
    have hlt : s.controller.step < steps.length := (List.getElem?_eq_some_iff.1 hstep).1
    have hreach := step_reach s (steps.drop (s.controller.step + 1)) step
    rw [play_cons]
    split
    · next hi =>
      have hnext : ((s.reach (steps.drop (s.controller.step + 1)) step).control (·.next)).controller.step =
          s.controller.step + 1 := congrArg (· + 1) hreach
      exact ih (instant s step hs hstep hi) (by rw [hnext]; exact hlt) (by rw [hnext])
    · next hi =>
      split
      · next hv => exact vanish s step hs hstep hi hv
      · next hv =>
        split
        · next hd =>
          have hleave : (s.reach (steps.drop (s.controller.step + 1)) step).overflow.leave.controller.step =
              s.controller.step + 1 := congrArg (· + 1) ((step_overflow _).trans hreach)
          exact ih (leave s step hs hstep hi hv hd) (by rw [hleave]; exact hlt) (by rw [hleave])
        · next hd => exact stay s step hs hstep hi hv hd

/-! ## What is kept wherever playback stands -/

/-- **What every stage of an update keeps**: handing over what has been put off, the call for the time that passes,
motions and the clock, and the steps that are reached and left. -/
structure Kept (P : Scene γ β → Prop) : Prop where
  flush : ∀ s, P s → P s.flush
  tick : ∀ s delta, P s → P (s.tick delta)
  drift : ∀ s dt, P s → P (s.drift dt)
  follow : ∀ s time, P s → P (s.follow time)
  clock : ∀ s elapsed, P s → P (s.control fun c => { c with elapsed := elapsed })
  reach : ∀ s rest step, P s → P (s.reach rest step)
  next : ∀ s, P s → P (s.control (·.next))
  leave : ∀ s, P s → P s.leave

/-- **What every stage of an update keeps**, if velocity and acceleration are applied in no mode but theirs. -/
structure KeptInModes (P : Scene γ β → Prop) : Prop where
  flush : ∀ s, P s → P s.flush
  tick : ∀ s delta, P s → P (s.tick delta)
  drift : ∀ s dt, s.controller.mode = .move ∨ s.controller.mode = .manual → P s → P (s.drift dt)
  follow : ∀ s time, P s → P (s.follow time)
  clock : ∀ s elapsed, P s → P (s.control fun c => { c with elapsed := elapsed })
  reach : ∀ s rest step, P s → P (s.reach rest step)
  next : ∀ s, P s → P (s.control (·.next))
  leave : ∀ s, P s → P s.leave

variable {P : Scene γ β → Prop} {s : Scene γ β}

theorem Kept.inModes (h : Kept P) : KeptInModes P where
  flush := h.flush
  tick := h.tick
  drift s dt _ := h.drift s dt
  follow := h.follow
  clock := h.clock
  reach := h.reach
  next := h.next
  leave := h.leave

theorem KeptInModes.advance (h : KeptInModes P) (start dt : Scalar) (hs : P s) : P (s.advance start dt) := by
  unfold Scene.advance
  split
  · next hmove => exact h.drift s dt (.inl hmove) hs
  · exact h.follow s _ hs
  · exact hs
  · exact hs

theorem KeptInModes.play (h : KeptInModes P) (steps : List Step) (hs : P s) : P (play steps s) := by
  induction steps generalizing s with
  | nil => exact h.advance _ _ hs
  | cons step rest ih =>
    have hreach := h.reach s rest step hs
    have hover : P (s.reach rest step).overflow := h.advance _ _ hreach
    rw [play_cons]
    split
    · exact ih (h.next _ hreach)
    · split
      · exact hreach
      · split
        · exact ih (h.leave _ hover)
        · exact hover

/-- What the clock shows may depend on what it has shown. -/
theorem KeptInModes.wind (h : KeptInModes P) (f : Controller γ → Scalar) (hs : P s) :
    P (s.control fun c => { c with elapsed := f c }) := h.clock s (f s.controller) hs

theorem KeptInModes.proceed (h : KeptInModes P) (delta : Scalar) (hs : P s) : P (s.proceed delta) :=
  h.wind (fun c => c.elapsed + delta) (h.advance _ _ hs)

theorem KeptInModes.playOn (h : KeptInModes P) (delta : Scalar) (steps : Sequence) (hs : P s) :
    P (s.playOn delta steps) := by
  have hproceed := h.proceed delta hs
  unfold Scene.playOn
  dsimp only
  split
  · exact h.play _ (h.leave _ hproceed)
  · exact hproceed

theorem KeptInModes.driveManually (h : KeptInModes P) (delta : Scalar) (hmode : s.controller.mode = .manual)
    (hs : P s) : P (s.driveManually delta) :=
  h.wind (fun c => Scalar.min (c.elapsed + delta) (Scalar.max c.target 0)) (h.drift s delta (.inr hmode) hs)

/-- **An update keeps** what every stage of it keeps. -/
theorem KeptInModes.update (h : KeptInModes P) (delta : Scalar) (hs : P s) : P (s.update delta) := by
  have hready : P (s.flush.tick delta) := h.tick _ delta (h.flush s hs)
  unfold Scene.update
  dsimp only
  split
  · next hmanual => exact h.driveManually delta hmanual hready
  · exact hready
  all_goals
    split
    · exact h.playOn delta _ hready
    · exact hready

theorem KeptInModes.updates (h : KeptInModes P) (deltas : List Scalar) (hs : P s) :
    P (deltas.foldl Scene.update s) := by
  induction deltas generalizing s with
  | nil => exact hs
  | cons delta deltas ih => exact ih (h.update delta hs)

theorem Kept.update (h : Kept P) (delta : Scalar) (hs : P s) : P (s.update delta) := h.inModes.update delta hs

theorem Kept.updates (h : Kept P) (deltas : List Scalar) (hs : P s) : P (deltas.foldl Scene.update s) :=
  h.inModes.updates deltas hs

end MotionScript.Scene
