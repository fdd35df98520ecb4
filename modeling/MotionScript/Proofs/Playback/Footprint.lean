import MotionScript.Generator.Stock
import MotionScript.Proofs.Playback.Effects

/-!
# What a run of updates touches

The steps that updates reach switch the animation and set the motion of an entity, and so does what its binding has put
off until the first of them. Nothing else does.

* `Controller.awaited`: the animation that waits for an entity after operations of an owner.
* `Scene.updates_reach`: the steps that a run reaches, and the animations to which it switches.
* `Controller.update_touches_only`: what a run of updates changes, and what it leaves alone.
-/

namespace MotionScript

variable {γ β : Type}

/-! ## The animation that waits -/

/-- The animation to which the last step of a list switches that switches to one. -/
def lastAnimation (steps : List Step) : Option ℕ := (steps.filterMap Step.animation?).getLast?

theorem lastAnimation_cons (step : Step) (steps : List Step) :
    lastAnimation (step :: steps) = (lastAnimation steps).or step.animation? := by
  unfold lastAnimation
  cases h : step.animation? with
  | none => simp [h]
  | some n => cases h' : steps.filterMap Step.animation? <;> simp [h, h', List.getLast?_cons]

namespace Controller

theorem pendingAnimation_defer (c : Controller γ) (step : Step) :
    (c.defer step).pendingAnimation = step.animation?.or c.pendingAnimation := by
  unfold defer
  split
  · next h => simp [h]
  · next h =>
    split
    · simp [h]
    · simp [h]
  · next h => simp [h]

/-- Of the animations for which a binding asks, the last one waits. -/
theorem pendingAnimation_scan (steps : List Step) (c : Controller γ) :
    (scan steps c).pendingAnimation = (lastAnimation (opening steps)).or c.pendingAnimation := by
  induction steps generalizing c with
  | nil => rfl
  | cons step rest ih =>
    have henter : (c.enter rest step).pendingAnimation = c.pendingAnimation := by cases step <;> rfl
    have hreach : ((c.enter rest step).defer step).pendingAnimation = step.animation?.or c.pendingAnimation := by
      rw [pendingAnimation_defer, henter]
    unfold scan opening
    dsimp only
    split
    · have hnext : ((c.enter rest step).defer step).next.pendingAnimation = step.animation?.or c.pendingAnimation :=
        hreach
      rw [ih, hnext, lastAnimation_cons, Option.or_assoc]
    · rw [hreach, lastAnimation_cons]
      rfl

theorem pendingAnimation_bind (c : Controller γ) {script : ScriptSet} {i : ℕ} {steps : Sequence}
    (h : script.sequence? i = some steps) : (c.bind script i).pendingAnimation = lastAnimation (opening steps) := by
  have hi : i < script.sequences.length := (List.getElem?_eq_some_iff.1 h).1
  have hs : steps? { c with script := some script, sequence := i } = some steps := h
  unfold bind restart
  rw [if_pos hi, hs]
  exact (pendingAnimation_scan steps _).trans (Option.or_none)

variable [Target β] [Generator γ β]

/-- The animation that waits after an operation. A binding puts off the last one of the steps that it reaches, and an
update hands over what waits. -/
def awaits (c : Controller γ) (waiting : Option ℕ) (op : Operation γ β) : Option ℕ :=
  match c.binding? op, op with
  | some _, _ => lastAnimation (c.reachedBy op)
  | none, .update _ _ => none
  | none, _ => waiting

/-- The animation that waits after operations. -/
def awaited (c : Controller γ) (waiting : Option ℕ) : List (Operation γ β) → Option ℕ
  | [] => waiting
  | op :: ops => awaited (c.perform op) (c.awaits waiting op) ops

theorem pendingAnimation_perform (c : Controller γ) (op : Operation γ β) :
    (c.perform op).pendingAnimation = c.awaits c.pendingAnimation op := by
  rcases perform_cases c op with
    ⟨script, i, steps, hbinding, hs, hperform, hreached⟩ | ⟨delta, body, rfl⟩ | ⟨hbinding, -⟩
  · unfold awaits
    rw [hbinding, hperform, hreached]
    exact pendingAnimation_bind c hs
  · exact (Scene.handed_update _ delta).1
  · -- a binding of a sequence that is not there is none
    cases op with
    | bind script i =>
      have hi : ¬i < script.sequences.length := by
        intro hi
        rw [binding?, if_pos hi] at hbinding
        cases hbinding
      have hperform : c.perform (.bind script i : Operation γ β) = c := if_neg hi
      unfold awaits
      rw [hbinding, hperform]
    | selectSequence i =>
      have hperform : c.perform (.selectSequence i : Operation γ β) = c := by
        cases hscript : c.script with
        | none => exact selectSequence_of_none c hscript i
        | some script =>
          have hi : ¬i < script.sequences.length := by
            intro hi
            rw [binding?, hscript, Option.bind_some, if_pos hi] at hbinding
            cases hbinding
          exact (selectSequence_eq_bind c hscript i).trans (if_neg hi)
      unfold awaits
      rw [hbinding, hperform]
    | update delta body => exact (Scene.handed_update _ delta).1
    | _ => rfl

theorem pendingAnimation_operations (ops : List (Operation γ β)) (c : Controller γ) :
    (ops.foldl perform c).pendingAnimation = c.awaited c.pendingAnimation ops := by
  induction ops generalizing c with
  | nil => rfl
  | cons op ops ih => rw [List.foldl_cons, ih, pendingAnimation_perform, awaited]

end Controller

/-! ## Runs -/

namespace Scene

variable [Target β] [Generator γ β]

/-- **The steps that a run of updates reaches** are those that follow the current one up to the new current one. They
switch the animation, and before them so does what has been put off. -/
theorem updates_reach (deltas : List Scalar) (s : Scene γ β) :
    let t := deltas.foldl update s
    let executed := stretch (s.controller.steps?.getD []) s.controller.step t.controller.step
    s.controller.step ≤ t.controller.step ∧ t.reached = s.reached ++ executed ∧
      t.switches = s.switches ++ ((if deltas = [] then [] else s.controller.pendingAnimation.toList) ++
        executed.filterMap Step.animation?) := by
  induction deltas generalizing s with
  | nil => simp [stretch_self]
  | cons delta deltas ih =>
    obtain ⟨hle, hreaches⟩ := reaches_update s delta
    obtain ⟨hreached, hswitches, -⟩ := reports_flush_tick s delta
    obtain ⟨hle', hreached', hswitches'⟩ := ih (s.update delta)
    have hsteps : (s.update delta).controller.steps? = s.controller.steps? :=
      (congrArg Playhead.steps? (playhead_update s delta)).trans (Playhead.steps?_update s.controller.playhead delta)
    have hwaits : (s.update delta).controller.pendingAnimation = none := (handed_update s delta).1
    rw [hsteps] at hreached' hswitches'
    dsimp only
    rw [List.foldl_cons, ← stretch_append _ hle hle', List.filterMap_append, if_neg (List.cons_ne_nil _ _)]
    refine ⟨hle.trans hle', ?_, ?_⟩
    · rw [hreached', hreaches.reached, hreached, List.append_assoc]
    · rw [hswitches', hwaits, hreaches.switches, hswitches]
      simp

end Scene

namespace Controller

variable [Target β] [LawfulTarget β] [LevelTarget β] [AnimatedTarget β] [Generator γ β]

/-- **Updates touch no more than they may.** Let a scene come from any operations of an owner, with a generator that
writes to no entity, and let any times pass. Then script, sequence, settings of curves and whether the rotation follows
stay, and so does the depth of the entity, and its rotation unless it follows. The animation is switched by the steps
that are reached, and before them by what the last binding has put off, if no update has handed it over before, and the
last of these plays. The velocity and the acceleration are what the steps that are reached have made of them, and the
strides in the modes in which there are strides. -/
theorem update_touches_only (ops : List (Operation γ β)) (body : β) (deltas : List Scalar)
    (hlook : ∀ g, (after ops : Controller γ).generator = some g → Onlooker β g) :
    let c : Controller γ := after ops
    let t : Scene γ β := deltas.foldl Scene.update { controller := c, body }
    let executed := stretch (c.steps?.getD []) c.step t.controller.step
    (t.controller.script = c.script ∧ t.controller.sequence = c.sequence ∧ t.controller.curve = c.curve ∧
        t.controller.faceHeading = c.faceHeading) ∧
      Scalar.SameNumber (Target.position t.body).z (Target.position body).z ∧
      (c.faceHeading = false → Target.rotation t.body = Target.rotation body) ∧
      (t.reached = executed ∧
        t.switches = (if deltas = [] then [] else ((manual : Controller γ).awaited none ops).toList) ++
          executed.filterMap Step.animation? ∧
        (AnimatedTarget.display t.body).current = (AnimatedTarget.display body).after t.switches) ∧
      t.events.foldlM Drive.hear? c.drive = some t.controller.drive := by
  intro c t executed
  obtain ⟨l, heffects⟩ := Scene.Undisturbed.effects_updates (s := { controller := c, body }) hlook deltas
  obtain ⟨-, hreached, hswitches⟩ := Scene.updates_reach deltas { controller := c, body }
  have hevents : t.events = l := heffects.events
  have hwaits : c.pendingAnimation = (manual : Controller γ).awaited none ops := pendingAnimation_operations ops manual
  refine ⟨⟨congrArg Setup.script heffects.setup, congrArg Setup.sequence heffects.setup,
    congrArg Setup.curve heffects.setup, congrArg Setup.faceHeading heffects.setup⟩, heffects.depth,
    heffects.rotation, ⟨hreached, ?_, ?_⟩, ?_⟩
  · rw [← hwaits]
    exact hswitches
  · have hdisplay := heffects.display
    rw [← hevents] at hdisplay
    exact (congrArg Display.current hdisplay).trans (Display.current_foldl_switchTo _ _)
  · rw [hevents]
    exact heffects.drive

theorem update_touches_only_after_signal :
    let script : ScriptSet := ⟨"signals",
      [[.animate 3, .move 0 10, .wait 0.5, .accelerate 90 2, .animate (-1), .animate 5, .wait 1]]⟩
    let ops : List (Operation Stock Body) := [.setGenerator (some (.singleShot none)), .bind script 0]
    let body : Body := { position := ⟨1, 2, 0 / 0⟩, rotation := 45 }
    let deltas : List Scalar := [0.25, 0.5]
    let t : Scene Stock Body := deltas.foldl Scene.update { controller := after ops, body }
    t.controller.sequence = 0 ∧ Scalar.SameNumber (Target.position t.body).z (Target.position body).z ∧
      Target.rotation t.body = 45 ∧ t.switches = [3, 5] ∧ (AnimatedTarget.display t.body).current = some 5 ∧
      t.events.foldlM Drive.hear? (after ops).drive = some t.controller.drive := by
  intro script ops body deltas t
  have hlook : ∀ g, (after ops).generator = some g → Onlooker Body g := fun _ _ _ _ _ => rfl
  have hfirst : (after ops).sequence = 0 := by decide +kernel
  have hfree : (after ops).faceHeading = false := by decide +kernel
  have hplayed : t.switches = [3, 5] := by decide +kernel
  have hlast : (AnimatedTarget.display body).after [3, 5] = some 5 := rfl
  have ht : t = deltas.foldl Scene.update { controller := after ops, body } := rfl
  obtain ⟨⟨-, hsequence, -, -⟩, hdepth, hrotation, ⟨-, -, hanimation⟩, hdrive⟩ :=
    update_touches_only ops body deltas hlook
  clear_value t
  rw [← ht] at hsequence hdepth hrotation hanimation hdrive
  rw [hplayed, hlast] at hanimation
  exact ⟨hsequence.trans hfirst, hdepth, hrotation hfree, hplayed, hanimation, hdrive⟩

end Controller

end MotionScript
