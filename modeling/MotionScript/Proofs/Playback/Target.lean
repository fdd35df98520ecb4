import MotionScript.Proofs.Playback.Playhead
import MotionScript.World.Entity

/-!
# What playback does to an entity

* `LawfulTarget`: an entity that goes where it is put, and neither moves when it is turned nor otherwise.
* `Scene.Alike`: two scenes with an entity at the same place, turned the same way.
* `Scene.plane_follow`: where a path puts an entity.
* `Scene.flush_of_none`, `Scene.tick_of_none`: without a generator, what precedes playback in an update
  concerns the animation alone.
* `Scene.generator_update`, `Controller.generator_bind`: a controller without a generator stays so.
-/

namespace MotionScript

/-- **An entity that does as it is told.** Its depth is its own affair. -/
class LawfulTarget (β : Type) [Target β] : Prop where
  plane_moveTo (b : β) (p : Vec3) : (Target.position (Target.moveTo b p)).plane = p.plane
  rotation_moveTo (b : β) (p : Vec3) : Target.rotation (Target.moveTo b p) = Target.rotation b
  position_turnTo (b : β) (degrees : Scalar) : Target.position (Target.turnTo b degrees) = Target.position b
  position_animate (b : β) (n : ℕ) : Target.position (Target.animate b n) = Target.position b
  rotation_animate (b : β) (n : ℕ) : Target.rotation (Target.animate b n) = Target.rotation b

instance : LawfulTarget Body where
  plane_moveTo _ _ := rfl
  rotation_moveTo _ _ := rfl
  position_turnTo _ _ := rfl
  position_animate _ _ := rfl
  rotation_animate _ _ := rfl

instance : LawfulTarget Sprite where
  plane_moveTo _ _ := rfl
  rotation_moveTo _ _ := rfl
  position_turnTo _ _ := rfl
  position_animate _ _ := rfl
  rotation_animate _ _ := rfl

variable {γ β : Type}

namespace Controller

theorem generator_enter (rest : List Step) (c : Controller γ) (step : Step) :
    (c.enter rest step).generator = c.generator := by
  cases step <;> rfl

theorem generator_defer (c : Controller γ) (step : Step) : (c.defer step).generator = c.generator := by
  unfold defer
  split
  · rfl
  · split <;> rfl
  · rfl

theorem generator_scan (steps : List Step) (c : Controller γ) : (scan steps c).generator = c.generator := by
  induction steps generalizing c with
  | nil => rfl
  | cons step rest ih =>
    have hreach : ((c.enter rest step).defer step).generator = c.generator := by
      rw [generator_defer, generator_enter]
    unfold scan
    dsimp only
    split
    · exact (ih _).trans hreach
    · exact hreach

/-- No binding brings a generator. -/
theorem generator_bind (c : Controller γ) (script : ScriptSet) (i : ℕ) :
    (c.bind script i).generator = c.generator := by
  unfold bind
  split
  · unfold restart
    split
    · exact generator_scan _ _
    · rfl
  · rfl

end Controller

namespace Scene

/-- The entity is at the same place, turned the same way. -/
structure Alike [Target β] (s t : Scene γ β) : Prop where
  position : Target.position s.body = Target.position t.body
  rotation : Target.rotation s.body = Target.rotation t.body

theorem Alike.rfl [Target β] {s : Scene γ β} : s.Alike s := ⟨Eq.refl _, Eq.refl _⟩

theorem Alike.trans [Target β] {s t u : Scene γ β} (h : s.Alike t) (h' : t.Alike u) : s.Alike u :=
  ⟨h.position.trans h'.position, h.rotation.trans h'.rotation⟩

theorem body_note (s : Scene γ β) (e : Event β) : (s.note e).body = s.body := rfl

theorem body_control (s : Scene γ β) (f : Controller γ → Controller γ) : (s.control f).body = s.body := rfl

theorem position_face [Target β] [LawfulTarget β] (s : Scene γ β) (direction : Vec2) :
    Target.position (s.face direction).body = Target.position s.body := by
  unfold face
  split
  · exact LawfulTarget.position_turnTo _ _
  · rfl

/-- A path puts the entity where it is at the time. -/
theorem plane_follow [Target β] [LawfulTarget β] (s : Scene γ β) {time : Scalar} {p : Vec2}
    (h : s.controller.path.position? time = some p) :
    (Target.position (s.follow time).body).plane = p := by
  unfold follow
  simp only [h]
  rw [body_note]
  split
  · rw [position_face]
    exact LawfulTarget.plane_moveTo _ _
  · exact LawfulTarget.plane_moveTo _ _

theorem callGenerator_of_none [Generator γ β] {s : Scene γ β} (h : s.controller.generator = none)
    (delta : Scalar) : s.callGenerator delta = s := by
  unfold callGenerator
  rw [h]

theorem tick_of_none [Generator γ β] {s : Scene γ β} (h : s.controller.generator = none) (delta : Scalar) :
    s.tick delta = s := by
  unfold tick
  rw [callGenerator_of_none h, ite_self]

/-- Without a generator what a binding has put off concerns the animation alone. -/
theorem flush_of_none [Target β] [LawfulTarget β] [Generator γ β] {s : Scene γ β}
    (h : s.controller.generator = none) : s.flush.controller.generator = none ∧ s.flush.Alike s := by
  obtain ⟨t, ht, hflush⟩ := flush_cases s
  have hswitch : t.controller.generator = none ∧ t.Alike s := by
    rcases ht with ⟨-, rfl⟩ | ⟨n, -, rfl⟩
    · exact ⟨h, .rfl⟩
    · exact ⟨h, LawfulTarget.position_animate _ _, LawfulTarget.rotation_animate _ _⟩
  rcases hflush with ⟨-, hflush⟩ | ⟨-, hflush⟩
  · rw [hflush]
    exact hswitch
  · rw [hflush, callGenerator_of_none]
    · exact ⟨hswitch.1, hswitch.2.position, hswitch.2.rotation⟩
    · exact hswitch.1

theorem drift_of_le [Target β] (s : Scene γ β) {dt : Scalar} (h : dt ≤ 0) : s.drift dt = s := by
  unfold drift
  exact if_pos h

theorem generator_drift [Target β] (s : Scene γ β) (dt : Scalar) :
    (s.drift dt).controller.generator = s.controller.generator := by
  unfold drift
  split
  · rfl
  · dsimp only
    split
    · rfl
    · rw [controller_face]

theorem generator_advance [Target β] (s : Scene γ β) (start dt : Scalar) :
    (s.advance start dt).controller.generator = s.controller.generator := by
  unfold advance
  split
  · exact generator_drift s dt
  · rw [controller_follow]
  · rfl
  · rfl

section Unattended

variable [Target β] [Generator γ β] {s : Scene γ β}

theorem generator_reach (h : s.controller.generator = none) (rest : List Step) (step : Step) :
    (s.reach rest step).controller.generator = none := by
  have henter : (s.controller.enter rest step).generator = none := (Controller.generator_enter _ _ _).trans h
  unfold reach deliver
  split
  · exact henter
  · split
    · next hsome =>
      exact absurd hsome (by rw [controller_control, controller_note, henter]; exact Bool.false_ne_true)
    · exact henter
  · exact henter

theorem generator_play (steps : List Step) (h : s.controller.generator = none) :
    (play steps s).controller.generator = none := by
  induction steps generalizing s with
  | nil => exact (generator_advance s _ _).trans h
  | cons step rest ih =>
    have hreach := generator_reach h rest step
    have hover : (s.reach rest step).overflow.controller.generator = none :=
      (generator_advance (s.reach rest step) _ _).trans hreach
    unfold play
    dsimp only
    split
    · exact ih hreach
    · split
      · exact hreach
      · split
        · exact ih hover
        · exact hover

/-- No update brings a generator. -/
theorem generator_update [LawfulTarget β] (h : s.controller.generator = none) (delta : Scalar) :
    (s.update delta).controller.generator = none := by
  have hf := (flush_of_none h).1
  unfold update
  dsimp only
  rw [tick_of_none hf]
  split
  · exact (generator_drift s.flush delta).trans hf
  · exact hf
  all_goals
    split
    · next steps _ =>
      have hp : (s.flush.proceed delta).controller.generator = none := (generator_advance s.flush _ _).trans hf
      unfold playOn
      dsimp only
      split
      · exact generator_play _ hp
      · exact hp
    · exact hf

theorem generator_updates [LawfulTarget β] (h : s.controller.generator = none) (deltas : List Scalar) :
    (deltas.foldl Scene.update s).controller.generator = none := by
  induction deltas generalizing s with
  | nil => exact h
  | cons delta deltas ih => exact ih (generator_update h delta)

end Unattended

end Scene

end MotionScript
