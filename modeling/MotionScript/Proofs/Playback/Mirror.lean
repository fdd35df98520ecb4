import MotionScript.Generator.Stock
import MotionScript.Proofs.Playback.Frozen
import MotionScript.Proofs.Scalar.Sign
import MotionScript.World.Entity

/-!
# Sprites beside bodies

A sprite that has all its parts takes the same way as a body without any. It differs in how its depth is written, and
in that it remembers the animation it had at first.

* `Sprite.Mirrors`, `Scene.Mirrors`: a sprite looks as a body says, and playback has come as far with both.
* `Scene.Mirrors.update`: an update leaves it at that.
-/

namespace MotionScript

/-! ## Looks -/

/-- **A sprite mirrors a body.** The animation of the sprite is the one that the body has been given last, or else the
one with which the sprite has started. The depth is no negative zero: such a one stays with a sprite, but not with a
body. -/
structure Sprite.Mirrors (start : ℕ) (sprite : Sprite) (body : Body) : Prop where
  place : sprite.position = body.position.plane
  depth : sprite.depth = some body.position.z
  rotation : sprite.rotation = some body.rotation
  animation : sprite.animation.map (·.sequence) = some (body.animation.getD start)
  plain : body.position.z ≠ -0

namespace Sprite.Mirrors

variable {start : ℕ} {sprite : Sprite} {body : Body}

theorem position_eq (h : sprite.Mirrors start body) : Target.position sprite = Target.position body := by
  show Vec3.ofPlane sprite.position (sprite.depth.getD 0) = body.position
  rw [h.place, h.depth]
  rfl

/-- Motion does not change the depth. -/
theorem moveTo (h : sprite.Mirrors start body) {p : Vec3} (hz : p.z = body.position.z) :
    Sprite.Mirrors start (Target.moveTo sprite p) (Target.moveTo body p) where
  place := rfl
  depth := by
    show (sprite.depth.map fun d => if d == p.z then d else p.z) = some p.z
    rw [h.depth, hz]
    simp
  rotation := h.rotation
  animation := h.animation
  plain := by
    show p.z ≠ -0
    rw [hz]
    exact h.plain

theorem turnTo (h : sprite.Mirrors start body) (degrees : Scalar) :
    Sprite.Mirrors start (Target.turnTo sprite degrees) (Target.turnTo body degrees) where
  place := h.place
  depth := h.depth
  rotation := by
    show (sprite.rotation.map fun _ => degrees) = some degrees
    rw [h.rotation]
    rfl
  animation := h.animation
  plain := h.plain

theorem animate (h : sprite.Mirrors start body) (n : ℕ) :
    Sprite.Mirrors start (Target.animate sprite n) (Target.animate body n) where
  place := h.place
  depth := h.depth
  rotation := h.rotation
  animation := by
    obtain ⟨a, ha, -⟩ := Option.map_eq_some_iff.1 h.animation
    show ((sprite.animation.map (·.switchTo n)).map (·.sequence)) = some n
    rw [ha, Option.map_some, Option.map_some]
    unfold Animation.switchTo
    split
    · next hn => rw [hn]
    · rfl
  plain := h.plain

end Sprite.Mirrors

namespace Scene

/-- **Playback has come as far with a sprite as with a body.** The commands that the generator has sent are the same,
but for those that the scene of the body has had before. -/
structure Mirrors (start : ℕ) (before : List Command) (s : Scene Stock Sprite) (t : Scene Stock Body) : Prop where
  controller : s.controller = t.controller
  body : s.body.Mirrors start t.body
  journal : t.journal.filterMap Event.command? = s.journal.filterMap Event.command? ++ before

namespace Mirrors

variable {start : ℕ} {before : List Command} {s : Scene Stock Sprite} {t : Scene Stock Body}

theorem note (h : s.Mirrors start before t) {e : Event Sprite} {e' : Event Body} (he : e.command? = e'.command?) :
    (s.note e).Mirrors start before (t.note e') where
  controller := h.controller
  body := h.body
  journal := by
    show (e' :: t.journal).filterMap _ = (e :: s.journal).filterMap _ ++ before
    rw [List.filterMap_cons, List.filterMap_cons, he, h.journal]
    cases e'.command? <;> rfl

theorem control (h : s.Mirrors start before t) (f : Controller Stock → Controller Stock) :
    (s.control f).Mirrors start before (t.control f) where
  controller := congrArg f h.controller
  body := h.body
  journal := h.journal

theorem switch (h : s.Mirrors start before t) (n : ℕ) : (s.switch n).Mirrors start before (t.switch n) := by
  have hbody : Mirrors start before { s with body := Target.animate s.body n } { t with body := Target.animate t.body n } :=
    ⟨h.controller, h.body.animate n, h.journal⟩
  unfold Scene.switch
  exact hbody.note rfl

/-- A stock generator cannot tell a sprite from a body. -/
theorem callGenerator (h : s.Mirrors start before t) (delta : Scalar) :
    (s.callGenerator delta).Mirrors start before (t.callGenerator delta) := by
  unfold Scene.callGenerator
  rw [h.controller]
  cases t.controller.generator with
  | none => exact h
  | some g =>
    dsimp only [Generator.call]
    rw [h.body.position_eq]
    refine ⟨rfl, h.body, ?_⟩
    rw [List.filterMap_append, List.filterMap_append, List.filterMap_cons_none rfl, List.filterMap_cons_none rfl,
      h.journal, List.append_assoc, ← List.map_reverse, ← List.map_reverse, List.filterMap_map, List.filterMap_map]
    rfl

theorem face (h : s.Mirrors start before t) (direction : Vec2) :
    (s.face direction).Mirrors start before (t.face direction) := by
  unfold Scene.face
  rw [h.controller]
  split
  · exact ⟨rfl, h.body.turnTo direction.angle, h.journal⟩
  · exact h

theorem drift (h : s.Mirrors start before t) (dt : Scalar) : (s.drift dt).Mirrors start before (t.drift dt) := by
  unfold Scene.drift
  rw [h.controller, h.body.position_eq]
  split
  · exact h
  · -- nothing is added to the depth
    have hz : (Target.position t.body + Vec3.ofPlane (t.controller.velocity * dt) 0).z = t.body.position.z :=
      Scalar.add_zero_of_ne h.body.plain
    have hmoved : Mirrors start before
        { controller := { t.controller with velocity := t.controller.velocity + t.controller.acceleration * dt }
          body := Target.moveTo s.body (Target.position t.body + .ofPlane (t.controller.velocity * dt) 0)
          journal := .drifted t.controller.step dt :: s.journal }
        { controller := { t.controller with velocity := t.controller.velocity + t.controller.acceleration * dt }
          body := Target.moveTo t.body (Target.position t.body + .ofPlane (t.controller.velocity * dt) 0)
          journal := .drifted t.controller.step dt :: t.journal } :=
      ⟨rfl, h.body.moveTo hz, h.journal⟩
    dsimp only
    split
    · exact hmoved
    · exact hmoved.face _

theorem follow (h : s.Mirrors start before t) (time : Scalar) :
    (s.follow time).Mirrors start before (t.follow time) := by
  obtain ⟨c, sprite, journal⟩ := s
  obtain ⟨c', body, journal'⟩ := t
  obtain rfl : c = c' := h.controller
  have hposition : Target.position sprite = Target.position body := h.body.position_eq
  have hplaced (p : Vec2) : Mirrors start before
      ⟨c, Target.moveTo sprite (.ofPlane p (Target.position body).z), journal⟩
      ⟨c, Target.moveTo body (.ofPlane p (Target.position body).z), journal'⟩ :=
    ⟨rfl, h.body.moveTo rfl, h.journal⟩
  unfold Scene.follow
  dsimp only
  rw [hposition]
  cases c.path.position? time with
  | none =>
    dsimp only
    cases c.path.heading? time with
    | none => exact h.note rfl
    | some direction => exact (h.face direction).note rfl
  | some p =>
    dsimp only
    cases c.path.heading? time with
    | none => exact (hplaced p).note rfl
    | some direction => exact ((hplaced p).face direction).note rfl

theorem advance (h : s.Mirrors start before t) (since dt : Scalar) :
    (s.advance since dt).Mirrors start before (t.advance since dt) := by
  unfold Scene.advance
  rw [h.controller]
  cases t.controller.mode with
  | move => exact h.drift dt
  | path => exact h.follow _
  | vanished => exact h
  | manual => exact h

theorem overflow (h : s.Mirrors start before t) : s.overflow.Mirrors start before t.overflow := by
  unfold Scene.overflow
  rw [h.controller]
  exact h.advance _ _

/-! ### Steps -/

theorem deliver (h : s.Mirrors start before t) (step : Step) :
    (s.deliver step).Mirrors start before (t.deliver step) := by
  unfold Scene.deliver
  rw [h.controller]
  split
  · exact h.switch _
  · split
    · exact (h.control _).callGenerator 0
    · exact h
  · exact h

theorem reach (h : s.Mirrors start before t) (rest : List Step) (step : Step) :
    (s.reach rest step).Mirrors start before (t.reach rest step) := by
  have hnote : (s.note (.reached s.controller.step step)).Mirrors start before
      (t.note (.reached t.controller.step step)) := h.note rfl
  exact (hnote.control _).deliver step

theorem leave (h : s.Mirrors start before t) : s.leave.Mirrors start before t.leave := by
  have hnote : (s.note (.left s.controller.step)).Mirrors start before (t.note (.left t.controller.step)) :=
    h.note rfl
  exact hnote.control _

theorem play (steps : List Step) (h : s.Mirrors start before t) :
    (Scene.play steps s).Mirrors start before (Scene.play steps t) := by
  induction steps generalizing s t with
  | nil => exact h.overflow
  | cons step rest ih =>
    have hreach := h.reach rest step
    have hover := hreach.overflow
    rw [play_cons, play_cons, hreach.controller, hover.controller]
    split
    · exact ih (hreach.control _)
    · split
      · exact hreach
      · split
        · exact ih hover.leave
        · exact hover

/-! ### Updates -/

theorem flush (h : s.Mirrors start before t) : s.flush.Mirrors start before t.flush := by
  have hswitched (n : ℕ) := (h.control fun c => { c with pendingAnimation := none }).switch n
  unfold Scene.flush
  rw [h.controller]
  cases t.controller.pendingAnimation with
  | none =>
    dsimp only
    rw [h.controller]
    split
    · exact (h.control _).callGenerator 0
    · exact h
  | some n =>
    dsimp only
    rw [(hswitched n).controller]
    split
    · exact ((hswitched n).control _).callGenerator 0
    · exact hswitched n

theorem tick (h : s.Mirrors start before t) (delta : Scalar) :
    (s.tick delta).Mirrors start before (t.tick delta) := by
  unfold Scene.tick
  rw [h.controller]
  split
  · exact h.callGenerator delta
  · exact h

theorem proceed (h : s.Mirrors start before t) (delta : Scalar) :
    (s.proceed delta).Mirrors start before (t.proceed delta) := by
  unfold Scene.proceed
  rw [h.controller]
  exact (h.advance _ _).control _

theorem playOn (h : s.Mirrors start before t) (delta : Scalar) (steps : Sequence) :
    (s.playOn delta steps).Mirrors start before (t.playOn delta steps) := by
  have hproceed := h.proceed delta
  unfold Scene.playOn
  dsimp only
  rw [hproceed.controller]
  split
  · exact hproceed.leave.play _
  · exact hproceed

theorem driveManually (h : s.Mirrors start before t) (delta : Scalar) :
    (s.driveManually delta).Mirrors start before (t.driveManually delta) :=
  (h.drift delta).control _

/-- **An update** does the same to both. -/
theorem update (h : s.Mirrors start before t) (delta : Scalar) :
    (s.update delta).Mirrors start before (t.update delta) := by
  have hready := (h.flush).tick delta
  unfold Scene.update
  dsimp only
  rw [hready.controller]
  cases (t.flush.tick delta).controller.mode with
  | manual => exact hready.driveManually delta
  | vanished => exact hready
  | move | path =>
    cases (t.flush.tick delta).controller.steps? with
    | none => exact hready
    | some steps => exact hready.playOn delta steps

end Mirrors

end Scene

end MotionScript
