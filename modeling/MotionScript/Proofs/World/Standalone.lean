import MotionScript.Proofs.Playback.Mirror
import MotionScript.Proofs.Scalar.Order
import MotionScript.Proofs.World.Independence

/-!
# Entities on their own

A world updates an entity as one updates a body without any world, by the positive times of its frames. What the world
adds is that it takes the entity away.

* `Entity.Mirrors`: an entity has come as far as a scene with a body.
* `World.InStep`: so has a world, which may have taken the entity away.
* `World.InStep.frame_of_le`, `World.InStep.frame_of_not_le`: a frame.
* `World.InStep.after`: any number of frames.
-/

namespace MotionScript

/-! ## One update -/

/-- **An entity mirrors a scene**: its sprite mirrors the body, and it has the same controller. Its lifetime is not
limited. -/
structure Entity.Mirrors (start : ℕ) (e : Entity Stock) (t : Scene Stock Body) : Prop where
  controller : e.controller = t.controller
  sprite : e.sprite.Mirrors start t.body
  lasting : e.lifetime = none

namespace Entity.Mirrors

variable {start : ℕ} {e : Entity Stock} {t : Scene Stock Body}

/-- An update of the entity and one of the scene. -/
theorem act (h : e.Mirrors start t) (delta : Scalar) :
    (e.act delta).entity.Mirrors start (t.update delta) ∧
      (t.update delta).sent = t.sent ++ (e.act delta).commands ∧
      (e.act delta).entity.vanished = (t.update delta).controller.isDeletable := by
  have hscene : Scene.Mirrors start (t.journal.filterMap Event.command?)
      { controller := e.controller, body := e.sprite } t := ⟨h.controller, h.sprite, rfl⟩
  have hupdate := hscene.update delta
  have hmark := (vanished_act e delta).trans (congrArg Controller.isDeletable hupdate.controller)
  refine ⟨⟨hupdate.controller, hupdate.body, h.lasting⟩, ?_, hmark⟩
  show (t.update delta).journal.reverse.filterMap _ = t.journal.reverse.filterMap _ ++ List.filterMap _ (List.reverse _)
  rw [List.filterMap_reverse, hupdate.journal, List.reverse_append, List.filterMap_reverse, List.filterMap_reverse]

end Entity.Mirrors

namespace World

/-! ## Frames -/

/-- **A world is in step with a scene**, as far as one of its entities is concerned. Either the entity is there and
mirrors the scene, and if the scene has had an update, then the mark tells whether the controller is deletable. Or
the controller of the scene is deletable, and the world has taken the entity away after an update. -/
structure InStep (w : World Stock) (id start : ℕ) (t : Scene Stock Body) (updated : Prop) : Prop where
  numbered : w.Numbered
  /-- The number of the entity is not given to another one. -/
  given : id < w.nextId
  entity : (∃ e, w.entity? id = some e ∧ e.Mirrors start t ∧ (w.despawnVanished → e.vanished = false) ∧
      (updated → e.vanished = t.controller.isDeletable)) ∨
    w.entity? id = none ∧ w.despawnVanished ∧ updated ∧ t.controller.isDeletable ∧ t.controller.Handed

variable {w : World Stock} {id start : ℕ} {t : Scene Stock Body} {updated : Prop} {dt : Scalar}

/-- A frozen frame. -/
theorem InStep.frame_of_le (h : w.InStep id start t updated) (hdelta : (w.clock.advance dt).delta ≤ 0) :
    (w.frame dt).1.InStep id start t updated ∧ w.sentFor id (.frame dt) = [] := by
  obtain ⟨-, hdespawn, hnext⟩ := step_settings w (.frame dt)
  have hstay : (w.frame dt).1.entity? id = w.entity? id := entity?_frame_of_le h.numbered h.given hdelta
  have hsame : (w.frame dt).1.despawnVanished = w.despawnVanished := hdespawn
  refine ⟨⟨numbered_step h.numbered (.frame dt), h.given.trans_le hnext, ?_⟩, ?_⟩
  · rw [hstay, hsame]
    exact h.entity
  · rw [sentFor_frame]
    cases w.entity? id with
    | none => rfl
    | some e => exact if_pos hdelta

/-- A frame in which time passes. -/
theorem InStep.frame_of_not_le (h : w.InStep id start t updated) (hdelta : ¬(w.clock.advance dt).delta ≤ 0) :
    (w.frame dt).1.InStep id start (t.update (w.clock.advance dt).delta) True ∧
      (t.update (w.clock.advance dt).delta).sent = t.sent ++ w.sentFor id (.frame dt) := by
  obtain ⟨-, hdespawn, hnext⟩ := step_settings w (.frame dt)
  have hsame : (w.frame dt).1.despawnVanished = w.despawnVanished := hdespawn
  have hframe := entity?_frame h.numbered h.given dt
  have hkept (hentity : _) : (w.frame dt).1.InStep id start (t.update (w.clock.advance dt).delta) True :=
    ⟨numbered_step h.numbered (.frame dt), h.given.trans_le hnext, hentity⟩
  rcases h.entity with ⟨e, he, hmirrors, hunmarked, -⟩ | ⟨hgone, hd, -, hdeletable, hhanded⟩
  · obtain ⟨hmirrors', hsent, hmark⟩ := hmirrors.act (w.clock.advance dt).delta
    refine ⟨hkept ?_, ?_⟩
    · have hnow : (e.act (w.clock.advance dt).delta).vanishedNow =
          ((e.act (w.clock.advance dt).delta).entity.vanished && !e.vanished) := by
        rw [Entity.vanishedNow_act, Entity.vanished_act]
      rw [hframe, hsame, he, Option.bind_some, Entity.afterPass, if_neg hdelta]
      by_cases htaken : w.despawnVanished && (e.act (w.clock.advance dt).delta).vanishedNow
      · obtain ⟨hd, hvanished⟩ := Bool.and_eq_true_iff.1 htaken
        rw [hnow, hmark] at hvanished
        rw [if_pos htaken]
        exact .inr ⟨rfl, hd, trivial, (Bool.and_eq_true_iff.1 hvanished).1, Scene.handed_update t _⟩
      · have haging : (e.act (w.clock.advance dt).delta).entity.afterAging (w.clock.advance dt).delta =
            some (e.act (w.clock.advance dt).delta).entity := by
          rw [Entity.afterAging, if_neg hdelta, Entity.age, hmirrors'.lasting]
        rw [if_neg htaken, Option.bind_some]
        refine .inl ⟨_, haging, hmirrors', fun hd => ?_, fun _ => hmark⟩
        -- what is marked now has not been marked before, so it would have been taken away
        rw [hnow, hd, hunmarked hd] at htaken
        simpa using htaken
    · rw [hsent, sentFor_frame, he, Option.elim_some, Entity.commandsIn, if_neg hdelta]
  · have hstill : t.update (w.clock.advance dt).delta = t := by
      rw [Scene.update_of_vanished (by simpa [Controller.isDeletable] using hdeletable), Scene.flush_of_handed hhanded]
    refine ⟨hkept (.inr ?_), ?_⟩
    · rw [hframe, hgone, hsame, hstill]
      exact ⟨rfl, hd, trivial, hdeletable, hhanded⟩
    · rw [hstill, sentFor_frame, hgone, Option.elim_none, List.append_nil]

/-- The times that pass in frames, as far as any time passes. -/
def passing (w : World Stock) (dts : List Scalar) : List Scalar := (dts.map (· * w.clock.timeScale)).filter (0 < ·)

/-- **Any number of frames**: the scene gets an update for each in which time passes. -/
theorem InStep.after {dts : List Scalar} (h : w.InStep id start t updated)
    (hnumbers : ∀ dt ∈ dts, ¬(dt * w.clock.timeScale).isNaN) :
    (w.after (dts.map .frame)).InStep id start ((w.passing dts).foldl Scene.update t)
        (updated ∨ w.passing dts ≠ []) ∧
      ((w.passing dts).foldl Scene.update t).sent = t.sent ++ w.sentOver id (dts.map .frame) := by
  induction dts generalizing w t updated with
  | nil => exact ⟨by simpa [passing, World.after] using h, by simp [passing, sentOver]⟩
  | cons dt dts ih =>
    obtain ⟨hnumber, hrest⟩ := List.forall_mem_cons.1 hnumbers
    have hclock : (w.frame dt).1.clock = w.clock.advance dt := (step_settings w (.frame dt)).1
    have hscale : (w.frame dt).1.clock.timeScale = w.clock.timeScale := by
      rw [hclock]
      rfl
    have hpassing : (w.frame dt).1.passing dts = w.passing dts := by
      unfold passing
      rw [hscale]
    have hrest' : ∀ dt' ∈ dts, ¬(dt' * (w.frame dt).1.clock.timeScale).isNaN := by
      rw [hscale]
      exact hrest
    show ((w.frame dt).1.after (dts.map .frame)).InStep _ _ _ _ ∧
      _ = t.sent ++ (w.sentFor id (.frame dt) ++ (w.frame dt).1.sentOver id (dts.map .frame))
    by_cases hdelta : dt * w.clock.timeScale ≤ 0
    · have hskip : w.passing (dt :: dts) = w.passing dts :=
        List.filter_cons_of_neg (by simpa using Scalar.not_lt_of_le hdelta)
      obtain ⟨hframe, hsilent⟩ := h.frame_of_le hdelta
      obtain ⟨hafter, hsent⟩ := ih hframe hrest'
      rw [hpassing] at hafter hsent
      rw [hskip, hsilent, List.nil_append]
      exact ⟨hafter, hsent⟩
    · have hpositive : 0 < dt * w.clock.timeScale := Scalar.lt_of_not_le hnumber Bool.false_ne_true hdelta
      have hpass : w.passing (dt :: dts) = dt * w.clock.timeScale :: w.passing dts :=
        List.filter_cons_of_pos (by simpa using hpositive)
      obtain ⟨hframe, hsent⟩ := h.frame_of_not_le hdelta
      obtain ⟨hafter, hsents⟩ := ih hframe hrest'
      have hupdated : (updated ∨ w.passing (dt :: dts) ≠ []) ↔ (True ∨ w.passing dts ≠ []) := by simp [hpass]
      rw [hpassing] at hafter hsents
      rw [hupdated, hpass, List.foldl_cons]
      refine ⟨hafter, ?_⟩
      rw [← List.append_assoc, ← hsent]
      exact hsents

/-- Whether the vanished are taken away stays as it is. -/
theorem despawnVanished_after (w : World Stock) (inputs : List (Input Stock)) :
    (w.after inputs).despawnVanished = w.despawnVanished := by
  induction inputs generalizing w with
  | nil => rfl
  | cons input inputs ih => exact (ih (w.step input)).trans (step_settings w input).2.1

/-- A world is in step with the scene in which its entity starts. -/
theorem inStep_start (hw : w.Numbered) {e : Entity Stock} (he : w.entity? id = some e) {body : Body}
    (hlook : e.sprite.Mirrors start body) (hlasting : e.lifetime = none) (hunmarked : e.vanished = false) :
    w.InStep id start { controller := e.controller, body } False where
  numbered := hw
  given := hw.lt_of_entity? he
  entity := .inl ⟨e, he, ⟨rfl, hlook, hlasting⟩, fun _ => hunmarked, False.elim⟩

/-- What a world in step shows of its entity. -/
theorem InStep.entity?_iff (h : w.InStep id start t updated) :
    (w.entity? id = none ↔ w.despawnVanished ∧ updated ∧ t.controller.isDeletable) ∧
      ∀ e, w.entity? id = some e → e.controller = t.controller ∧ e.sprite.Mirrors start t.body := by
  rcases h.entity with ⟨e, he, hmirrors, hunmarked, hmark⟩ | ⟨hgone, hd, hupdated, hdeletable, -⟩
  · rw [he]
    refine ⟨iff_of_false (Option.some_ne_none e) ?_, ?_⟩
    · rintro ⟨hd, hupdated, hdeletable⟩
      have hlive := hunmarked hd
      rw [hmark hupdated, hdeletable] at hlive
      cases hlive
    · rintro e' ⟨⟩
      exact ⟨hmirrors.controller, hmirrors.sprite⟩
  · rw [hgone]
    exact ⟨iff_of_true rfl ⟨hd, hupdated, hdeletable⟩, fun e he => nomatch he⟩

end World

end MotionScript
