import MotionScript.Proofs.Playback.Overflow
import MotionScript.World.Basic

/-!
# Frames that break off

A frame updates the entities and binds the scripts that its commands bring. It breaks off when one of these does, and
else it is the frame that is told of elsewhere.

* `World.act?_eq_some_iff`, `World.spawn?_eq_some_iff`: when a pass does not break off.
* `World.frame?_eq_some_iff`: when a frame does not break off.
-/

namespace MotionScript.World

variable {γ : Type} {w : World γ}

/-- Carrying out commands breaks off just if that of one of them does. -/
theorem spawn?_eq_some_iff {v : World γ} : w.spawn? = some v ↔
    v = w.spawn ∧ ∀ command ∈ w.queue.getD [], Entity.canSpawn (γ := γ) (w.curve.getD {}) command := by
  rw [spawn?, Option.ite_none_right_eq_some, List.all_eq_true, Option.some.injEq, and_comm, eq_comm]

variable [Generator γ Sprite]

/-- The entity can be updated by a time: the run does not break off. -/
def Updates (delta : Scalar) (e : Entity γ) : Prop :=
  (Scene.update? { controller := e.controller, body := e.sprite } delta).isSome

theorem canAct_iff : w.canAct w.act.2 ↔
    w.clock.delta ≤ 0 ∨ ∀ entry ∈ w.entities, Updates w.clock.delta entry.2 := by
  by_cases hdelta : w.clock.delta ≤ 0
  · rw [canAct, act, if_pos hdelta, List.zip_nil_right]
    exact iff_of_true rfl (.inl hdelta)
  · rw [canAct, act, if_neg hdelta, or_iff_right hdelta, ← List.map_prod_left_eq_zip, List.all_map, List.all_eq_true]
    refine forall₂_congr fun entry _ => ?_
    rw [Updates, Scene.update?, Option.isSome_ite]
    rfl

/-- Updating the entities breaks off just if that of one of them does. -/
theorem act?_eq_some_iff {r : World γ × Report γ} : w.act? = some r ↔
    r = w.act ∧ (w.clock.delta ≤ 0 ∨ ∀ entry ∈ w.entities, Updates w.clock.delta entry.2) := by
  rw [act?, Option.ite_none_right_eq_some, canAct_iff, Option.some.injEq, and_comm, eq_comm]

/-- **A frame breaks off just if the update of an entity does, or the binding of a new one.** Nothing is updated while
the clock stands still. -/
theorem frame?_eq_some_iff (w : World γ) (dt : Scalar) {r : World γ × Report γ} :
    let v := w.advanceClock dt
    w.frame? dt = some r ↔ r = w.frame dt ∧
      (v.clock.delta ≤ 0 ∨ ∀ entry ∈ v.entities, Updates v.clock.delta entry.2) ∧
      ∀ command ∈ v.act.1.queue.getD [], Entity.canSpawn (γ := γ) (v.act.1.curve.getD {}) command := by
  intro v
  simp only [frame?, run?, Option.bind_eq_bind, Option.bind_eq_some_iff, act?_eq_some_iff, spawn?_eq_some_iff,
    Option.pure_def, Option.some.injEq]
  constructor
  · rintro ⟨passed, ⟨rfl, hupdates⟩, spawned, ⟨rfl, hspawns⟩, rfl⟩
    exact ⟨rfl, hupdates, hspawns⟩
  · rintro ⟨rfl, hupdates, hspawns⟩
    exact ⟨_, ⟨rfl, hupdates⟩, _, ⟨rfl, hspawns⟩, rfl⟩

/-- What a frame comes to where it does not break off. -/
theorem eq_of_frame? {dt : Scalar} {r : World γ × Report γ} (h : w.frame? dt = some r) : r = w.frame dt :=
  ((frame?_eq_some_iff w dt).1 h).1

end MotionScript.World
