import MotionScript.Generator.Stock
import MotionScript.Proofs.Playback.History

/-!
# How long an entity stays deletable

A script ends its entity by a step of its own. The owner may delete it from then on, until it starts a sequence
anew or takes over itself.

* `Controller.Undisturbed`: operations by which the owner does neither.
* `Controller.isDeletable_perform`: what an operation makes of a controller that is deletable or not.
* `Controller.isDeletable_run_iff`: the controllers that are deletable after operations.
-/

namespace MotionScript

variable {γ β : Type}

namespace Controller

variable [Target β] [Generator γ β]

/-- The operations neither start a sequence anew nor take the controller under manual control. -/
def Undisturbed (c : Controller γ) : List (Operation γ β) → Prop
  | [] => True
  | op :: ops => (c.binding? op = none ∧ op.TakesOver = false) ∧ (c.perform op).Undisturbed ops

/-- **An operation leaves a controller deletable** just if it reaches the end of the entity, or if the controller
has been deletable and the operation neither starts a sequence nor takes over. -/
theorem isDeletable_perform (c : Controller γ) (op : Operation γ β) :
    (c.perform op).isDeletable ↔
      .vanish ∈ c.reachedBy op ∨ c.isDeletable ∧ c.binding? op = none ∧ op.TakesOver = false := by
  unfold isDeletable
  rw [beq_iff_eq, beq_iff_eq]
  rcases perform_cases c op with
    ⟨script, i, steps, hbinding, hs, hperform, hreached⟩ | ⟨delta, body, rfl⟩ | ⟨hbinding, hreached, -, -, hmode⟩
  · -- a binding starts from the mode `move`
    have h := (defers_bind c hs).1.vanished
    rw [hperform, hreached, hbinding]
    constructor
    · intro hv
      rcases h.1 hv with hmove | hvanish
      · cases hmove
      · exact .inl hvanish
    · rintro (hvanish | ⟨-, hnone, -⟩)
      · exact h.2 (.inr hvanish)
      · cases hnone
  · have h := (Scene.reaches_update ({ controller := c, body } : Scene γ β) delta).2.vanished
    have hmode := Scene.mode_flush_tick ({ controller := c, body } : Scene γ β) delta
    rw [hmode] at h
    rw [(reachedBy_update c delta body).2, or_comm]
    exact h.trans (or_congr_left (and_iff_left ⟨rfl, rfl⟩).symm)
  · rw [hreached, hmode, hbinding]
    cases op.TakesOver with
    | true => simp
    | false => simp

/-- **A controller is deletable after operations** just if one of them has reached the end of the entity, or it has
been deletable before, and the owner has neither started a sequence nor taken over since. -/
theorem isDeletable_run_iff (ops : List (Operation γ β)) (c : Controller γ) :
    (ops.foldl perform c).isDeletable ↔ c.isDeletable ∧ c.Undisturbed ops ∨
      ∃ before op later, ops = before ++ op :: later ∧ .vanish ∈ (before.foldl perform c).reachedBy op ∧
        ((before ++ [op]).foldl perform c).Undisturbed later := by
  induction ops generalizing c with
  | nil => simp [Undisturbed]
  | cons op ops ih =>
    rw [List.foldl_cons, ih (c.perform op), isDeletable_perform]
    constructor
    · rintro (⟨hvanish | ⟨hdeletable, hop⟩, hrest⟩ | ⟨before, op', later, rfl, hvanish, hrest⟩)
      · exact .inr ⟨[], op, ops, rfl, hvanish, hrest⟩
      · exact .inl ⟨hdeletable, hop, hrest⟩
      · exact .inr ⟨op :: before, op', later, rfl, hvanish, hrest⟩
    · rintro (⟨hdeletable, hop, hrest⟩ | ⟨before, op', later, hops, hvanish, hrest⟩)
      · exact .inl ⟨.inr ⟨hdeletable, hop⟩, hrest⟩
      · cases before with
        | nil =>
          obtain ⟨rfl, rfl⟩ := List.cons.inj hops
          exact .inl ⟨.inl hvanish, hrest⟩
        | cons first before =>
          obtain ⟨rfl, rfl⟩ := List.cons.inj hops
          exact .inr ⟨before, op', later, rfl, hvanish, hrest⟩

/-- Whoever takes over makes an entity live on that its script has ended. -/
theorem manual_control_revives :
    let c : Controller Stock := manual.bind ⟨"gone", [[.vanish]]⟩ 0
    c.isDeletable ∧ ¬(c.manualTime 0).isDeletable ∧ ¬(c.manualMove 0 0).isDeletable ∧
      ¬(c.manualAccelerate 0 0).isDeletable := by
  decide +kernel

end Controller

end MotionScript
