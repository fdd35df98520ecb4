import MotionScript.Generator.Stock
import MotionScript.Proofs.Playback.History
import MotionScript.Proofs.World.Marks

/-!
# Entities that vanish again

An entity whose script has ended it may get another sequence. Whether a pass reports it when this sequence ends it
too depends on its mark, and the mark is no younger than the last pass.

* `World.Recent`, `World.recent`: what the last pass has left of an entity, and what has been done to it since.
* `World.Recalls`, `World.recalls_after`: the mark of an entity is what the last pass has left.
* `World.vanish_reported_iff`: when an entity is reported, and when its vanishing is not.
-/

namespace MotionScript

variable {γ : Type}

/-- The operation starts a sequence of a script anew. -/
def Operation.Starts {β : Type} : Operation γ β → Bool
  | .bind _ _ | .selectSequence _ => true
  | _ => false

/-- An operation that is to start a sequence but names none that is there leaves a controller deletable or not. -/
theorem Controller.isDeletable_of_starts {β : Type} [Target β] [Generator γ β] {c : Controller γ} {op : Operation γ β}
    (hop : op.Starts) (hbinding : c.binding? op = none) : (c.perform op).isDeletable = c.isDeletable := by
  have hkeep : op.TakesOver = false := by
    cases op with
    | bind script i => rfl
    | selectSequence i => rfl
    | _ => cases hop
  unfold isDeletable
  rcases perform_cases c op with ⟨script, i, steps, hsome, -⟩ | ⟨delta, body, rfl⟩ | ⟨-, -, -, -, hmode⟩
  · rw [hbinding] at hsome
    cases hsome
  · cases hop
  · rw [hmode, hkeep]
    rfl

namespace World

/-- **What the last pass has left of an entity**, and what has been done to it since. -/
structure Recent where
  /-- The script had ended the entity. -/
  ended : Bool := false
  /-- A sequence has been started since. A new entity has one that no pass has seen yet. -/
  bound : Bool := true

variable [Generator γ Sprite] {w : World γ} {id : ℕ} {r : Recent}

/-- What a pass has left of an entity, when it is just over. -/
def Recent.left : Option (Entity γ) → Recent
  | none => {}
  | some e => { ended := e.controller.isDeletable, bound := false }

/-- What an input makes of that. -/
def Recent.step (id : ℕ) (w : World γ) (r : Recent) : Input γ → Recent
  | .frame dt => if (w.clock.advance dt).delta ≤ 0 then r else .left ((w.advanceClock dt).act.1.entity? id)
  | .control i op =>
    if i = id ∧ (w.entity? id).any fun e => (e.controller.binding? op).isSome then { r with bound := true } else r

/-- What a run makes of that. -/
def recent (id : ℕ) : World γ → Recent → List (Input γ) → Recent
  | _, r, [] => r
  | w, r, input :: inputs => recent id (w.step input) (r.step id w input) inputs

/-- **The mark of an entity is what the last pass has left**, and so is the end of its script unless a sequence has
been started since. -/
def Recalls (id : ℕ) (w : World γ) (r : Recent) : Prop :=
  ∀ e, w.entity? id = some e → e.vanished = r.ended ∧ (r.bound = false → e.controller.isDeletable = r.ended)

theorem recalls_frame (h : w.Numbered) (hid : id < w.nextId) (hr : Recalls id w r) (dt : Scalar) :
    Recalls id (w.step (.frame dt)) (r.step id w (.frame dt)) := by
  have hpassed : (w.advanceClock dt).act.1.entity? id =
      (w.entity? id).bind (·.afterPass (w.clock.advance dt).delta w.despawnVanished) :=
    entity?_act (h.advanceClock dt) id
  intro e' he'
  have hframe : (w.step (.frame dt)).entity? id =
      ((w.entity? id).bind (·.afterPass (w.clock.advance dt).delta w.despawnVanished)).bind
        (·.afterAging (w.clock.advance dt).delta) := entity?_frame h hid dt
  rw [hframe] at he'
  obtain ⟨e₁, hpass, haging⟩ := Option.bind_eq_some_iff.1 he'
  obtain ⟨hcontroller, hvanished⟩ := Entity.afterAging_keeps haging
  rw [hcontroller, hvanished]
  obtain ⟨e, he, hcases⟩ := Option.bind_eq_some_iff.1 hpass
  rw [hpass] at hpassed
  rcases Entity.afterPass_cases hcases with ⟨hd, rfl⟩ | ⟨hd, hact, -⟩
  · have hr' : r.step id w (.frame dt) = r := if_pos hd
    rw [hr']
    exact hr e₁ he
  · have hr' : r.step id w (.frame dt) = .left (some e₁) := by
      unfold Recent.step
      dsimp only
      rw [if_neg hd, hpassed]
    rw [hr', hact]
    exact ⟨Entity.vanished_act e _, fun _ => rfl⟩

theorem recalls_control (hr : Recalls id w r) {i : ℕ} {op : Operation γ Sprite} (hop : i = id → op.Starts) :
    Recalls id (w.step (.control i op)) (r.step id w (.control i op)) := by
  intro e' he'
  rw [entity?_control] at he'
  obtain ⟨e, he, rfl⟩ := Option.map_eq_some_iff.1 he'
  obtain ⟨hmark, hsince⟩ := hr e he
  have hr' : r.step id w (.control i op) =
      if i = id ∧ (e.controller.binding? op).isSome then { r with bound := true } else r := by
    simp [Recent.step, he]
  rw [hr']
  by_cases hi : i = id
  · subst hi
    rw [if_pos rfl]
    split
    · -- the mark stays, and the end of the script is open
      exact ⟨hmark, fun hbound => by cases hbound⟩
    · next hnone =>
      have hbinding : e.controller.binding? op = none := by simpa using hnone
      refine ⟨hmark, fun hbound => ?_⟩
      exact (Controller.isDeletable_of_starts (hop rfl) hbinding).trans (hsince hbound)
  · have hne : id ≠ i := Ne.symm hi
    rw [if_neg hne, if_neg fun h => hi h.1]
    exact ⟨hmark, hsince⟩

/-- **Over a run** in which the owner of the entity only starts sequences. -/
theorem recalls_after (h : w.Numbered) (hid : id < w.nextId) (hr : Recalls id w r) {inputs : List (Input γ)}
    (hops : ∀ op, .control id op ∈ inputs → op.Starts) :
    Recalls id (w.after inputs) (w.recent id r inputs) := by
  induction inputs generalizing w r with
  | nil => exact hr
  | cons input inputs ih =>
    have hstep : Recalls id (w.step input) (r.step id w input) := by
      cases input with
      | frame dt => exact recalls_frame h hid hr dt
      | control i op =>
        refine recalls_control hr ?_
        rintro rfl
        exact hops op List.mem_cons_self
    have hgiven : id < (w.step input).nextId := hid.trans_le (step_settings w input).2.2
    exact ih (numbered_step h input) hgiven hstep fun op hop => hops op (List.mem_cons_of_mem _ hop)

/-- **When an entity is reported.** An entity is reported by a frame just if its script has ended it when the pass is
over and had not when the last one was. So it is once for each time that its script ends it
anew, with one exception: if the last pass has left it ended, a sequence has been started since, and the pass leaves it
ended again, then this goes unreported. -/
theorem vanish_reported_iff (hw : w.Numbered) {e : Entity γ} (he : w.entity? id = some e) (hnew : e.vanished = false)
    {inputs : List (Input γ)} (hops : ∀ op, .control id op ∈ inputs → op.Starts) (dt : Scalar) :
    let v := (w.after inputs).advanceClock dt
    let r := w.recent id {} inputs
    let reports := ((w.after inputs).frame dt).2.vanished.count id
    (v.entity? id = none ∨ v.clock.delta ≤ 0 → reports = 0) ∧
      ∀ e', v.entity? id = some e' → ¬v.clock.delta ≤ 0 →
        let ends := (e'.act v.clock.delta).entity.controller.isDeletable
        reports = (ends && !r.ended).toNat ∧
          (reports = (ends && (!e'.controller.isDeletable || r.bound)).toNat ↔ ¬(ends ∧ r.ended ∧ r.bound)) := by
  intro v r reports
  have hfirst : Recalls id w {} := by
    intro e' he'
    rw [he] at he'
    cases he'
    exact ⟨hnew, fun hbound => by cases hbound⟩
  have hrecalls : Recalls id (w.after inputs) r := recalls_after hw (hw.lt_of_entity? he) hfirst hops
  have hreports : reports = (((w.after inputs).entity? id).any (·.vanishesIn v.clock.delta)).toNat :=
    count_vanished_frame (numbered_after hw inputs) id dt
  refine ⟨?_, ?_⟩
  · rintro (hgone | hstill)
    · have hgone' : (w.after inputs).entity? id = none := hgone
      rw [hreports, hgone']
      rfl
    · rw [hreports]
      cases (w.after inputs).entity? id <;> simp [Entity.vanishesIn, hstill]
  · intro e' he' hd ends
    have he'' : (w.after inputs).entity? id = some e' := he'
    obtain ⟨hmark, hsince⟩ := hrecalls e' he''
    have hvanishes : e'.vanishesIn v.clock.delta = (ends && !e'.vanished) := by
      have hruns : (!decide (v.clock.delta ≤ 0)) = true := by simpa using hd
      unfold Entity.vanishesIn
      rw [hruns, Bool.true_and, Entity.vanishedNow_act]
    have hcount : reports = (ends && !r.ended).toNat := by
      rw [hreports, he'', Option.any_some, hvanishes, hmark]
    refine ⟨hcount, ?_⟩
    rw [hcount]
    -- without a new sequence the controller has been as the last pass has left it
    cases hbound : r.bound with
    | false =>
      rw [hsince hbound]
      simp
    | true =>
      cases ends <;> cases r.ended <;> simp

theorem vanish_reported_iff_twice :
    let script : ScriptSet := ⟨"twice", [[.vanish], [.wait 0.25, .vanish]]⟩
    let e : Entity Stock := { sprite := { position := 0 }, controller := Controller.manual.bind script 0 }
    let w : World Stock := { entities := [(0, e)], nextId := 1 }
    let inputs : List (Input Stock) := [.frame 0.5, .control 0 (.selectSequence 1), .frame 0.125]
    w.Numbered ∧ w.entity? 0 = some e ∧ ((w.after inputs).frame 0.5).2.vanished.count 0 = 1 := by
  intro script e w inputs
  have hw : w.Numbered := ⟨by decide, by decide⟩
  have he : w.entity? 0 = some e := rfl
  have hops : ∀ op, Input.control 0 op ∈ inputs → op.Starts := by
    intro op hop
    have hop' : op = .selectSequence 1 := by simpa [inputs] using hop
    rw [hop']
    rfl
  have hruns : ¬((w.after inputs).advanceClock 0.5).clock.delta ≤ 0 := by decide +kernel
  have hthere : (((w.after inputs).advanceClock 0.5).entity? 0).isSome := by decide +kernel
  obtain ⟨e', he'⟩ := Option.isSome_iff_exists.1 hthere
  obtain ⟨-, hreport⟩ := vanish_reported_iff hw he rfl hops 0.5
  obtain ⟨hcount, -⟩ := hreport e' he' hruns
  have hends : (((w.after inputs).advanceClock 0.5).entity? 0).any
      fun e => (e.act 0.5).entity.controller.isDeletable := by decide +kernel
  have hrecent : (w.recent 0 {} inputs).ended = false := by decide +kernel
  rw [he', Option.any_some] at hends
  refine ⟨hw, he, ?_⟩
  have hdelta : ((w.after inputs).advanceClock 0.5).clock.delta = 0.5 := by decide +kernel
  rw [hcount, hdelta, hends, hrecent]
  rfl

/-- An entity that has vanished, gets another sequence and vanishes again within the next frame is reported no
more. -/
theorem second_vanishing_unreported :
    let script : ScriptSet := ⟨"zako", [[.vanish], [.wait 0.25, .vanish]]⟩
    let e : Entity Stock := { sprite := { position := 0 }, controller := Controller.manual.bind script 0 }
    let w : World Stock := { entities := [(0, e)], nextId := 1 }
    let v := w.after [.frame 0.5, .control 0 (.selectSequence 1)]
    (w.frame 0.5).2.vanished = [0] ∧ (v.entity? 0).any (!·.controller.isDeletable) ∧
      ((v.frame 0.5).1.entity? 0).any (·.controller.isDeletable) ∧ (v.frame 0.5).2.vanished = [] := by
  decide +kernel

end World

end MotionScript
