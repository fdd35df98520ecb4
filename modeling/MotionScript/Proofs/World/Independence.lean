import MotionScript.Generator.Stock
import MotionScript.Proofs.World.Run

/-!
# Entities among others

The entities of a world share its clock, the queue and the fate of what vanishes. Nothing of that leads from one
entity to another.

* `World.only`: a world without the other entities.
* `World.Shuffled`: runs in which the entities are visited in any order.
* `World.Alike`, `World.alike_shuffled`: worlds that an entity cannot tell apart.
* `World.entity_alone`: an entity among others is as it is on its own.
-/

namespace MotionScript

namespace World

variable {γ : Type}

/-- The world without the other entities, and without what they have asked for. -/
def only (w : World γ) (id : ℕ) : World γ :=
  { w with
    entities := w.entities.filter (·.1 == id)
    queue := w.queue.map fun _ => [] }

/-- **A run in which the entities are visited in any order**, at each input in another one, with the world that it
leads to and the commands that the generator of one entity sends on the way. -/
inductive Shuffled [Generator γ Sprite] (id : ℕ) : World γ → List (Input γ) → World γ → List Command → Prop
  | stop (w : World γ) : Shuffled id w [] w []
  | step {w v : World γ} {input : Input γ} {inputs : List (Input γ)} {sent : List Command} (l : List (ℕ × Entity γ))
      (hl : l.Perm w.entities) (h : Shuffled id (step { w with entities := l } input) inputs v sent) :
      Shuffled id w (input :: inputs) v (sentFor { w with entities := l } id input ++ sent)

/-- **Worlds that an entity cannot tell apart**: it is the same in both, and so is the time that passes. -/
structure Alike (id : ℕ) (w v : World γ) : Prop where
  numbered : w.Numbered ∧ v.Numbered
  /-- The number of the entity is not given to another one. -/
  given : id < w.nextId ∧ id < v.nextId
  clock : w.clock = v.clock
  despawnVanished : w.despawnVanished = v.despawnVanished
  entity : w.entity? id = v.entity? id

variable {w v : World γ} {id : ℕ} {e : Entity γ}

/-- An entity cannot tell whether there are others. -/
theorem alike_only (hw : w.Numbered) (he : w.entity? id = some e) : Alike id w (w.only id) := by
  have hfilter : (w.entities.filter (·.1 == id)).Sublist w.entities := List.filter_sublist
  have hnumbered : (w.only id).Numbered := hw.of_sublist (hfilter.map (·.1)) rfl
  have hmem : (id, e) ∈ w.entities := (lookup_eq_some_iff_mem hw.nodup).1 he
  have hlt : id < w.nextId := hw.lt_of_entity? he
  refine ⟨⟨hw, hnumbered⟩, ⟨hlt, hlt⟩, rfl, rfl, ?_⟩
  have hkept : (id, e) ∈ (w.only id).entities := List.mem_filter.2 ⟨hmem, beq_self_eq_true id⟩
  rw [he]
  exact ((lookup_eq_some_iff_mem hnumbered.nodup).2 hkept).symm

/-- An entity cannot tell in which order it is visited. -/
theorem Alike.reorder (h : Alike id w v) {l : List (ℕ × Entity γ)} (hl : l.Perm w.entities) :
    Alike id { w with entities := l } v := by
  have hids : (l.map (·.1)).Perm (w.entities.map (·.1)) := hl.map (·.1)
  have hnodup : (l.map (·.1)).Nodup := hids.nodup_iff.2 h.numbered.1.nodup
  have hlt : ∀ i ∈ l.map (·.1), i < w.nextId := by
    intro i hi
    exact h.numbered.1.lt i (hids.mem_iff.1 hi)
  have hfound : l.lookup id = w.entity? id := by
    ext e
    have hmem : (id, e) ∈ l ↔ (id, e) ∈ w.entities := hl.mem_iff
    rw [entity?, lookup_eq_some_iff_mem hnodup, lookup_eq_some_iff_mem h.numbered.1.nodup, hmem]
  exact
    { numbered := ⟨⟨hnodup, hlt⟩, h.numbered.2⟩
      given := h.given
      clock := h.clock
      despawnVanished := h.despawnVanished
      entity := hfound.trans h.entity }

variable [Generator γ Sprite]

/-- What the generator of an entity sends in a frame. -/
theorem sentFor_frame (w : World γ) (id : ℕ) (dt : Scalar) :
    w.sentFor id (.frame dt) = (w.entity? id).elim [] (·.commandsIn (w.clock.advance dt).delta) :=
  commands_act (w.advanceClock dt) id

/-- **The same input** leaves the worlds alike, and has the same commands sent. -/
theorem alike_step (h : Alike id w v) (input : Input γ) :
    Alike id (w.step input) (v.step input) ∧ w.sentFor id input = v.sentFor id input := by
  obtain ⟨hclock, hdespawn, hnext⟩ := step_settings w input
  obtain ⟨hclock', hdespawn', hnext'⟩ := step_settings v input
  have halike : (w.step input).clock = (v.step input).clock := by
    rw [hclock, hclock', h.clock]
  have hentity : (w.step input).entity? id = (v.step input).entity? id := by
    cases input with
    | frame dt =>
      have hw := entity?_frame h.numbered.1 h.given.1 dt
      have hv := entity?_frame h.numbered.2 h.given.2 dt
      rw [h.clock, h.despawnVanished, h.entity] at hw
      exact hw.trans hv.symm
    | control i op => rw [entity?_control, entity?_control, h.entity]
  refine ⟨?_, ?_⟩
  · exact
      { numbered := ⟨numbered_step h.numbered.1 input, numbered_step h.numbered.2 input⟩
        given := ⟨h.given.1.trans_le hnext, h.given.2.trans_le hnext'⟩
        clock := halike
        despawnVanished := by rw [hdespawn, hdespawn', h.despawnVanished]
        entity := hentity }
  · cases input with
    | frame dt => rw [sentFor_frame, sentFor_frame, h.entity, h.clock]
    | control i op =>
      by_cases hi : i = id
      · simp only [sentFor, if_pos hi, sentBy, h.entity]
      · simp only [sentFor, if_neg hi]

/-- **What does not concern an entity** it does not notice. -/
theorem alike_of_not_concerns (h : Alike id w v) {input : Input γ} (hi : ¬input.Concerns id) :
    Alike id (w.step input) v ∧ w.sentFor id input = [] := by
  cases input with
  | frame dt => exact absurd rfl hi
  | control i op =>
    have hne : i ≠ id := by simpa [Input.Concerns] using hi
    obtain ⟨hclock, hdespawn, hnext⟩ := step_settings w (.control i op)
    have hentity : (w.step (.control i op)).entity? id = w.entity? id := by
      rw [entity?_control]
      simp [hne.symm]
    refine ⟨?_, if_neg hne⟩
    exact
      { numbered := ⟨numbered_step h.numbered.1 _, h.numbered.2⟩
        given := ⟨h.given.1.trans_le hnext, h.given.2⟩
        clock := hclock.trans h.clock
        despawnVanished := hdespawn.trans h.despawnVanished
        entity := hentity.trans h.entity }

/-- The order in which the entities have come is one of those in which they may be visited. -/
theorem shuffled_after (id : ℕ) (w : World γ) (inputs : List (Input γ)) :
    Shuffled id w inputs (w.after inputs) (w.sentOver id inputs) := by
  induction inputs generalizing w with
  | nil => exact .stop w
  | cons input inputs ih => exact .step w.entities (.refl _) (ih (w.step input))

/-- **Over a run** an entity notices no more than what concerns it. -/
theorem alike_shuffled {u : World γ} {inputs : List (Input γ)} {sent : List Command}
    (hrun : Shuffled id w inputs v sent) (h : Alike id w u) :
    Alike id v (u.after (inputs.filter (·.Concerns id))) ∧
      sent = u.sentOver id (inputs.filter (·.Concerns id)) := by
  induction hrun generalizing u with
  | stop w => exact ⟨h, rfl⟩
  | @step w v input inputs sent l hl _ ih =>
    have hl := h.reorder hl
    by_cases hi : input.Concerns id
    · obtain ⟨hstep, hsent⟩ := alike_step hl input
      obtain ⟨hrest, hsents⟩ := ih hstep
      rw [List.filter_cons_of_pos hi]
      refine ⟨hrest, ?_⟩
      rw [sentOver, hsent, hsents]
    · obtain ⟨hskip, hsent⟩ := alike_of_not_concerns hl hi
      obtain ⟨hrest, hsents⟩ := ih hskip
      rw [List.filter_cons_of_neg hi]
      refine ⟨hrest, ?_⟩
      rw [hsent, List.nil_append, hsents]

/-- **An entity among others is as it is on its own**, whatever frames come and whatever the owners do with the
controllers: it looks the same, it is there as long, and its generator sends the same commands. In which order the
entities are visited changes none of them. -/
theorem entity_alone (hw : w.Numbered) (he : w.entity? id = some e) (inputs : List (Input γ)) :
    let own := inputs.filter (·.Concerns id)
    (w.after inputs).entity? id = ((w.only id).after own).entity? id ∧
      w.sentOver id inputs = (w.only id).sentOver id own ∧
      ∀ v sent, Shuffled id w inputs v sent →
        v.entity? id = (w.after inputs).entity? id ∧ sent = w.sentOver id inputs := by
  intro own
  have honly : Alike id w (w.only id) := alike_only hw he
  obtain ⟨halone, hsent⟩ := alike_shuffled (shuffled_after id w inputs) honly
  refine ⟨halone.entity, hsent, ?_⟩
  intro v sent hrun
  -- the shuffled run is compared with the entity on its own as well
  obtain ⟨hshuffled, hsent'⟩ := alike_shuffled hrun honly
  exact ⟨hshuffled.entity.trans halone.entity.symm, hsent'.trans hsent.symm⟩

theorem entity_alone_beside_gun :
    let walk : ScriptSet := ⟨"walk", [[.move 0 10, .wait 0.25, .vanish], [.move 90 20]]⟩
    let shoot : ScriptSet := ⟨"shoot", [[.generate 1 2, .wait 1]]⟩
    let walker : Entity Stock := { sprite := { position := 0 }, controller := Controller.manual.bind walk 0 }
    let gun : Entity Stock :=
      { sprite := { position := 0 }
        controller := (Controller.manual.setGenerator (some (.singleShot none))).bind shoot 0 }
    let w : World Stock := { entities := [(0, gun), (1, walker)], nextId := 2, despawnVanished := true }
    let inputs : List (Input Stock) := [.frame 0.125, .control 0 (.manualMove 0 1), .frame 0.5]
    w.Numbered ∧ w.entity? 1 = some walker ∧ ((w.after inputs).entity? 1).isNone ∧
      (w.after inputs).entity? 1 = ((w.only 1).after [.frame 0.125, .frame 0.5]).entity? 1 ∧
      w.sentOver 1 inputs = (w.only 1).sentOver 1 [.frame 0.125, .frame 0.5] := by
  intro walk shoot walker gun w inputs
  have hw : w.Numbered := ⟨by decide, by decide⟩
  have he : w.entity? 1 = some walker := rfl
  have hgone : ((w.after inputs).entity? 1).isNone := by decide +kernel
  obtain ⟨hentity, hsent, -⟩ := entity_alone hw he inputs
  exact ⟨hw, he, hgone, hentity, hsent⟩

end World

end MotionScript
