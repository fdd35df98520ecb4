import MotionScript.Generator.Stock
import MotionScript.Proofs.World.Run

/-!
# The marks of what has vanished

A pass marks the entities that their scripts have ended, and takes the mark from those that play again. It reports
an entity that it marks.

* `World.marks_agree`: marks tell which controllers are deletable, and reports tell when marks are put.
* `World.vanishings`, `World.markings`: the reports and the new marks of a run.
* `World.Unmarked`, `World.unmarked_after`: nobody is marked where the marked are taken away.
-/

namespace MotionScript

variable {γ : Type}

/-! ## One entity -/

namespace Entity

variable {e e' : Entity γ} {delta : Scalar} {despawn : Bool}

theorem afterAging_keeps (h : e.afterAging delta = some e') :
    e'.controller = e.controller ∧ e'.vanished = e.vanished := by
  obtain ⟨lifetime, rfl⟩ := exists_lifetime h
  exact ⟨rfl, rfl⟩

variable [Generator γ Sprite]

/-- **What the first pass of a frame can leave of an entity.** -/
theorem afterPass_cases (h : e.afterPass delta despawn = some e') :
    delta ≤ 0 ∧ e' = e ∨
      ¬delta ≤ 0 ∧ e' = (e.act delta).entity ∧ ¬(despawn ∧ (e.act delta).vanishedNow) := by
  unfold afterPass at h
  split at h
  · next hd =>
    cases h
    exact .inl ⟨hd, rfl⟩
  · next hd =>
    split at h
    · cases h
    · next hkeep =>
      cases h
      refine .inr ⟨hd, rfl, ?_⟩
      simpa using hkeep

/-- The first pass of a frame reports the entity. -/
def vanishesIn (e : Entity γ) (delta : Scalar) : Bool := !decide (delta ≤ 0) && (e.act delta).vanishedNow

end Entity

namespace World

variable [Generator γ Sprite] {w : World γ}

/-! ## Reports -/

/-- What an input has reported. Operations of owners report nothing. -/
def report (w : World γ) : Input γ → Report γ
  | .frame dt => (w.frame dt).2
  | .control _ _ => {}

/-- The entities that are reported over a run, in order. -/
def vanishings : World γ → List (Input γ) → List ℕ
  | _, [] => []
  | w, input :: inputs => (w.report input).vanished ++ vanishings (w.step input) inputs

/-- An entity has a mark after a pass that it did not have before. An entity that is taken away because it has
vanished gets its mark first. -/
def markedBy (w : World γ) (id : ℕ) : Input γ → Bool
  | .frame dt =>
    let before := w.entity? id
    let outcome := ((w.frame dt).2.outcomes.lookup id)
    before.any (!·.vanished) && outcome.any (·.entity.vanished)
  | .control _ _ => false

/-- How many times an entity gets the mark over a run. -/
def markings (id : ℕ) : World γ → List (Input γ) → ℕ
  | _, [] => 0
  | w, input :: inputs => (w.markedBy id input).toNat + markings id (w.step input) inputs

/-- What a frame has made of an entity. -/
theorem lookup_outcomes_frame (w : World γ) (id : ℕ) (dt : Scalar) : (w.frame dt).2.outcomes.lookup id =
    if (w.clock.advance dt).delta ≤ 0 then none else (w.entity? id).map (·.act (w.clock.advance dt).delta) :=
  lookup_outcomes_act (w.advanceClock dt) id

/-- A frame makes one thing of each entity. -/
theorem nodup_outcomes_frame (h : w.Numbered) (dt : Scalar) : ((w.frame dt).2.outcomes.map (·.1)).Nodup := by
  have hact : ((w.advanceClock dt).act.2.outcomes.map (·.1)).Nodup := by
    unfold act
    split
    · exact List.nodup_nil
    · dsimp only
      rw [List.map_map]
      exact h.nodup
  exact hact

omit [Generator γ Sprite] in
/-- **An entity is reported once at most.** -/
theorem count_vanished {r : Report γ} (hr : (r.outcomes.map (·.1)).Nodup) (id : ℕ) :
    r.vanished.count id = ((r.outcomes.lookup id).any (·.vanishedNow)).toNat := by
  have hkept : (r.outcomes.filter (·.2.vanishedNow)).Sublist r.outcomes := List.filter_sublist
  have hnodup : r.vanished.Nodup := hr.sublist (hkept.map Prod.fst)
  have hmem : id ∈ r.vanished ↔ (r.outcomes.lookup id).any (·.vanishedNow) := by
    unfold Report.vanished
    rw [List.mem_map, Option.any_eq_true]
    constructor
    · rintro ⟨⟨i, o⟩, hp, rfl⟩
      obtain ⟨hp, ho⟩ := List.mem_filter.1 hp
      exact ⟨o, (lookup_eq_some_iff_mem hr).2 hp, ho⟩
    · rintro ⟨o, hlookup, ho⟩
      have hp : (id, o) ∈ r.outcomes := (lookup_eq_some_iff_mem hr).1 hlookup
      exact ⟨(id, o), List.mem_filter.2 ⟨hp, ho⟩, rfl⟩
  rw [hnodup.count]
  cases hany : (r.outcomes.lookup id).any (·.vanishedNow) with
  | true => rw [if_pos (hmem.2 hany), Bool.toNat_true]
  | false =>
    have hnot : id ∉ r.vanished := by
      rw [hmem, hany]
      decide
    rw [if_neg hnot, Bool.toNat_false]

/-- **The report of a frame**, for one entity. -/
theorem count_vanished_frame (h : w.Numbered) (id : ℕ) (dt : Scalar) : (w.frame dt).2.vanished.count id =
    ((w.entity? id).any (·.vanishesIn (w.clock.advance dt).delta)).toNat := by
  rw [count_vanished (nodup_outcomes_frame h dt), lookup_outcomes_frame]
  cases w.entity? id with
  | none => simp
  | some e => by_cases hd : (w.clock.advance dt).delta ≤ 0 <;> simp [Entity.vanishesIn, hd]

/-- **An entity is reported just when it gets the mark.** -/
theorem count_report (h : w.Numbered) (id : ℕ) (input : Input γ) :
    (w.report input).vanished.count id = (w.markedBy id input).toNat := by
  cases input with
  | frame dt =>
    have hcount : (w.report (.frame dt)).vanished.count id = _ := count_vanished_frame h id dt
    rw [hcount]
    unfold markedBy
    dsimp only
    rw [lookup_outcomes_frame]
    cases w.entity? id with
    | none => simp
    | some e =>
      have hnow : (e.act (w.clock.advance dt).delta).vanishedNow =
          ((e.act (w.clock.advance dt).delta).entity.vanished && !e.vanished) := by
        rw [Entity.vanishedNow_act, Entity.vanished_act]
      by_cases hd : (w.clock.advance dt).delta ≤ 0
      · simp [Entity.vanishesIn, hd]
      · simp [Entity.vanishesIn, hd, hnow, Bool.and_comm]
  | control i op => rfl

/-- **Over a run** an entity is reported as often as it gets the mark. -/
theorem count_vanishings (h : w.Numbered) (id : ℕ) (inputs : List (Input γ)) :
    (w.vanishings inputs).count id = w.markings id inputs := by
  induction inputs generalizing w with
  | nil => rfl
  | cons input inputs ih =>
    rw [vanishings, markings, List.count_append, count_report h, ih (numbered_step h input)]

/-! ## Marks -/

/-- What an entity that the first pass keeps has been before. -/
theorem exists_of_mem_act {p : ℕ × Entity γ} (hp : p ∈ w.act.1.entities) :
    ∃ e, (p.1, e) ∈ w.entities ∧ e.afterPass w.clock.delta w.despawnVanished = some p.2 := by
  rw [entities_act, List.mem_filterMap] at hp
  obtain ⟨⟨i, e⟩, hmem, hmap⟩ := hp
  obtain ⟨e', hpass, rfl⟩ := Option.map_eq_some_iff.1 hmap
  exact ⟨e, hmem, hpass⟩

/-- **Marks tell which controllers are deletable**, after a pass in which time goes by. -/
theorem vanished_of_mem_act (hd : ¬w.clock.delta ≤ 0) {p : ℕ × Entity γ} (hp : p ∈ w.act.1.entities) :
    p.2.vanished = p.2.controller.isDeletable := by
  obtain ⟨e, -, hpass⟩ := exists_of_mem_act hp
  rcases Entity.afterPass_cases hpass with ⟨hstill, -⟩ | ⟨-, hact, -⟩
  · exact absurd hstill hd
  · rw [hact, Entity.vanished_act]

/-- An entity that its script has not ended is kept. -/
theorem mem_act_of_not_isDeletable (hd : ¬w.clock.delta ≤ 0) {p : ℕ × Entity γ} (hp : p ∈ w.entities)
    (hlive : ¬(p.2.act w.clock.delta).entity.controller.isDeletable) :
    (p.1, (p.2.act w.clock.delta).entity) ∈ w.act.1.entities := by
  have hquiet : (p.2.act w.clock.delta).vanishedNow = false := by
    rw [Entity.vanishedNow_act, Bool.eq_false_iff.2 hlive, Bool.false_and]
  rw [entities_act, List.mem_filterMap]
  refine ⟨p, hp, ?_⟩
  simp [Entity.afterPass, hd, hquiet]

/-- Nobody has the mark. -/
def Unmarked (w : World γ) : Prop := ∀ p ∈ w.entities, p.2.vanished = false

/-- **Where the marked are taken away**, a pass leaves nobody marked. -/
theorem unmarked_act (hu : w.Unmarked) (hdespawn : w.despawnVanished) : w.act.1.Unmarked := by
  intro p hp
  obtain ⟨e, hmem, hpass⟩ := exists_of_mem_act hp
  have he : e.vanished = false := hu (p.1, e) hmem
  rcases Entity.afterPass_cases hpass with ⟨-, hsame⟩ | ⟨-, hact, hquiet⟩
  · rw [hsame, he]
  · rw [Entity.vanishedNow_act, he, Bool.not_false, Bool.and_true] at hquiet
    rw [hact, Entity.vanished_act]
    simpa [hdespawn] using hquiet

omit [Generator γ Sprite] in
/-- New entities have no mark. -/
theorem unmarked_spawn (hu : w.Unmarked) : w.spawn.Unmarked := by
  intro p hp
  rcases List.mem_append.1 hp with hp | hp
  · exact hu p hp
  · have hnew := (List.of_mem_zip hp).2
    obtain ⟨command, -, hcommand⟩ := List.mem_map.1 hnew
    rw [← hcommand]
    cases command <;> rfl

omit [Generator γ Sprite] in
theorem unmarked_expire (hu : w.Unmarked) : w.expire.Unmarked := by
  intro p hp
  rw [entities_expire, List.mem_filterMap] at hp
  obtain ⟨⟨i, e⟩, hmem, hmap⟩ := hp
  obtain ⟨e', haging, rfl⟩ := Option.map_eq_some_iff.1 hmap
  exact (Entity.afterAging_keeps haging).2.trans (hu (i, e) hmem)

theorem unmarked_step (hu : w.Unmarked) (hdespawn : w.despawnVanished) (input : Input γ) :
    (w.step input).Unmarked := by
  cases input with
  | frame dt =>
    have hclock : (w.advanceClock dt).Unmarked := hu
    exact unmarked_expire (unmarked_spawn (unmarked_act hclock hdespawn))
  | control i op =>
    intro p hp
    have hentities := entities_modify w i (·.perform op)
    have hp' : p ∈ (w.modify i (·.perform op)).entities := hp
    rw [hentities] at hp'
    obtain ⟨q, hq, rfl⟩ := List.mem_map.1 hp'
    have hmark := hu q hq
    by_cases hi : q.1 = i
    · simpa [hi] using hmark
    · simpa [hi] using hmark

/-- **Where the marked have been taken away from the start**, nobody is marked when a run is over. -/
theorem unmarked_after (hu : w.Unmarked) (hdespawn : w.despawnVanished) (inputs : List (Input γ)) :
    (w.after inputs).Unmarked ∧ (w.after inputs).despawnVanished := by
  induction inputs generalizing w with
  | nil => exact ⟨hu, hdespawn⟩
  | cons input inputs ih =>
    have hkept : (w.step input).despawnVanished := (step_settings w input).2.1.trans hdespawn
    exact ih (unmarked_step hu hdespawn input) hkept

/-- **Marks and controllers agree**, whatever frames come and whatever the owners do with the controllers. After a
pass in which time goes by the marked entities are those with a deletable controller. An entity is reported as often
as it gets the mark. Where what vanishes has been taken away from the start, no entity with a deletable controller is
left after such a pass, and an entity with another controller never is taken away by it. -/
theorem marks_agree (hw : w.Numbered) (inputs : List (Input γ)) :
    (∀ id, (w.vanishings inputs).count id = w.markings id inputs) ∧
    ∀ dt,
      let v := (w.after inputs).advanceClock dt
      ¬v.clock.delta ≤ 0 →
        (∀ p ∈ v.act.1.entities, p.2.vanished = p.2.controller.isDeletable) ∧
        (∀ p ∈ v.entities, ¬(p.2.act v.clock.delta).entity.controller.isDeletable →
          (p.1, (p.2.act v.clock.delta).entity) ∈ v.act.1.entities) ∧
        (w.Unmarked → w.despawnVanished → ∀ p ∈ v.act.1.entities, ¬p.2.controller.isDeletable) := by
  refine ⟨fun id => count_vanishings hw id inputs, ?_⟩
  intro dt v hd
  have hmarks : ∀ p ∈ v.act.1.entities, p.2.vanished = p.2.controller.isDeletable := by
    intro p hp
    exact vanished_of_mem_act hd hp
  refine ⟨hmarks, ?_, ?_⟩
  · intro p hp hlive
    exact mem_act_of_not_isDeletable hd hp hlive
  · intro hu hdespawn p hp
    obtain ⟨hunmarked, hkept⟩ := unmarked_after hu hdespawn inputs
    have hact : v.act.1.Unmarked := unmarked_act hunmarked hkept
    have hmark := hact p hp
    rw [hmarks p hp] at hmark
    simp [hmark]

theorem marks_agree_rebound :
    let script : ScriptSet := ⟨"twice", [[.vanish], [.wait 0.25, .vanish]]⟩
    let e : Entity Stock := { sprite := { position := 0 }, controller := Controller.manual.bind script 0 }
    let w : World Stock := { entities := [(0, e)], nextId := 1 }
    let strict : World Stock := { w with despawnVanished := true }
    let inputs : List (Input Stock) := [.frame 0.5, .control 0 (.selectSequence 1), .frame 0.125, .frame 0.5]
    let rebound : List (Input Stock) := [.control 0 (.selectSequence 1), .frame 0.125]
    w.Numbered ∧ (w.vanishings inputs).count 0 = w.markings 0 inputs ∧ w.markings 0 inputs = 2 ∧
      strict.Unmarked ∧ ((strict.after rebound).entity? 0).isSome ∧
      ∀ p ∈ ((strict.after rebound).advanceClock 0.5).act.1.entities, ¬p.2.controller.isDeletable := by
  intro script e w strict inputs rebound
  have hw : w.Numbered := ⟨by decide, by decide⟩
  have hstrict : strict.Numbered := ⟨by decide, by decide⟩
  have hmarkings : w.markings 0 inputs = 2 := by decide +kernel
  have hunmarked : strict.Unmarked := by
    intro p hp
    rw [List.mem_singleton.1 hp]
  have hthere : ((strict.after rebound).entity? 0).isSome := by decide +kernel
  have hruns : ¬((strict.after rebound).advanceClock 0.5).clock.delta ≤ 0 := by decide +kernel
  obtain ⟨hcount, -⟩ := marks_agree hw inputs
  obtain ⟨-, hpass⟩ := marks_agree hstrict rebound
  obtain ⟨-, -, hgone⟩ := hpass 0.5 hruns
  exact ⟨hw, hcount 0, hmarkings, hunmarked, hthere, hgone hunmarked rfl⟩

end World

end MotionScript
