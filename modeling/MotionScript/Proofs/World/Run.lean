import MotionScript.Proofs.Playback.Settled
import MotionScript.World.Basic

/-!
# Runs of a world

A world goes from frame to frame, and between frames the owners of its entities do what they like with their
controllers. Here is what becomes of one entity in each pass of a frame.

* `Entity.vanished_act`: the mark of an entity after an update.
* `World.Input`, `World.step`, `World.after`: what comes to a world, and the world after it.
* `World.sentFor`, `World.sentOver`: the commands that the generator of an entity sends.
* `World.Numbered`, `World.numbered_after`: entities keep numbers of their own.
* `World.entity?_act`, `World.entity?_spawn`, `World.entity?_expire`: an entity in the passes of a frame.
* `World.queue_act`: what the entities send is what the queue gets.
-/

namespace MotionScript

variable {γ : Type}

/-! ## Look-ups -/

section Lookup

variable {α δ : Type} {l : List (ℕ × α)}

theorem lookup_cons_of_ne {i j : ℕ} (h : i ≠ j) (a : α) (l : List (ℕ × α)) : ((j, a) :: l).lookup i = l.lookup i := by
  have hbeq : (i == j) = false := by simpa using h
  rw [List.lookup_cons, hbeq]

/-- Where numbers do not repeat, a look-up finds whatever the list holds. -/
theorem lookup_eq_some_iff_mem (hl : (l.map (·.1)).Nodup) {i : ℕ} {a : α} : l.lookup i = some a ↔ (i, a) ∈ l := by
  induction l with
  | nil => simp
  | cons p l ih =>
    obtain ⟨j, b⟩ := p
    rw [List.map_cons, List.nodup_cons] at hl
    obtain ⟨hj, hl⟩ := hl
    by_cases hij : i = j
    · subst hij
      have hnot : (i, a) ∉ l := by
        intro hm
        exact hj (List.mem_map.2 ⟨(i, a), hm, rfl⟩)
      simp [hnot, eq_comm]
    · rw [lookup_cons_of_ne hij, ih hl]
      simp [hij]

/-- A number that the list does not hold is not found. -/
theorem lookup_eq_none_of_not_mem {i : ℕ} (h : i ∉ l.map (·.1)) : l.lookup i = none := by
  rw [List.lookup_eq_none_iff]
  intro p hp
  have hne : i ≠ p.1 := fun heq => h (heq ▸ List.mem_map_of_mem hp)
  simpa using hne

/-- Where numbers do not repeat, a look-up after each element has been changed or dropped. -/
theorem lookup_filterMap (hl : (l.map (·.1)).Nodup) (f : ℕ → α → Option δ) (i : ℕ) :
    (l.filterMap fun p => (f p.1 p.2).map (p.1, ·)).lookup i = (l.lookup i).bind (f i) := by
  induction l with
  | nil => rfl
  | cons p l ih =>
    obtain ⟨j, b⟩ := p
    rw [List.map_cons, List.nodup_cons] at hl
    obtain ⟨hj, hl⟩ := hl
    by_cases hij : i = j
    · subst hij
      -- what is dropped is not found further on either
      have hrest : l.lookup i = none := lookup_eq_none_of_not_mem hj
      cases hf : f i b with
      | none => simp [hf, ih hl, hrest]
      | some d => simp [hf]
    · rw [lookup_cons_of_ne hij, ← ih hl]
      cases hf : f j b with
      | none => simp [hf]
      | some d => simp [hf, lookup_cons_of_ne hij]

/-- A look-up after each element has been changed. -/
theorem lookup_map (f : ℕ → α → δ) (i : ℕ) :
    (l.map fun p => (p.1, f p.1 p.2)).lookup i = (l.lookup i).map (f i) := by
  induction l with
  | nil => rfl
  | cons p l ih =>
    obtain ⟨j, b⟩ := p
    by_cases hij : i = j
    · subst hij
      simp
    · rw [List.map_cons, lookup_cons_of_ne hij, lookup_cons_of_ne hij, ih]

/-- Dropping elements drops numbers. -/
theorem map_fst_filterMap_sublist (f : ℕ → α → Option δ) :
    ((l.filterMap fun p => (f p.1 p.2).map (p.1, ·)).map (·.1)).Sublist (l.map (·.1)) := by
  induction l with
  | nil => simp
  | cons p l ih =>
    cases hf : f p.1 p.2 with
    | none => simpa [hf] using ih.cons p.1
    | some d => simpa [hf] using ih.cons_cons p.1

end Lookup

/-! ## Entities in a frame -/

namespace Entity

theorem mark_eq (deletable marked : Bool) : mark deletable marked = (deletable, deletable && !marked) := by
  cases deletable <;> cases marked <;> rfl

variable [Generator γ Sprite]

/-- **After an update the mark says whether the script has ended the entity**, whatever the mark was before. -/
theorem vanished_act (e : Entity γ) (delta : Scalar) :
    (e.act delta).entity.vanished = (e.act delta).entity.controller.isDeletable :=
  congrArg Prod.fst (mark_eq _ e.vanished)

/-- An entity has just vanished if its script has ended it and it was not marked. -/
theorem vanishedNow_act (e : Entity γ) (delta : Scalar) :
    (e.act delta).vanishedNow = ((e.act delta).entity.controller.isDeletable && !e.vanished) :=
  congrArg Prod.snd (mark_eq _ e.vanished)

/-- What the first pass of a frame leaves of an entity, in a world that takes away what vanishes or not. -/
def afterPass (e : Entity γ) (delta : Scalar) (despawn : Bool) : Option (Entity γ) :=
  if delta ≤ 0 then some e
  else if despawn && (e.act delta).vanishedNow then none else some (e.act delta).entity

omit [Generator γ Sprite] in
/-- What the last pass of a frame leaves of an entity. -/
def afterAging (e : Entity γ) (delta : Scalar) : Option (Entity γ) := if delta ≤ 0 then some e else e.age delta

omit [Generator γ Sprite] in
/-- Growing older changes no more of an entity than its lifetime. -/
theorem exists_lifetime {e e' : Entity γ} {delta : Scalar} (h : e.afterAging delta = some e') :
    ∃ lifetime, e' = { e with lifetime } := by
  unfold afterAging age at h
  split at h
  · cases h
    exact ⟨e.lifetime, rfl⟩
  · split at h
    · cases h
      exact ⟨e.lifetime, rfl⟩
    · dsimp only at h
      split at h
      · cases h
      · cases h
        exact ⟨_, rfl⟩

/-- The commands that an entity sends in a frame. -/
def commandsIn (e : Entity γ) (delta : Scalar) : List Command := if delta ≤ 0 then [] else (e.act delta).commands

end Entity

/-- The commands that an operation of its owner has the generator of a controller send. -/
def Controller.sentBy {β : Type} [Target β] [Generator γ β] (c : Controller γ) : Operation γ β → List Command
  | .update delta body => (Scene.update { controller := c, body } delta).sent
  | _ => []

namespace World

/-! ## Runs -/

/-- What comes to a world from outside. -/
inductive Input (γ : Type) where
  /-- A frame of `dt` seconds of real time. -/
  | frame (dt : Scalar)
  /-- What the owner of an entity does with its controller between frames. -/
  | control (id : ℕ) (op : Operation γ Sprite)

/-- The input concerns an entity: it is a frame, or an operation on its controller. -/
def Input.Concerns (id : ℕ) : Input γ → Bool
  | .frame _ => true
  | .control i _ => i == id

variable [Generator γ Sprite]

/-- The commands that an operation on the controller of an entity has its generator send. -/
def sentBy (w : World γ) (id : ℕ) (op : Operation γ Sprite) : List Command :=
  ((w.entity? id).map (·.controller.sentBy op)).getD []

/-- The world after an input. -/
def step (w : World γ) : Input γ → World γ
  | .frame dt => (w.frame dt).1
  | .control id op => (w.modify id (·.perform op)).send (w.sentBy id op)

/-- The world after inputs, one after the other. -/
def after (w : World γ) (inputs : List (Input γ)) : World γ := inputs.foldl step w

/-- The commands that the generator of an entity sends because of an input, in order. -/
def sentFor (w : World γ) (id : ℕ) : Input γ → List Command
  | .frame dt => ((w.frame dt).2.events id).filterMap Event.command?
  | .control i op => if i = id then w.sentBy id op else []

/-- The commands that the generator of an entity sends over a run, in order. -/
def sentOver (id : ℕ) : World γ → List (Input γ) → List Command
  | _, [] => []
  | w, input :: inputs => w.sentFor id input ++ sentOver id (w.step input) inputs

/-! ## Numbers -/

/-- **Every entity has a number of its own**, and the numbers that are still to be given are free. -/
structure Numbered (w : World γ) : Prop where
  nodup : (w.entities.map (·.1)).Nodup
  lt : ∀ i ∈ w.entities.map (·.1), i < w.nextId

variable {w v : World γ}

omit [Generator γ Sprite] in
/-- Numbers stay free as entities go. -/
theorem Numbered.of_sublist (h : w.Numbered) (hids : (v.entities.map (·.1)).Sublist (w.entities.map (·.1)))
    (hnext : v.nextId = w.nextId) : v.Numbered where
  nodup := h.nodup.sublist hids
  lt i hi := by
    rw [hnext]
    exact h.lt i (hids.subset hi)

omit [Generator γ Sprite] in
theorem Numbered.advanceClock (h : w.Numbered) (dt : Scalar) : (w.advanceClock dt).Numbered := ⟨h.nodup, h.lt⟩

omit [Generator γ Sprite] in
theorem Numbered.lt_of_entity? (h : w.Numbered) {id : ℕ} {e : Entity γ} (he : w.entity? id = some e) :
    id < w.nextId := by
  have hmem : (id, e) ∈ w.entities := (lookup_eq_some_iff_mem h.nodup).1 he
  exact h.lt id (List.mem_map_of_mem hmem)

omit [Generator γ Sprite] in
/-- The numbers of new entities. -/
theorem map_fst_zip_range' (n : ℕ) (es : List (Entity γ)) :
    (((List.range' n es.length).zip es).map (·.1)) = List.range' n es.length := by
  rw [← List.unzip_fst, List.unzip_zip_left]
  simp

omit [Generator γ Sprite] in
/-- New entities get new numbers. -/
theorem numbered_addAll (h : w.Numbered) (es : List (Entity γ)) : (w.addAll es).Numbered := by
  have hids : (w.addAll es).entities.map (·.1) = w.entities.map (·.1) ++ List.range' w.nextId es.length := by
    unfold addAll
    rw [List.map_append, map_fst_zip_range']
  have hnext : (w.addAll es).nextId = w.nextId + es.length := rfl
  constructor
  · rw [hids, List.nodup_append]
    refine ⟨h.nodup, List.nodup_range', ?_⟩
    intro i hi j hj hij
    have hlt := h.lt i hi
    have hge := (List.mem_range'_1.1 hj).1
    omega
  · intro i hi
    rw [hids, List.mem_append] at hi
    rw [hnext]
    rcases hi with hi | hi
    · have hlt := h.lt i hi
      omega
    · exact (List.mem_range'_1.1 hi).2

/-! ## The passes of a frame -/

/-- The entities after the first pass. -/
theorem entities_act (w : World γ) : w.act.1.entities =
    w.entities.filterMap fun p => (p.2.afterPass w.clock.delta w.despawnVanished).map (p.1, ·) := by
  unfold act
  split
  · next hd => simp [Entity.afterPass, hd]
  · next hd =>
    dsimp only [send]
    rw [List.filterMap_map]
    congr 1
    funext p
    simp only [Function.comp, Entity.afterPass, if_neg hd]
    split <;> simp

/-- All else that the first pass changes is the queue. -/
theorem act_settings (w : World γ) : w.act.1.clock = w.clock ∧ w.act.1.nextId = w.nextId ∧
    w.act.1.despawnVanished = w.despawnVanished := by
  unfold act
  split <;> simp [send]

omit [Generator γ Sprite] in
/-- The entities after the last pass. -/
theorem entities_expire (w : World γ) : w.expire.entities =
    w.entities.filterMap fun p => (p.2.afterAging w.clock.delta).map (p.1, ·) := by
  unfold expire
  split
  · next hd => simp [Entity.afterAging, hd]
  · next hd => simp [Entity.afterAging, hd]

omit [Generator γ Sprite] in
theorem expire_settings (w : World γ) : w.expire.clock = w.clock ∧ w.expire.nextId = w.nextId ∧
    w.expire.despawnVanished = w.despawnVanished := by
  unfold expire
  split <;> simp

theorem numbered_act (h : w.Numbered) : w.act.1.Numbered := by
  refine h.of_sublist ?_ (act_settings w).2.1
  rw [entities_act]
  exact map_fst_filterMap_sublist fun _ (e : Entity γ) => e.afterPass w.clock.delta w.despawnVanished

omit [Generator γ Sprite] in
theorem numbered_spawn (h : w.Numbered) : w.spawn.Numbered := by
  have hadd := numbered_addAll h ((w.queue.getD []).map (Entity.ofCommand (w.curve.getD {})))
  exact ⟨hadd.nodup, hadd.lt⟩

omit [Generator γ Sprite] in
theorem numbered_expire (h : w.Numbered) : w.expire.Numbered := by
  refine h.of_sublist ?_ (expire_settings w).2.1
  rw [entities_expire]
  exact map_fst_filterMap_sublist fun _ (e : Entity γ) => e.afterAging w.clock.delta

omit [Generator γ Sprite] in
theorem entities_modify (w : World γ) (id : ℕ) (f : Controller γ → Controller γ) : (w.modify id f).entities =
    w.entities.map fun p => (p.1, if p.1 = id then { p.2 with controller := f p.2.controller } else p.2) := by
  unfold modify
  dsimp only
  congr 1
  funext p
  split <;> rfl

/-- **Numbers stay in order** whatever comes to the world. -/
theorem numbered_step (h : w.Numbered) (input : Input γ) : (w.step input).Numbered := by
  cases input with
  | frame dt => exact numbered_expire (numbered_spawn (numbered_act (h.advanceClock dt)))
  | control id op =>
    refine h.of_sublist ?_ rfl
    have hids : (w.step (.control id op)).entities.map (·.1) = w.entities.map (·.1) := by
      show (w.modify id (·.perform op)).entities.map (·.1) = _
      rw [entities_modify, List.map_map]
      rfl
    rw [hids]

theorem numbered_after (h : w.Numbered) (inputs : List (Input γ)) : (w.after inputs).Numbered := by
  induction inputs generalizing w with
  | nil => exact h
  | cons input inputs ih => exact ih (numbered_step h input)

/-! ## One entity -/

/-- **An entity in the first pass** is on its own. -/
theorem entity?_act (h : w.Numbered) (id : ℕ) : w.act.1.entity? id =
    (w.entity? id).bind (·.afterPass w.clock.delta w.despawnVanished) := by
  unfold entity?
  rw [entities_act]
  exact lookup_filterMap h.nodup (fun _ e => e.afterPass w.clock.delta w.despawnVanished) id

omit [Generator γ Sprite] in
/-- An entity that is there is not concerned by what is spawned. -/
theorem entity?_spawn {id : ℕ} (hid : id < w.nextId) : w.spawn.entity? id = w.entity? id := by
  have hnew (es : List (Entity γ)) : ((List.range' w.nextId es.length).zip es).lookup id = none := by
    apply lookup_eq_none_of_not_mem
    rw [map_fst_zip_range', List.mem_range'_1]
    omega
  unfold spawn entity? addAll
  dsimp only
  rw [List.lookup_append, hnew, Option.or_none]

omit [Generator γ Sprite] in
/-- **An entity in the last pass** is on its own. -/
theorem entity?_expire (h : w.Numbered) (id : ℕ) : w.expire.entity? id =
    (w.entity? id).bind (·.afterAging w.clock.delta) := by
  unfold entity?
  rw [entities_expire]
  exact lookup_filterMap h.nodup (fun _ e => e.afterAging w.clock.delta) id

omit [Generator γ Sprite] in
theorem entity?_modify (w : World γ) (id i : ℕ) (f : Controller γ → Controller γ) : (w.modify i f).entity? id =
    (w.entity? id).map fun e => if id = i then { e with controller := f e.controller } else e := by
  unfold entity?
  rw [entities_modify]
  exact lookup_map (fun j (e : Entity γ) => if j = i then { e with controller := f e.controller } else e) id

/-- What the first pass reports of an entity is its own. -/
theorem lookup_outcomes_act (w : World γ) (id : ℕ) : w.act.2.outcomes.lookup id =
    if w.clock.delta ≤ 0 then none else (w.entity? id).map (·.act w.clock.delta) := by
  unfold act
  split
  · rfl
  · exact lookup_map (fun _ (e : Entity γ) => e.act w.clock.delta) id

/-- The commands that the first pass reports of an entity are its own. -/
theorem commands_act (w : World γ) (id : ℕ) : (w.act.2.events id).filterMap Event.command? =
    (w.entity? id).elim [] (·.commandsIn w.clock.delta) := by
  unfold Report.events
  rw [lookup_outcomes_act]
  cases w.entity? id with
  | none => simp
  | some e =>
    by_cases hd : w.clock.delta ≤ 0
    · simp [Entity.commandsIn, hd]
    · simp [Entity.commandsIn, hd, Entity.Outcome.commands]

/-- **The queue holds what the entities send**, entity after entity. -/
theorem queue_act (h : w.Numbered) : w.act.1.queue =
    w.queue.map (· ++ w.entities.flatMap fun p => (w.act.2.events p.1).filterMap Event.command?) := by
  have hown : ∀ p ∈ w.entities, (w.act.2.events p.1).filterMap Event.command? = p.2.commandsIn w.clock.delta := by
    intro p hp
    have he : w.entity? p.1 = some p.2 := (lookup_eq_some_iff_mem h.nodup).2 hp
    rw [commands_act, he, Option.elim_some]
  rw [List.flatMap_congr hown]
  unfold act
  split
  · next hd =>
    have hsilent : w.entities.flatMap (fun p => p.2.commandsIn w.clock.delta) = [] := by
      simp [Entity.commandsIn, hd]
    simp [hsilent]
  · next hd => simp [Entity.commandsIn, hd, send, List.flatMap_map]

/-! ## Whole inputs -/

/-- **An entity in a frame** is on its own. -/
theorem entity?_frame (h : w.Numbered) {id : ℕ} (hid : id < w.nextId) (dt : Scalar) : (w.frame dt).1.entity? id =
    ((w.entity? id).bind (·.afterPass (w.clock.advance dt).delta w.despawnVanished)).bind
      (·.afterAging (w.clock.advance dt).delta) := by
  have hclock := h.advanceClock dt
  have hact := numbered_act hclock
  obtain ⟨hdelta, hnext, -⟩ := act_settings (w.advanceClock dt)
  have hlt : id < (w.advanceClock dt).act.1.nextId := by
    rw [hnext]
    exact hid
  have hspawn : (w.advanceClock dt).act.1.spawn.clock = w.clock.advance dt := hdelta
  show ((w.advanceClock dt).act.1.spawn.expire).entity? id = _
  rw [entity?_expire (numbered_spawn hact), hspawn, entity?_spawn hlt, entity?_act hclock]
  rfl

/-- In a frame without time an entity stays as it is. -/
theorem entity?_frame_of_le (h : w.Numbered) {id : ℕ} (hid : id < w.nextId) {dt : Scalar}
    (hdelta : (w.clock.advance dt).delta ≤ 0) : (w.frame dt).1.entity? id = w.entity? id := by
  rw [entity?_frame h hid]
  cases w.entity? id with
  | none => rfl
  | some e => simp [Entity.afterPass, Entity.afterAging, hdelta]

/-- An entity and an operation on some controller. -/
theorem entity?_control (w : World γ) (id i : ℕ) (op : Operation γ Sprite) : (w.step (.control i op)).entity? id =
    (w.entity? id).map fun e => if id = i then { e with controller := e.controller.perform op } else e :=
  entity?_modify w id i (·.perform op)

/-- Besides the entities and the queue, an input moves the clock, and numbers are given. -/
theorem step_settings (w : World γ) (input : Input γ) :
    (w.step input).clock = (match input with
      | .frame dt => w.clock.advance dt
      | .control _ _ => w.clock) ∧
    (w.step input).despawnVanished = w.despawnVanished ∧ w.nextId ≤ (w.step input).nextId := by
  cases input with
  | frame dt =>
    obtain ⟨hclock, hnext, hdespawn⟩ := act_settings (w.advanceClock dt)
    obtain ⟨hclock', hnext', hdespawn'⟩ := expire_settings (w.advanceClock dt).act.1.spawn
    refine ⟨hclock'.trans hclock, hdespawn'.trans hdespawn, ?_⟩
    have hgiven : (w.advanceClock dt).act.1.nextId ≤ (w.advanceClock dt).act.1.spawn.nextId := Nat.le_add_right _ _
    show w.nextId ≤ ((w.advanceClock dt).act.1.spawn.expire).nextId
    rw [hnext']
    exact hnext.ge.trans hgiven
  | control i op => exact ⟨rfl, rfl, le_rfl⟩

end World

end MotionScript
