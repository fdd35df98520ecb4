import MotionScript.Proofs.World.Arrivals
import MotionScript.Proofs.World.Marks

/-!
# Frozen frames

A frame in which no time passes may be left out, as long as nobody but the generators puts commands in the queue.

* `World.Shown`, `World.shown`: what there is to see of an arrival.
* `World.SameButTime`: worlds that differ in how far their clocks have come.
* `World.thaw`: a run without its frozen frames.
* `World.frozen_invisible`: a run shows the same without them.
-/

namespace MotionScript

namespace World

variable {γ : Type}

/-- What there is to see of an arrival. -/
structure Shown (γ : Type) where
  /-- What the first pass makes of each entity: the calls of its generator, the commands, whether it vanishes. -/
  outcomes : List (ℕ × Entity.Outcome γ)
  /-- The entities that the second pass adds. -/
  spawned : List (ℕ × Entity γ)
  /-- The entities that are taken away, among them those that have just been added. -/
  gone : List ℕ
  /-- The entities afterwards. -/
  entities : List (ℕ × Entity γ)

/-- **The worlds differ in how far their clocks have come**, and in nothing else. -/
def SameButTime (w v : World γ) : Prop := ∃ clock, clock.timeScale = w.clock.timeScale ∧ v = { w with clock }

/-- There is nothing to see. -/
def Shown.nothing (w : World γ) : Shown γ := { outcomes := [], spawned := [], gone := [], entities := w.entities }

variable [Generator γ Sprite]

/-- The entities that the second pass of a frame adds. -/
def spawnedBy (w : World γ) : Arrival γ → List (ℕ × Entity γ)
  | .input (.frame dt) =>
    let v := (w.advanceClock dt).act.1
    v.spawn.entities.drop v.entities.length
  | _ => []

/-- What the first pass of a frame makes of each entity. -/
def outcomesOf (w : World γ) : Arrival γ → List (ℕ × Entity.Outcome γ)
  | .input input => (w.report input).outcomes
  | _ => []

/-- What there is to see of an arrival. -/
def shown (w : World γ) (arrival : Arrival γ) : Shown γ where
  outcomes := w.outcomesOf arrival
  spawned := w.spawnedBy arrival
  gone := ((w.entities ++ w.spawnedBy arrival).map (·.1)).filter fun id =>
    id ∉ (w.receive arrival).entities.map (·.1)
  entities := (w.receive arrival).entities

/-- What there is to see of a run. -/
def story : World γ → List (Arrival γ) → List (Shown γ)
  | _, [] => []
  | w, arrival :: arrivals => w.shown arrival :: story (w.receive arrival) arrivals

/-- What there is to see of a run besides its frozen frames. -/
def stirring : World γ → List (Arrival γ) → List (Shown γ)
  | _, [] => []
  | w, arrival :: arrivals =>
    if w.Freezes arrival then stirring (w.receive arrival) arrivals
    else w.shown arrival :: stirring (w.receive arrival) arrivals

/-- The run without its frozen frames. -/
def thaw : World γ → List (Arrival γ) → List (Arrival γ)
  | _, [] => []
  | w, arrival :: arrivals =>
    if w.Freezes arrival then thaw (w.receive arrival) arrivals
    else arrival :: thaw (w.receive arrival) arrivals

/-! ## Clocks -/

section Clocks

variable {w v u : World γ}

omit [Generator γ Sprite] in
theorem SameButTime.refl (w : World γ) : SameButTime w w := ⟨w.clock, rfl, rfl⟩

omit [Generator γ Sprite] in
theorem SameButTime.trans (h : SameButTime w v) (h' : SameButTime v u) : SameButTime w u := by
  obtain ⟨clock, hscale, rfl⟩ := h
  obtain ⟨clock', hscale', rfl⟩ := h'
  exact ⟨clock', hscale'.trans hscale, rfl⟩

omit [Generator γ Sprite] in
theorem SameButTime.symm (h : SameButTime w v) : SameButTime v w := by
  obtain ⟨clock, hscale, rfl⟩ := h
  exact ⟨w.clock, hscale.symm, rfl⟩

/-- The first pass asks of the clock no more than how much time passes in the frame. -/
theorem act_clock (w : World γ) {clock : Clock} (h : clock.delta = w.clock.delta) :
    { w with clock }.act = ({ w.act.1 with clock }, w.act.2) := by
  unfold act
  dsimp only
  rw [h]
  split <;> rfl

omit [Generator γ Sprite] in
/-- The last pass asks no more of it either. -/
theorem expire_clock (w : World γ) {clock : Clock} (h : clock.delta = w.clock.delta) :
    { w with clock }.expire = { w.expire with clock } := by
  unfold expire
  dsimp only
  rw [h]
  split <;> rfl

/-- What the clock has shown before the frame does not matter to the first pass, if its speed is the same. -/
theorem act_advanceClock (w : World γ) {clock : Clock} (h : clock.timeScale = w.clock.timeScale) (dt : Scalar) :
    ({ w with clock }.advanceClock dt).act =
      ({ (w.advanceClock dt).act.1 with clock := clock.advance dt }, (w.advanceClock dt).act.2) :=
  act_clock (w.advanceClock dt) (congrArg (dt * ·) h)

/-- **What the clock has shown before a frame does not matter**, if its speed is the same. -/
theorem frame_clock (w : World γ) {clock : Clock} (h : clock.timeScale = w.clock.timeScale) (dt : Scalar) :
    { w with clock }.frame dt = ({ (w.frame dt).1 with clock := clock.advance dt }, (w.frame dt).2) := by
  have hdelta : (clock.advance dt).delta = (w.clock.advance dt).delta := congrArg (dt * ·) h
  have hkept : (clock.advance dt).delta = (w.advanceClock dt).act.1.spawn.clock.delta :=
    hdelta.trans (congrArg Clock.delta (act_settings (w.advanceClock dt)).1.symm)
  have hexpire := expire_clock (w.advanceClock dt).act.1.spawn hkept
  show ((({ w with clock }.advanceClock dt).act.1).spawn.expire, ({ w with clock }.advanceClock dt).act.2) = _
  rw [act_advanceClock w h]
  exact Prod.ext hexpire rfl

/-- **Nobody sees how far a clock has come.** -/
theorem SameButTime.receive (h : SameButTime w v) (arrival : Arrival γ) :
    SameButTime (w.receive arrival) (v.receive arrival) ∧ w.shown arrival = v.shown arrival := by
  obtain ⟨clock, hscale, rfl⟩ := h
  cases arrival with
  | input input =>
    cases input with
    | frame dt =>
      have hframe := frame_clock w hscale dt
      have hspawned : { w with clock }.spawnedBy (.input (.frame dt)) = w.spawnedBy (.input (.frame dt)) := by
        unfold spawnedBy
        dsimp only
        rw [act_advanceClock w hscale]
        rfl
      have houtcomes : { w with clock }.outcomesOf (.input (.frame dt)) = w.outcomesOf (.input (.frame dt)) :=
        congrArg (·.2.outcomes) hframe
      have hentities : ({ w with clock }.receive (.input (.frame dt))).entities =
          (w.receive (.input (.frame dt))).entities := congrArg (·.1.entities) hframe
      refine ⟨?_, ?_⟩
      · have hspeed : (w.frame dt).1.clock = w.clock.advance dt := (step_settings w (.frame dt)).1
        show SameButTime (w.frame dt).1 ({ w with clock }.frame dt).1
        rw [hframe]
        exact ⟨clock.advance dt, by rw [hspeed]; exact hscale, rfl⟩
      · unfold shown
        rw [hspawned, hentities, houtcomes]
    | control id op => exact ⟨⟨clock, hscale, rfl⟩, rfl⟩
  | rescale timeScale => exact ⟨⟨{ clock with timeScale }, rfl, rfl⟩, rfl⟩
  | request commands => exact ⟨⟨clock, hscale, rfl⟩, rfl⟩

end Clocks

/-! ## Stillness -/

section Still

variable {w v : World γ} {arrival : Arrival γ} {arrivals : List (Arrival γ)}

omit [Generator γ Sprite] in
/-- Without commands nothing is spawned. -/
theorem spawn_of_empty (hqueue : w.queue.getD [] = []) : w.spawn = w := by
  have hqueue' : w.queue.map (fun _ => ([] : List Command)) = w.queue := by
    cases hq : w.queue with
    | none => rfl
    | some pending =>
      rw [hq, Option.getD_some] at hqueue
      rw [hqueue]
      rfl
  unfold spawn addAll
  rw [hqueue', hqueue]
  simp

/-- **In a frozen frame nothing happens** to a world in whose queue there is nothing. -/
theorem nothing_of_freezes (hqueue : w.queue.getD [] = []) (hfreezes : w.Freezes arrival) :
    w.shown arrival = .nothing w ∧ SameButTime w (w.receive arrival) := by
  cases arrival with
  | input input =>
    cases input with
    | frame dt =>
      have hdelta : (w.clock.advance dt).delta ≤ 0 := hfreezes
      have hact : (w.advanceClock dt).act = (w.advanceClock dt, {}) := if_pos hdelta
      have hspawn : (w.advanceClock dt).spawn = w.advanceClock dt := spawn_of_empty hqueue
      have hexpire : (w.advanceClock dt).expire = w.advanceClock dt := if_pos hdelta
      have hframe : w.frame dt = (w.advanceClock dt, {}) := by
        show ((w.advanceClock dt).act.1.spawn.expire, (w.advanceClock dt).act.2) = _
        rw [hact, hspawn, hexpire]
      have hreceive : w.receive (.input (.frame dt)) = w.advanceClock dt := congrArg Prod.fst hframe
      have hspawned : w.spawnedBy (.input (.frame dt)) = [] := by
        unfold spawnedBy
        dsimp only
        rw [hact, hspawn, List.drop_length]
      have houtcomes : w.outcomesOf (.input (.frame dt)) = [] := congrArg (·.2.outcomes) hframe
      have hstay : (w.advanceClock dt).entities = w.entities := rfl
      refine ⟨?_, hreceive ▸ ⟨w.clock.advance dt, rfl, rfl⟩⟩
      unfold shown Shown.nothing
      rw [houtcomes, hspawned, hreceive, hstay, List.append_nil]
      simp
    | control id op => exact hfreezes.elim
  | rescale timeScale => exact hfreezes.elim
  | request commands => exact hfreezes.elim

/-- The queue stays empty between frames, if the generators alone put commands in it. -/
theorem queue_of_quiet (hqueue : w.queue.getD [] = []) (hquiet : w.sentBeside arrival = []) :
    (w.receive arrival).queue.getD [] = [] := by
  rw [queue_receive, hquiet]
  cases hq : w.queue with
  | none => rfl
  | some pending =>
    rw [hq, Option.getD_some] at hqueue
    rw [hqueue]
    simp

/-- The run without its frozen frames keeps up with the whole run. -/
theorem thaw_along (hqueue : w.queue.getD [] = [])
    (hquiet : w.Throughout (fun v arrival => v.sentBeside arrival = []) arrivals) (h : SameButTime w v) :
    w.stirring arrivals = v.story (w.thaw arrivals) ∧
      SameButTime (w.receiveAll arrivals) (v.receiveAll (w.thaw arrivals)) := by
  induction arrivals generalizing w v with
  | nil => exact ⟨rfl, h⟩
  | cons arrival arrivals ih =>
    obtain ⟨hfirst, hrest⟩ := hquiet
    have hqueue' := queue_of_quiet hqueue hfirst
    unfold stirring thaw
    by_cases hfreezes : w.Freezes arrival
    · -- the other run stays where it is
      obtain ⟨-, hsame⟩ := nothing_of_freezes hqueue hfreezes
      rw [if_pos hfreezes, if_pos hfreezes]
      exact ih hqueue' hrest (hsame.symm.trans h)
    · obtain ⟨hsame, hshown⟩ := h.receive arrival
      obtain ⟨hstory, hafter⟩ := ih hqueue' hrest hsame
      rw [if_neg hfreezes, if_neg hfreezes, story, hshown, hstory]
      exact ⟨rfl, hafter⟩

theorem nothing_throughout (hqueue : w.queue.getD [] = [])
    (hquiet : w.Throughout (fun v arrival => v.sentBeside arrival = []) arrivals) :
    w.Throughout (fun v arrival => v.Freezes arrival → v.shown arrival = .nothing v ∧ SameButTime v (v.receive arrival))
      arrivals := by
  induction arrivals generalizing w with
  | nil => trivial
  | cons arrival arrivals ih =>
    obtain ⟨hfirst, hrest⟩ := hquiet
    exact ⟨nothing_of_freezes hqueue, ih (queue_of_quiet hqueue hfirst) hrest⟩

/-- **Frozen frames are invisible**, whatever comes to a world in whose queue nobody but the generators puts commands,
and those in frames. Without its frozen frames a run shows the same: what the updates make of the entities, with the
calls of the generators and with what vanishes, what is spawned, what is taken away, and the entities as they are
each time. In a frozen frame there is nothing to see, so no generator is called in it, and the world is the same
afterwards but for its clock. -/
theorem frozen_invisible (hqueue : w.queue.getD [] = [])
    (hquiet : w.Throughout (fun v arrival => v.sentBeside arrival = []) arrivals) :
    w.story (w.thaw arrivals) = w.stirring arrivals ∧
      SameButTime (w.receiveAll arrivals) (w.receiveAll (w.thaw arrivals)) ∧
      w.Throughout (fun v arrival =>
        v.Freezes arrival → v.shown arrival = .nothing v ∧ SameButTime v (v.receive arrival)) arrivals := by
  obtain ⟨hstory, hafter⟩ := thaw_along hqueue hquiet (.refl w)
  exact ⟨hstory.symm, hafter, nothing_throughout hqueue hquiet⟩

theorem frozen_invisible_to_gun :
    let shoot : ScriptSet := ⟨"shoot", [[.generate 4 90, .wait 1, .generate 2 0]]⟩
    let gun : Entity Stock :=
      { sprite := { position := 0 }
        controller := (Controller.manual.setGenerator (some (.singleShot (some 2)))).bind shoot 0 }
    let w : World Stock := { entities := [(0, gun)], nextId := 1 }
    let arrivals : List (Arrival Stock) :=
      [.input (.frame 0.5), .rescale 0, .input (.frame 0.5), .input (.control 0 (.selectSequence 0)), .rescale 1,
        .input (.frame (-1)), .input (.frame 0.25)]
    let awake : List (Arrival Stock) :=
      [.input (.frame 0.5), .rescale 0, .input (.control 0 (.selectSequence 0)), .rescale 1, .input (.frame 0.25)]
    w.Throughout (fun v arrival => v.sentBeside arrival = []) arrivals ∧ w.thaw arrivals = awake ∧
      w.story awake = w.stirring arrivals ∧ ((w.receiveAll awake).entities.map (·.1)) = [0, 1, 2] := by
  intro shoot gun w arrivals awake
  have hquiet : w.Throughout (fun v arrival => v.sentBeside arrival = []) arrivals := by
    refine ⟨rfl, rfl, rfl, ?_, rfl, rfl, rfl, trivial⟩
    decide +kernel
  have hthaw : w.thaw arrivals = awake := by
    -- the third and the sixth are dropped
    rw [thaw, if_neg (by decide +kernel), thaw, if_neg (by decide +kernel), thaw, if_pos (by decide +kernel), thaw,
      if_neg (by decide +kernel), thaw, if_neg (by decide +kernel), thaw, if_pos (by decide +kernel), thaw,
      if_neg (by decide +kernel)]
    rfl
  obtain ⟨hstory, -, -⟩ := frozen_invisible rfl hquiet
  rw [hthaw] at hstory
  exact ⟨hquiet, hthaw, hstory, by decide +kernel⟩

end Still

end World

end MotionScript
