import MotionScript.Generator.Stock
import MotionScript.Proofs.World.Arrivals

/-!
# What becomes of requests

Commands wait in the queue for the next frame. Its second pass makes an entity of each of them, and the queue is empty
again.

* `Entity.Meets`: an entity is what a command asks for.
* `World.waiting`: the commands that have been sent since the last frame of a run.
* `World.requests_met`: every command gets its entity, in the next frame, and only one.
-/

namespace MotionScript

variable {γ : Type}

/-- **An entity is what a command asks for**, where curves are drawn as finely as given. -/
def Entity.Meets (curve : CurveSettings) : Command → Entity γ → Prop
  | .projectile position direction speed lifetime, e =>
    e.sprite = { position := position.plane, depth := some position.z, rotation := some direction } ∧
      e.controller.mode = .manual ∧ e.controller.script = none ∧
      e.controller.velocity = .ofAngle direction speed ∧ e.controller.acceleration = 0 ∧
      e.controller.generator.isNone ∧ e.lifetime = lifetime ∧ e.vanished = false
  | .scripted position script sequence, e =>
    e.sprite =
        { position := position.plane, depth := some position.z, rotation := some 0, animation := some {} } ∧
      e.controller = (Controller.manual.setCurve curve).bind script sequence ∧
      (script.sequences.length ≤ sequence → e.controller = Controller.manual.setCurve curve) ∧
      e.lifetime = none ∧ e.vanished = false

/-- What a command asks for it gets. -/
theorem Entity.meets_ofCommand (curve : CurveSettings) (command : Command) :
    Meets curve command (ofCommand (γ := γ) curve command) := by
  cases command with
  | projectile position direction speed lifetime => exact ⟨rfl, rfl, rfl, rfl, rfl, rfl, rfl, rfl⟩
  | scripted position script sequence => exact ⟨rfl, rfl, fun h => if_neg (Nat.not_lt.2 h), rfl, rfl⟩

namespace World

variable [Generator γ Sprite] {w : World γ} {pending : List Command}

/-! ## The queue -/

/-- The commands that have been sent since the last frame of a run, and before it those that have been pending. -/
def waiting : World γ → List Command → List (Arrival γ) → List Command
  | _, pending, [] => pending
  | w, pending, arrival :: arrivals =>
    waiting (w.receive arrival) (if arrival.IsFrame then [] else pending ++ w.sentBeside arrival) arrivals

/-- **The queue holds what is waiting.** -/
theorem queue_receiveAll (hqueue : w.queue = some pending) (arrivals : List (Arrival γ)) :
    (w.receiveAll arrivals).queue = some (w.waiting pending arrivals) := by
  induction arrivals generalizing w pending with
  | nil => exact hqueue
  | cons arrival arrivals ih =>
    have hqueue' := queue_receive w arrival
    rw [hqueue] at hqueue'
    exact ih hqueue'

/-! ## New entities -/

theorem curve_act (w : World γ) : w.act.1.curve = w.curve := by
  unfold act
  split <;> rfl

omit [Generator γ Sprite] in
/-- The second pass gives each command its entity. -/
theorem entities_spawn (hqueue : w.queue = some pending) : w.spawn.entities =
    w.entities ++ (List.range' w.nextId pending.length).zip (pending.map (Entity.ofCommand (w.curve.getD {}))) := by
  show w.entities ++ (List.range' w.nextId ((w.queue.getD []).map _).length).zip ((w.queue.getD []).map _) = _
  rw [hqueue, Option.getD_some, List.length_map]

omit [Generator γ Sprite] in
theorem nextId_spawn (hqueue : w.queue = some pending) : w.spawn.nextId = w.nextId + pending.length := by
  show w.nextId + ((w.queue.getD []).map _).length = _
  rw [hqueue, Option.getD_some, List.length_map]

omit [Generator γ Sprite] in
/-- The new entities are there after the second pass. -/
theorem entity?_spawn_new (hw : w.Numbered) (hqueue : w.queue = some pending) {k : ℕ} (hk : k < pending.length) :
    w.spawn.entity? (w.nextId + k) = some (Entity.ofCommand (w.curve.getD {}) pending[k]) := by
  have hmem : (w.nextId + k, Entity.ofCommand (w.curve.getD {}) pending[k]) ∈ w.spawn.entities := by
    rw [entities_spawn hqueue]
    refine List.mem_append_right _ (List.mem_iff_getElem.2 ⟨k, by simpa using hk, ?_⟩)
    simp
  exact (lookup_eq_some_iff_mem (numbered_spawn hw).nodup).2 hmem

/-- A frame gives as many numbers as there are commands in its second pass. -/
theorem nextId_frame {dt : Scalar} (hqueue : (w.advanceClock dt).act.1.queue = some pending) :
    (w.frame dt).1.nextId = w.nextId + pending.length := by
  obtain ⟨-, hnext, -⟩ := act_settings (w.advanceClock dt)
  have hexpire : (w.frame dt).1.nextId = (w.advanceClock dt).act.1.spawn.nextId := (expire_settings _).2.1
  rw [hexpire, nextId_spawn hqueue, hnext]
  rfl

/-- **A new entity** is older by the time of its first frame already. -/
theorem entity?_frame_new (hw : w.Numbered) {dt : Scalar} (hqueue : (w.advanceClock dt).act.1.queue = some pending)
    {k : ℕ} (hk : k < pending.length) : (w.frame dt).1.entity? (w.nextId + k) =
      (Entity.ofCommand (w.curve.getD {}) pending[k]).afterAging (w.clock.advance dt).delta := by
  have hact : (w.advanceClock dt).act.1.Numbered := numbered_act (hw.advanceClock dt)
  obtain ⟨hclock, hnext, -⟩ := act_settings (w.advanceClock dt)
  have hcurve : (w.advanceClock dt).act.1.curve = w.curve := curve_act (w.advanceClock dt)
  have hnew : (w.advanceClock dt).act.1.spawn.entity? (w.nextId + k) =
      some (Entity.ofCommand (w.curve.getD {}) pending[k]) := by
    rw [← hcurve]
    exact hnext ▸ entity?_spawn_new hact hqueue hk
  have hexpire := entity?_expire (numbered_spawn hact) (w.nextId + k)
  rw [hnew, Option.bind_some] at hexpire
  exact hexpire.trans (congrArg _ (congrArg _ hclock))

/-! ## While no time passes -/

/-- **While no time passes** an entity looks as it did. -/
theorem sprite_receive (hw : w.Numbered) {arrival : Arrival γ} (hfrozen : arrival.IsFrame → w.Freezes arrival)
    {id : ℕ} (hid : id < w.nextId) :
    ((w.receive arrival).entity? id).map (·.sprite) = (w.entity? id).map (·.sprite) ∧
      id < (w.receive arrival).nextId := by
  cases arrival with
  | input input =>
    refine ⟨?_, hid.trans_le (step_settings w input).2.2⟩
    cases input with
    | frame dt =>
      have hdelta : (w.clock.advance dt).delta ≤ 0 := hfrozen trivial
      show ((w.frame dt).1.entity? id).map _ = _
      rw [entity?_frame_of_le hw hid hdelta]
    | control i op =>
      show ((w.step (.control i op)).entity? id).map _ = _
      rw [entity?_control, Option.map_map]
      congr 1
      funext e
      simp only [Function.comp]
      split <;> rfl
  | rescale timeScale => exact ⟨rfl, hid⟩
  | request commands => exact ⟨rfl, hid⟩

theorem sprite_receiveAll (hw : w.Numbered) {arrivals : List (Arrival γ)}
    (hfrozen : w.Throughout (fun v arrival => arrival.IsFrame → v.Freezes arrival) arrivals) {id : ℕ}
    (hid : id < w.nextId) :
    ((w.receiveAll arrivals).entity? id).map (·.sprite) = (w.entity? id).map (·.sprite) := by
  induction arrivals generalizing w with
  | nil => rfl
  | cons arrival arrivals ih =>
    obtain ⟨hfirst, hrest⟩ := hfrozen
    obtain ⟨hsprite, hid⟩ := sprite_receive hw hfirst hid
    exact (ih (numbered_receive hw arrival) hrest hid).trans hsprite

/-! ## Requests -/

/-- **Requests are met**, whatever comes to a world with a queue. The second pass of every frame makes one entity of
each command that has been sent since the one before, between the frames or in the first pass, in the order in which
they have been sent, and these entities are all that is new. Each is what its command asks for, and after the frame
it is there as the command wants it, unless its lifetime is over at once. The queue is empty then. As long as no time
passes, whatever else happens, the new entity looks the same. -/
theorem requests_met (hw : w.Numbered) (hqueue : w.queue = some pending) (arrivals : List (Arrival γ))
    (dt : Scalar) :
    let u := w.receiveAll arrivals
    let v := (u.advanceClock dt).act.1
    let commands := w.waiting pending arrivals ++
      u.entities.flatMap fun p => ((u.frame dt).2.events p.1).filterMap Event.command?
    (u.frame dt).1 = v.spawn.expire ∧ (u.frame dt).1.queue = some [] ∧
      ∃ news : List (Entity γ), List.Forall₂ (Entity.Meets (u.curve.getD {})) commands news ∧
        v.spawn.entities = v.entities ++ (List.range' u.nextId news.length).zip news ∧ v.spawn.Numbered ∧
        ∀ (k : ℕ) (hk : k < news.length),
          (u.frame dt).1.entity? (u.nextId + k) = news[k].afterAging (u.clock.advance dt).delta ∧
            ∀ later, (u.frame dt).1.Throughout (fun v arrival => arrival.IsFrame → v.Freezes arrival) later →
              ∀ e, ((u.frame dt).1.receiveAll later).entity? (u.nextId + k) = some e →
                e.sprite = news[k].sprite := by
  intro u v commands
  have hu : u.Numbered := numbered_receiveAll hw arrivals
  have hv : v.Numbered := numbered_act (hu.advanceClock dt)
  have hwaiting : u.queue = some (w.waiting pending arrivals) := queue_receiveAll hqueue arrivals
  obtain ⟨-, hnext, -⟩ := act_settings (u.advanceClock dt)
  have hcommands : v.queue = some commands := by
    have hact := queue_act (hu.advanceClock dt)
    have hsame : (u.advanceClock dt).queue = some (w.waiting pending arrivals) := hwaiting
    rw [hsame] at hact
    exact hact
  have hcurve : v.curve = u.curve := curve_act (u.advanceClock dt)
  refine ⟨rfl, ?_, commands.map (Entity.ofCommand (u.curve.getD {})), ?_, ?_, numbered_spawn hv, ?_⟩
  · rw [queue_frame, hwaiting]
    rfl
  · rw [List.forall₂_map_right_iff, List.forall₂_same]
    exact fun command _ => Entity.meets_ofCommand (u.curve.getD {}) command
  · rw [entities_spawn hcommands, hcurve, hnext, List.length_map]
    rfl
  · intro k hk
    have hk' : k < commands.length := by simpa using hk
    have hframe := entity?_frame_new hu hcommands hk'
    rw [List.getElem_map]
    refine ⟨hframe, ?_⟩
    intro later hfrozen e he
    have hframed : (u.frame dt).1.Numbered := numbered_expire (numbered_spawn hv)
    have hlt : u.nextId + k < (u.frame dt).1.nextId := by
      rw [nextId_frame hcommands]
      omega
    have hsprite := sprite_receiveAll hframed hfrozen hlt
    rw [he, hframe, Option.map_some] at hsprite
    obtain ⟨e', haging, hlook⟩ := Option.map_eq_some_iff.1 hsprite.symm
    obtain ⟨lifetime, rfl⟩ := Entity.exists_lifetime haging
    exact hlook.symm

/-- A request from outside and one of a gun, in the same frame; then the clock is stopped. -/
theorem requests_met_of_two :
    let shoot : ScriptSet := ⟨"shoot", [[.generate 4 90, .wait 1]]⟩
    let gun : Entity Stock :=
      { sprite := { position := 0 }
        controller := (Controller.manual.setGenerator (some (.singleShot (some 2)))).bind shoot 0 }
    let w : World Stock := { entities := [(0, gun)], nextId := 1 }
    let u := w.receiveAll [.request [.scripted ⟨1, 2, 3⟩ shoot 1]]
    let later : List (Arrival Stock) := [.rescale 0, .input (.control 1 (.manualMove 0 1)), .input (.frame 0.25)]
    w.Numbered ∧ w.queue = some [] ∧ (u.frame 0.25).1.queue = some [] ∧
      (u.frame 0.25).1.Throughout (fun v arrival => arrival.IsFrame → v.Freezes arrival) later ∧
      ∃ news : List (Entity Stock),
        List.Forall₂ (Entity.Meets {}) [.scripted ⟨1, 2, 3⟩ shoot 1, .projectile ⟨0, 0, 0⟩ 90 4 (some 2)] news ∧
          ∀ (k : ℕ) (hk : k < news.length) (e : Entity Stock),
            ((u.frame 0.25).1.receiveAll later).entity? (1 + k) = some e → e.sprite = news[k].sprite := by
  intro shoot gun w u later
  have hw : w.Numbered := ⟨by decide, by decide⟩
  have hfrozen : (u.frame 0.25).1.Throughout (fun v arrival => arrival.IsFrame → v.Freezes arrival) later := by
    refine ⟨False.elim, False.elim, ?_, trivial⟩
    have hstill : (((u.frame 0.25).1.receiveAll [.rescale 0, .input (.control 1 (.manualMove 0 1))]).clock.advance
        0.25).delta ≤ 0 := by decide +kernel
    exact fun _ => hstill
  obtain ⟨-, hqueue, news, hmet, -, -, hnews⟩ := requests_met hw rfl [.request [.scripted ⟨1, 2, 3⟩ shoot 1]] 0.25
  have hcommands : w.waiting [] [.request [.scripted ⟨1, 2, 3⟩ shoot 1]] ++
      u.entities.flatMap (fun p => ((u.frame 0.25).2.events p.1).filterMap Event.command?) =
      [.scripted ⟨1, 2, 3⟩ shoot 1, .projectile ⟨0, 0, 0⟩ 90 4 (some 2)] := by
    decide +kernel
  rw [hcommands] at hmet
  exact ⟨hw, rfl, hqueue, hfrozen, news, hmet, fun k hk e he => (hnews k hk).2 later hfrozen e he⟩

/-- **A frame whose time is no number moves what has been spawned**, though its time is not positive. -/
theorem moved_without_number :
    let w : World Stock := { queue := some [.projectile ⟨0, 0, 0⟩ 0 10 none] }
    let u := (w.frame 0.5).1
    w.Numbered ∧ (u.entity? 0).map (·.sprite.position) = some ⟨0, 0⟩ ∧
      ¬0 < (u.clock.advance Scalar.nan).delta ∧
      ((u.frame Scalar.nan).1.entity? 0).map (·.sprite.position) = some ⟨Scalar.nan, Scalar.nan⟩ := by
  intro w u
  exact ⟨⟨by decide, by decide⟩, by decide +kernel, by decide +kernel, by decide +kernel⟩

end World

end MotionScript
