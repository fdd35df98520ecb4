import MotionScript.Proofs.Playback.Settled
import MotionScript.Proofs.Playback.Target
import MotionScript.Proofs.Scalar.Sign
import MotionScript.Generator.Stock

/-!
# After the end of a sequence

A controller at the end of its sequence still applies the motion that its last step has left behind. Here
is when that motion leaves the entity where it is.

* `Controller.Ended`: a controller without a generator, at the end of its sequence.
* `Controller.Still`: one with nothing left to move the entity by.
* `Scene.alike_updates`: under such a controller the entity stays as it is.
* `Scene.exists_moved_of_move`, `Scene.exists_moved_of_path`: every other controller moves some entity.
* `Controller.idle_keeps_entity_iff`: both, for the controllers that a run of updates leaves.
-/

namespace MotionScript

variable {γ β : Type}

namespace Controller

/-- A controller without a generator, at the end of its sequence. -/
structure Ended (steps : Sequence) (c : Controller γ) : Prop where
  generator : c.generator = none
  playing : c.steps? = some steps
  finished : c.step = steps.length
  mode : c.mode = .move ∨ c.mode = .path
  target : c.target = 0

/-- **Nothing is left to move the entity**: no time that the last step has been cut short by, or no path. -/
def Still (c : Controller γ) : Prop :=
  c.mode = .move ∧ ¬c.elapsed < 0 ∨ c.mode = .path ∧ c.path.waypoints = #[]

end Controller

namespace Scene

variable [Target β]

theorem follow_of_empty (s : Scene γ β) {time : Scalar} (h : s.controller.path.waypoints = #[]) :
    s.follow time = s.note (.followed s.controller.step time) := by
  have hposition : s.controller.path.position? time = none := by simp [PathTable.position?, h]
  have hheading : s.controller.path.heading? time = none := by simp [PathTable.heading?, h]
  unfold follow
  simp only [hposition, hheading]

variable [Generator γ β] [LawfulTarget β] {steps : Sequence} {s : Scene γ β} {delta : Scalar}

theorem ended_flush (h : s.controller.Ended steps) : s.flush.controller.Ended steps := by
  have hp := playhead_flush s
  exact
    { generator := (flush_of_none h.generator).1
      playing := (congrArg Playhead.steps? hp).trans h.playing
      finished := (congrArg Playhead.step hp).trans h.finished
      mode := by
        rw [show s.flush.controller.mode = s.controller.mode from congrArg Playhead.mode hp]
        exact h.mode
      target := (congrArg Playhead.target hp).trans h.target }

/-- At the end of a sequence there is nothing to do but go on with the motion. -/
theorem update_of_ended (h : s.controller.Ended steps) (delta : Scalar) : s.update delta = s.flush.proceed delta := by
  have hf := ended_flush h
  have hplay : s.flush.playOn delta steps = s.flush.proceed delta := by
    have hstep : (s.flush.proceed delta).controller.step = steps.length :=
      (congrArg Playhead.step (playhead_proceed s.flush delta)).trans hf.finished
    unfold playOn
    dsimp only
    rw [if_neg (by rw [hstep]; omega)]
  rw [update_driven h.mode h.playing, tick_of_none hf.generator, hplay]

theorem ended_update (h : s.controller.Ended steps) (delta : Scalar) :
    (s.update delta).controller.Ended steps := by
  have hf := ended_flush h
  have hp := playhead_proceed s.flush delta
  rw [update_of_ended h]
  exact
    { generator := (generator_advance s.flush _ _).trans hf.generator
      playing := (congrArg Playhead.steps? hp).trans hf.playing
      finished := (congrArg Playhead.step hp).trans hf.finished
      mode := by
        rw [show (s.flush.proceed delta).controller.mode = s.flush.controller.mode from congrArg Playhead.mode hp]
        exact hf.mode
      target := (congrArg Playhead.target hp).trans hf.target }

omit [Target β] [Generator γ β] [LawfulTarget β] in
theorem slice_le_zero {e d : Scalar} (he : ¬e < 0) (hd : d.isFinite ∧ 0 ≤ d) :
    Scalar.min (Scalar.max (0 - e) 0) d ≤ 0 := by
  unfold Scalar.max
  rw [if_neg (mt Scalar.zero_lt_zero_sub.1 he), if_neg (by decide)]
  unfold Scalar.min
  split
  · decide
  · next hpos =>
    split
    · decide
    · rw [Scalar.lt_iff rfl hd.1, not_lt] at hpos
      exact (Scalar.le_iff hd.1 rfl).2 hpos

/-- **An ended controller that is still leaves the entity where it is**, and it stays so. -/
theorem alike_update (h : s.controller.Ended steps) (hs : s.controller.Still) (hd : delta.isFinite ∧ 0 ≤ delta) :
    (s.update delta).Alike s ∧ (s.update delta).controller.Still := by
  have hf := ended_flush h
  have hp := playhead_flush s
  have hmode : s.flush.controller.mode = s.controller.mode := congrArg Playhead.mode hp
  have helapsed : s.flush.controller.elapsed = s.controller.elapsed := congrArg Playhead.elapsed hp
  have hpath : s.flush.controller.path = s.controller.path := congrArg Playhead.path hp
  have hflush := (flush_of_none (s := s) h.generator).2
  unfold Controller.Still at hs
  rw [← hmode, ← helapsed, ← hpath] at hs
  rw [update_of_ended h]
  generalize s.flush = t at *
  unfold proceed advance
  dsimp only
  rcases hs with ⟨hm, he⟩ | ⟨hm, hempty⟩
  · -- no time is left to the motion, and none comes back
    rw [hm]
    dsimp only
    rw [hf.target, drift_of_le t (slice_le_zero he hd)]
    refine ⟨⟨hflush.position, hflush.rotation⟩, .inl ⟨hm, ?_⟩⟩
    exact Scalar.add_not_lt_zero he hd.1 ((Scalar.le_iff rfl hd.1).1 hd.2)
  · rw [hm]
    dsimp only
    rw [follow_of_empty t hempty]
    exact ⟨⟨hflush.position, hflush.rotation⟩, .inr ⟨hm, hempty⟩⟩

theorem alike_updates (deltas : List Scalar) (h : s.controller.Ended steps) (hs : s.controller.Still)
    (hd : ∀ d ∈ deltas, d.isFinite ∧ 0 ≤ d) : (deltas.foldl Scene.update s).Alike s := by
  induction deltas generalizing s with
  | nil => exact .rfl
  | cons d deltas ih =>
    obtain ⟨hd, hrest⟩ := List.forall_mem_cons.1 hd
    obtain ⟨halike, hstill⟩ := alike_update h hs hd
    exact (ih (ended_update h d) hstill hrest).trans halike

end Scene

/-! ## What moves an entity -/

namespace Scene

variable [Generator γ Body] {steps : Sequence} {c : Controller γ}

omit [Generator γ Body] in
theorem position_drift (s : Scene γ Body) {dt : Scalar} (h : ¬dt ≤ 0) :
    (s.drift dt).body.position = s.body.position + .ofPlane (s.controller.velocity * dt) 0 := by
  unfold drift
  rw [if_neg h]
  dsimp only
  split
  · rfl
  · change Target.position (Scene.body _ : Body) = _
    rw [position_face]
    rfl

omit [Generator γ Body] in
theorem slice_pos {e : Scalar} (he : e < 0) : ¬Scalar.min (Scalar.max (0 - e) 0) 1 ≤ 0 := by
  have hpos := Scalar.zero_lt_zero_sub.2 he
  unfold Scalar.max
  rw [if_pos hpos]
  unfold Scalar.min
  split
  · exact Scalar.not_le_of_lt hpos
  · split
    · exact Scalar.not_le_of_lt hpos
    · decide

/-- A step cut short goes on for the time it lacks. The depth shows it, even without a velocity. -/
theorem exists_moved_of_move (h : c.Ended steps) (hm : c.mode = .move) (he : c.elapsed < 0) :
    ∃ body : Body, (Scene.update { controller := c, body } 1).body.position ≠ body.position := by
  let s : Scene γ Body := { controller := c, body := { position := ⟨0, 0, -0⟩ } }
  refine ⟨s.body, ?_⟩
  show (s.update 1).body.position ≠ ⟨0, 0, -0⟩
  have hf := ended_flush (s := s) h
  have hp := playhead_flush s
  have hmode : s.flush.controller.mode = .move := (congrArg Playhead.mode hp).trans hm
  have helapsed : s.flush.controller.elapsed < 0 := by
    rwa [show s.flush.controller.elapsed = c.elapsed from congrArg Playhead.elapsed hp]
  have hposition : s.flush.body.position = ⟨0, 0, -0⟩ := (flush_of_none (s := s) h.generator).2.position
  rw [update_of_ended (s := s) h]
  generalize s.flush = t at *
  unfold proceed advance
  dsimp only
  rw [hmode]
  dsimp only
  rw [body_control, hf.target, position_drift t (slice_pos helapsed), hposition]
  intro heq
  -- a negative zero does not survive that anything is added to it
  have hz : (-(0 : Scalar)) + 0 = -0 := congrArg Vec3.z heq
  exact absurd hz (by decide +kernel)

/-- A path holds on to its entity. -/
theorem exists_moved_of_path (h : c.Ended steps) (hm : c.mode = .path) (hw : c.path.waypoints ≠ #[]) :
    ∃ body : Body, (Scene.update { controller := c, body } 0).body.position ≠ body.position := by
  obtain ⟨p, hp⟩ := PathTable.exists_position hw (c.elapsed + Scalar.min (Scalar.max (c.target - c.elapsed) 0) 0)
  obtain ⟨x, hx⟩ : ∃ x : Scalar, p.x ≠ x := by
    by_cases h0 : p.x = 0
    · exact ⟨1, by rw [h0]; decide⟩
    · exact ⟨0, h0⟩
  let s : Scene γ Body := { controller := c, body := { position := ⟨x, 0, 0⟩ } }
  refine ⟨s.body, fun heq => hx ?_⟩
  have hplay := playhead_flush s
  have hmode : s.flush.controller.mode = .path := (congrArg Playhead.mode hplay).trans hm
  have hpath : s.flush.controller.path = c.path := congrArg Playhead.path hplay
  have helapsed : s.flush.controller.elapsed = c.elapsed := congrArg Playhead.elapsed hplay
  have htarget : s.flush.controller.target = c.target := congrArg Playhead.target hplay
  have hfollow : (s.update 0).body.position.plane = p := by
    rw [update_of_ended (s := s) h]
    unfold proceed advance
    dsimp only
    rw [hmode]
    dsimp only
    rw [body_control, helapsed, htarget]
    exact plane_follow s.flush (by rw [hpath]; exact hp)
  exact (congrArg Vec.x hfollow).symm.trans (congrArg Vec3.x heq)

end Scene

/-! ## Idle controllers -/

namespace Controller

/-- A controller that is idle after a run of updates has ended. -/
theorem ended_of_isIdle [Target β] [LawfulTarget β] [Generator γ β] (c : Controller γ) (hc : c.generator = none)
    {script : ScriptSet} {i : ℕ} {steps : Sequence} (hsteps : script.sequence? i = some steps)
    (deltas : List Scalar) (body : β) {d : Controller γ}
    (hd : d = (deltas.foldl Scene.update { controller := c.bind script i, body }).controller)
    (hidle : d.isIdle) : d.Ended steps := by
  have hgenerator : d.generator = none := by
    rw [hd]
    exact Scene.generator_updates ((generator_bind c script i).trans hc) deltas
  have hrun : d.playhead = deltas.foldl Playhead.update ((Playhead.start script i c.curve).scan steps) := by
    rw [hd, Scene.playhead_updates, playhead_bind c hsteps]
  have hstart := Playhead.steps?_scan_start c.curve hsteps
  have hplaying : d.steps? = some steps := by
    show d.playhead.steps? = some steps
    rw [hrun, Playhead.steps?_updates, hstart]
  have hsettled : d.playhead.Settled steps := by
    rw [hrun]
    exact (Playhead.settled_start script i c.curve steps).updates hstart deltas
  have hend : steps.length ≤ d.step := by
    rw [isIdle, hplaying] at hidle
    simpa using hidle
  have hfinished : d.step = steps.length := le_antisymm hsettled.step_le hend
  unfold Playhead.Settled at hsettled
  rw [show d.playhead.step = d.step from rfl, List.getElem?_eq_none hend] at hsettled
  exact ⟨hgenerator, hplaying, hfinished, hsettled.2.1, hsettled.2.2⟩

/-- **Which idle controllers leave their entity where it is.** A controller without a generator that is
idle after any updates does so, for whatever time it is updated, just if it is still. -/
theorem idle_keeps_entity_iff [Generator γ Body] (c : Controller γ) (hc : c.generator = none)
    {script : ScriptSet} {i : ℕ} {steps : Sequence} (hsteps : script.sequence? i = some steps)
    (deltas : List Scalar) (body : Body) {d : Controller γ}
    (hd : d = (deltas.foldl Scene.update { controller := c.bind script i, body }).controller)
    (hidle : d.isIdle) :
    (∀ s : Scene γ Body, s.controller = d → ∀ more : List Scalar, (∀ t ∈ more, t.isFinite ∧ 0 ≤ t) →
      (more.foldl Scene.update s).Alike s) ↔ d.Still := by
  have hended := ended_of_isIdle c hc hsteps deltas body hd hidle
  constructor
  · intro h
    by_contra hstill
    -- a motion needs time to show, a path none
    have hmoved : ∃ (body : Body) (t : Scalar), (t.isFinite ∧ 0 ≤ t) ∧
        (Scene.update { controller := d, body } t).body.position ≠ body.position := by
      rcases hended.mode with hm | hm
      · have he : d.elapsed < 0 := by
          by_contra he
          exact hstill (.inl ⟨hm, he⟩)
        obtain ⟨body, hb⟩ := Scene.exists_moved_of_move hended hm he
        exact ⟨body, 1, by decide, hb⟩
      · have hw : d.path.waypoints ≠ #[] := fun hw => hstill (.inr ⟨hm, hw⟩)
        obtain ⟨body, hb⟩ := Scene.exists_moved_of_path hended hm hw
        exact ⟨body, 0, by decide, hb⟩
    obtain ⟨body, t, ht, hb⟩ := hmoved
    exact hb (h { controller := d, body } rfl [t] (List.forall_mem_singleton.2 ht)).position
  · intro hstill s hs more hmore
    subst hs
    exact Scene.alike_updates more hended hstill hmore

theorem idle_keeps_entity_after_wait :
    let script : ScriptSet := ⟨"wait", [[.move 0 10, .wait 1]]⟩
    let start : Scene Stock Body := { controller := manual.bind script 0, body := {} }
    let d := (([0.5, 0.5] : List Scalar).foldl Scene.update start).controller
    d.isIdle ∧ ∀ s : Scene Stock Body, s.controller = d → ∀ more : List Scalar,
      (∀ t ∈ more, t.isFinite ∧ 0 ≤ t) → (more.foldl Scene.update s).Alike s := by
  intro script start d
  have hidle : d.isIdle := by decide +kernel
  have hstill : d.Still := .inl (by decide +kernel)
  exact ⟨hidle, (idle_keeps_entity_iff manual rfl rfl [0.5, 0.5] {} rfl hidle).2 hstill⟩

/-- A path that has ended takes its entity back to its start, and then along once more. -/
theorem ended_path_moves_entity :
    let script : ScriptSet := ⟨"path", [[.path 1 2 .linear, .point ⟨0, 0⟩, .point ⟨10, 0⟩]]⟩
    let run (deltas : List Scalar) : Scene Stock Body :=
      deltas.foldl Scene.update { controller := manual.bind script 0, body := {} }
    (run [0.5, 0.25, 0.25]).controller.isIdle ∧ (run [0.5, 0.25, 0.25]).controller.mode ≠ .manual ∧
      (run [0.5, 0.25, 0.25]).body.position = ⟨0, 0, 0⟩ ∧
      (run [0.5, 0.25, 0.25, 0.5, 0.25]).body.position = ⟨5, 0, 0⟩ := by
  decide +kernel

end Controller

end MotionScript
