import MotionScript.Generator.Stock
import MotionScript.Proofs.Playback.History
import MotionScript.Proofs.Playback.Passage

/-!
# While a script stands still

Neither under manual control nor after its end does a script go on, whatever times pass.

* `Controller.Frozen`: the controllers whose script stands still.
* `Scene.Stands`, `Scene.stands_updates`: what updates leave as it is while the script stands still.
* `Scene.updates_of_vanished`: after the end of a script, updates hand over once what a binding has put off, and
  do nothing else.
* `Scene.handed_update`: after an update nothing waits that has been put off.
* `Scene.update_reaching_vanish`: the end of a script is the last thing that happens in its update.
* `Controller.frozen_script`: all of it, after any operations of an owner.
-/

namespace MotionScript

variable {γ β : Type}

/-- The script of the controller stands still. -/
def Controller.Frozen (c : Controller γ) : Prop := c.mode = .manual ∨ c.mode = .vanished

/-- Nothing that a binding has put off waits for an entity any more. -/
def Controller.Handed (c : Controller γ) : Prop := c.pendingAnimation = none ∧ c.activation ≠ .pending

/-- A generator that neither moves nor turns an entity. -/
def KeepsPose (γ β : Type) [Target β] [Generator γ β] : Prop :=
  ∀ (g : γ) (call : Call) (b : β),
    Target.position (Generator.call g call b).2.1 = Target.position b ∧
      Target.rotation (Generator.call g call b).2.1 = Target.rotation b

/-- Of a playhead that stands still, no more than the time goes on. -/
theorem Playhead.update_of_frozen {p : Playhead} (h : p.mode = .manual ∨ p.mode = .vanished) (delta : Scalar) :
    ∃ elapsed, p.update delta = { p with elapsed := elapsed } := by
  rcases h with hm | hm
  · exact ⟨_, update_manual hm delta⟩
  · exact ⟨p.elapsed, update_vanished hm delta⟩

namespace Scene

/-- **The script stands still** from `s` to `t`. -/
structure Stands (s t : Scene γ β) : Prop where
  script : t.controller.script = s.controller.script
  sequence : t.controller.sequence = s.controller.sequence
  step : t.controller.step = s.controller.step
  mode : t.controller.mode = s.controller.mode
  path : t.controller.path = s.controller.path
  spawn : t.controller.spawn = s.controller.spawn
  reached : t.reached = s.reached

theorem Stands.rfl {s : Scene γ β} : s.Stands s := by constructor <;> simp

theorem Stands.trans {s t u : Scene γ β} (h : s.Stands t) (h' : t.Stands u) : s.Stands u where
  script := h'.script.trans h.script
  sequence := h'.sequence.trans h.sequence
  step := h'.step.trans h.step
  mode := h'.mode.trans h.mode
  path := h'.path.trans h.path
  spawn := h'.spawn.trans h.spawn
  reached := h'.reached.trans h.reached

variable [Target β] [Generator γ β] {s : Scene γ β}

/-! ## Updates while the script stands still -/

/-- **An update** of a frozen controller leaves the script where it is. -/
theorem stands_update (h : s.controller.Frozen) (delta : Scalar) : s.Stands (s.update delta) := by
  obtain ⟨elapsed, hfrozen⟩ := Playhead.update_of_frozen (p := s.controller.playhead) h delta
  have hp := (playhead_update s delta).trans hfrozen
  have hstep : (s.update delta).controller.step = s.controller.step := congrArg Playhead.step hp
  -- no step is reached, because playback reaches those up to the new current one
  have hreaches := (reaches_update s delta).2
  rw [hstep, stretch_self] at hreaches
  obtain ⟨-, hspawn, -⟩ := controller_flush_tick s delta
  have hreported := (reports_flush_tick s delta).1
  exact
    { script := congrArg Playhead.script hp
      sequence := congrArg Playhead.sequence hp
      step := hstep
      mode := congrArg Playhead.mode hp
      path := congrArg Playhead.path hp
      spawn := hreaches.spawn.trans hspawn
      reached := by simpa [hreported] using hreaches.reached }

/-- **Updates** leave it there, whatever times pass. -/
theorem stands_updates (deltas : List Scalar) (h : s.controller.Frozen) : s.Stands (deltas.foldl update s) := by
  induction deltas generalizing s with
  | nil => exact .rfl
  | cons delta deltas ih =>
    have hone := stands_update h delta
    have hnext : (s.update delta).controller.Frozen := by
      unfold Controller.Frozen
      rw [hone.mode]
      exact h
    exact hone.trans (ih hnext)

/-! ## After the end of the script -/

/-- An entity that the script has ended is only handed what a binding has put off. -/
theorem update_of_vanished (h : s.controller.mode = .vanished) (delta : Scalar) : s.update delta = s.flush := by
  have hdeletable : s.flush.controller.isDeletable := by
    have hmode : s.flush.controller.mode = s.controller.mode := congrArg Playhead.mode (playhead_flush s)
    unfold Controller.isDeletable
    rw [hmode, h]
    simp
  rw [update_vanished h]
  unfold tick
  simp [hdeletable]

/-- What has been put off is handed over once. -/
theorem flush_handed (s : Scene γ β) : s.flush.controller.Handed := by
  obtain ⟨t, ht, h⟩ := flush_cases s
  obtain ⟨hanimation, hactivation⟩ : t.controller.pendingAnimation = none ∧
      t.controller.activation = s.controller.activation := by
    rcases ht with ⟨hn, rfl⟩ | ⟨n, -, rfl⟩
    · exact ⟨hn, rfl⟩
    · exact ⟨rfl, rfl⟩
  rcases h with ⟨hpending, h⟩ | ⟨-, h⟩
  · rw [h]
    exact ⟨hanimation, hactivation ▸ hpending⟩
  · obtain ⟨g, hc, -⟩ := controller_callGenerator (t.control fun c => { c with activation := .active }) 0
    rw [h, hc]
    exact ⟨hanimation, by simp⟩

theorem flush_of_handed {s : Scene γ β} (h : s.controller.Handed) : s.flush = s := by
  obtain ⟨hanimation, hactivation⟩ := h
  obtain ⟨t, ⟨-, rfl⟩ | ⟨n, hn, -⟩, h⟩ := flush_cases s
  · rcases h with ⟨-, h⟩ | ⟨hpending, -⟩
    · exact h
    · exact absurd hpending hactivation
  · rw [hanimation] at hn
    cases hn

theorem flush_flush (s : Scene γ β) : s.flush.flush = s.flush := flush_of_handed (flush_handed s)

/-- **However many updates** an entity gets after the end of its script, they are no more than one. -/
theorem updates_of_vanished (h : s.controller.mode = .vanished) (deltas : List Scalar) :
    deltas.foldl update s = if deltas = [] then s else s.flush := by
  induction deltas generalizing s with
  | nil => rfl
  | cons delta deltas ih =>
    have hmode : s.flush.controller.mode = .vanished := (congrArg Playhead.mode (playhead_flush s)).trans h
    rw [List.foldl_cons, update_of_vanished h, ih hmode, flush_flush]
    simp

omit [Target β] in
theorem handed_callGenerator (h : s.controller.Handed) (delta : Scalar) :
    (s.callGenerator delta).controller.Handed := by
  obtain ⟨g, hg, -⟩ := controller_callGenerator s delta
  rw [hg]
  exact h

theorem handed_reach (h : s.controller.Handed) (rest : List Step) (step : Step) :
    (s.reach rest step).controller.Handed := by
  have henter : (s.controller.enter rest step).Handed := by cases step <;> exact h
  rcases deliver_cases ((s.note (.reached s.controller.step step)).control (·.enter rest step)) step with
    ⟨n, -, -, hdeliver⟩ | ⟨p, -, -, -, hdeliver⟩ | ⟨-, -, hdeliver⟩
  · rw [reach, hdeliver]
    exact henter
  · rw [reach, hdeliver]
    exact handed_callGenerator ⟨henter.1, by simp⟩ 0
  · rw [reach, hdeliver]
    exact henter

/-- Once it is handed over, no stage of an update puts anything off. -/
theorem kept_handed : Kept fun s : Scene γ β => s.controller.Handed where
  flush s _ := flush_handed s
  tick s delta h := by
    unfold tick
    split
    · exact handed_callGenerator h delta
    · exact h
  drift s dt h := by
    obtain ⟨v, hv⟩ := controller_drift s dt
    rw [hv]
    exact h
  follow s time h := by
    rw [controller_follow]
    exact h
  clock _ _ h := h
  reach _ rest step h := handed_reach h rest step
  next _ h := h
  leave _ h := h

/-- **After an update** nothing waits any more: only bindings put anything off. -/
theorem handed_update (s : Scene γ β) (delta : Scalar) : (s.update delta).controller.Handed := by
  -- what has been put off before the update is the first that it hands over
  have hflush : s.flush.update delta = s.update delta := by
    unfold update
    rw [flush_flush]
  rw [← hflush]
  exact kept_handed.update delta (flush_handed s)

/-- The calls that hand over what has been put off: one at most, and without time. -/
theorem calls_flush (s : Scene γ β) : s.flush.calls = s.calls ++
    if s.controller.generator.isSome ∧ s.controller.activation = .pending then [s.controller.spawn.call 0] else [] := by
  cases hg : s.controller.generator with
  | some g =>
    have hsome : s.controller.generator.isSome := by simp [hg]
    obtain ⟨-, -, hcalls⟩ := reports_flush s
    simpa using hcalls hsome
  | none =>
    -- nobody is called
    obtain ⟨t, ht, h⟩ := flush_cases s
    obtain ⟨hcalls, hnone⟩ : t.calls = s.calls ∧ t.controller.generator = none := by
      rcases ht with ⟨-, rfl⟩ | ⟨n, -, rfl⟩
      · exact ⟨rfl, hg⟩
      · exact ⟨(reports_switch _ n).2.2, hg⟩
    have hflush : s.flush.calls = t.calls := by
      rcases h with ⟨-, h⟩ | ⟨-, h⟩
      · rw [h]
      · have hnone' : (t.control fun c => { c with activation := .active }).controller.generator = none := hnone
        rw [h, callGenerator_of_none hnone']
        rfl
    simp [hflush, hcalls]

/-- Handing over what has been put off leaves the entity where it is, if the generator does. -/
theorem alike_flush [LawfulTarget β] (h : KeepsPose γ β) (s : Scene γ β) : s.flush.Alike s := by
  obtain ⟨t, ht, hflush⟩ := flush_cases s
  have hswitch : t.Alike s := by
    rcases ht with ⟨-, rfl⟩ | ⟨n, -, rfl⟩
    · exact .rfl
    · exact ⟨LawfulTarget.position_animate _ _, LawfulTarget.rotation_animate _ _⟩
  rcases hflush with ⟨-, hflush⟩ | ⟨-, hflush⟩
  · rw [hflush]
    exact hswitch
  · have hcall : s.flush.Alike t := by
      rw [hflush]
      unfold callGenerator
      split
      · exact ⟨rfl, rfl⟩
      · next g _ =>
        obtain ⟨hposition, hrotation⟩ := h g ⟨0, t.controller.spawn.speed, t.controller.spawn.direction⟩ t.body
        exact ⟨hposition, hrotation⟩
    exact hcall.trans hswitch

/-! ## Reaching the end -/

theorem reached_reach (s : Scene γ β) (rest : List Step) (step : Step) :
    (s.reach rest step).reached = s.reached ++ [step] := by
  unfold reach
  rw [(reports_deliver _ step).1]
  exact filterMap_note s _ _

/-- Playback that reaches the end of the script does nothing after it. -/
theorem play_reaching_vanish (rest : List Step) (hs : .vanish ∉ s.reached) (h : .vanish ∈ (play rest s).reached) :
    ∃ (q : Scene γ β) (rest' : List Step), .vanish ∉ q.reached ∧ play rest s = q.reach rest' .vanish := by
  -- on the steps ahead; the first of them that ends the script is where playback stops
  have hover (t : Scene γ β) : t.overflow.reached = t.reached := by simpa using (reaches_overflow t).reached
  induction rest generalizing s with
  | nil =>
    rw [play, hover] at h
    exact absurd h hs
  | cons step rest ih =>
    rw [play_cons] at h ⊢
    by_cases hv : step = .vanish
    · subst hv
      have hdeletable : (s.reach rest .vanish).controller.isDeletable := by rfl
      rw [if_neg (by decide), if_pos hdeletable]
      exact ⟨s, rest, hs, rfl⟩
    · have hreached : .vanish ∉ (s.reach rest step).reached := by
        rw [reached_reach]
        simp [hs, Ne.symm hv]
      have hovered : .vanish ∉ (s.reach rest step).overflow.reached := by rwa [hover]
      split at h
      · next hi =>
        rw [if_pos hi]
        exact ih hreached h
      · next hi =>
        split at h
        · exact absurd h hreached
        · next hd =>
          split at h
          · next hdue =>
            rw [if_neg hi, if_neg hd, if_pos hdue]
            have hleft : .vanish ∉ (s.reach rest step).overflow.leave.reached := by
              have hleave := (reaches_leave (s.reach rest step).overflow).reached
              rw [hleave]
              simpa using hovered
            exact ih hleft h
          · exact absurd h hovered

/-- **An update that reaches the end of the script** does nothing after it. -/
theorem update_reaching_vanish (hs : s.journal = []) {delta : Scalar} (h : .vanish ∈ (s.update delta).reached) :
    ∃ (q : Scene γ β) (rest : List Step), .vanish ∉ q.reached ∧ s.update delta = q.reach rest .vanish := by
  have hempty : s.reached = [] := by simp [reached, events, hs]
  have hprepared : (s.flush.tick delta).reached = [] := (reports_flush_tick s delta).1.trans hempty
  by_cases hfrozen : s.controller.Frozen
  · rw [(stands_update hfrozen delta).reached, hempty] at h
    cases h
  · obtain ⟨hmanual, hvanished⟩ := not_or.1 hfrozen
    have hdriven : s.controller.mode = .move ∨ s.controller.mode = .path := Mode.driven hvanished hmanual
    cases hsteps : s.controller.steps? with
    | none =>
      rw [update_unbound hdriven hsteps, hprepared] at h
      cases h
    | some steps =>
      rw [update_driven hdriven hsteps] at h ⊢
      have hproceed : ((s.flush.tick delta).proceed delta).reached = [] := by
        simpa [hprepared] using (reaches_proceed (s.flush.tick delta) delta).reached
      unfold playOn at h ⊢
      dsimp only at h ⊢
      split at h
      · next hd =>
        rw [if_pos hd]
        have hleave : ((s.flush.tick delta).proceed delta).leave.reached = [] := by
          simpa [hproceed] using (reaches_leave ((s.flush.tick delta).proceed delta)).reached
        exact play_reaching_vanish _ (by simp [hleave]) h
      · rw [hproceed] at h
        cases h

/-- Nothing is entered in the journal of an update behind the end of the script. -/
theorem nothing_after_vanish (hs : s.journal = []) {delta : Scalar} {before later : List (Event β)} {k : ℕ}
    (h : (s.update delta).events = before ++ .reached k .vanish :: later) : later = [] := by
  have hvanish : .vanish ∈ (s.update delta).reached := by
    unfold reached
    rw [h]
    simp [Event.step?]
  obtain ⟨q, rest, hq, hlast⟩ := update_reaching_vanish hs hvanish
  have hevents : (q.reach rest .vanish).events = q.events ++ [.reached q.controller.step .vanish] :=
    events_of_append (l := [_]) rfl
  rw [hlast, hevents] at h
  -- whatever came behind it would put the end among the earlier entries
  rcases List.eq_nil_or_concat later with hnil | ⟨later', e, rfl⟩
  · exact hnil
  · rw [List.concat_eq_append, ← List.cons_append, ← List.append_assoc] at h
    obtain ⟨hbefore, -⟩ := List.append_inj' h rfl
    refine absurd ?_ hq
    unfold reached
    rw [hbefore]
    simp [Event.step?]

end Scene

namespace Controller

variable [Target β] [LawfulTarget β] [Generator γ β]

/-- **A script stands still under manual control and after its end.** Whatever times pass, no step is reached,
and script, sequence, step, mode, path and the parameters of the generator stay. After the end of the script all
else stays as well, the entity included if its generator neither moves nor turns it, and the generator gets no
call but one without time that a binding has put off. In the update that ends the script nothing happens after
the end. -/
theorem frozen_script (ops : List (Operation γ β)) (body : β) :
    let c : Controller γ := after ops
    let start : Scene γ β := { controller := c, body }
    (c.Frozen → ∀ deltas : List Scalar,
      let s := deltas.foldl Scene.update start
      s.controller.script = c.script ∧ s.controller.sequence = c.sequence ∧ s.controller.step = c.step ∧
        s.controller.mode = c.mode ∧ s.controller.path = c.path ∧ s.controller.spawn = c.spawn ∧ s.reached = []) ∧
    (c.mode = .vanished → ∀ deltas : List Scalar,
      let s := deltas.foldl Scene.update start
      s.controller.elapsed = c.elapsed ∧ s.controller.target = c.target ∧ s.controller.velocity = c.velocity ∧
        s.controller.acceleration = c.acceleration ∧ (KeepsPose γ β → s.Alike start) ∧
        (s.calls = [] ∨ s.calls = [c.spawn.call 0] ∧ c.activation = .pending)) ∧
    ∀ delta before k later,
      (start.update delta).events = before ++ .reached k .vanish :: later → later = [] := by
  intro c start
  refine ⟨fun hfrozen deltas => ?_, fun hvanished deltas => ?_, fun delta before k later h => ?_⟩
  · have hstands := Scene.stands_updates (s := start) deltas hfrozen
    exact ⟨hstands.script, hstands.sequence, hstands.step, hstands.mode, hstands.path, hstands.spawn,
      hstands.reached⟩
  · intro s
    have hs : s = if deltas = [] then start else start.flush := Scene.updates_of_vanished (s := start) hvanished deltas
    obtain ⟨g, activation, n, hc, -, -⟩ := Scene.controller_flush start
    have hcalls := Scene.calls_flush start
    split at hs
    · rw [hs]
      exact ⟨rfl, rfl, rfl, rfl, fun _ => .rfl, .inl rfl⟩
    · have hcontroller : s.controller = { c with generator := g, activation := activation, pendingAnimation := n } := by
        rw [hs, hc]
      refine ⟨?_, ?_, ?_, ?_, fun hkeeps => ?_, ?_⟩
      · simp [hcontroller]
      · simp [hcontroller]
      · simp [hcontroller]
      · simp [hcontroller]
      · rw [hs]
        exact Scene.alike_flush hkeeps start
      · rw [hs, hcalls]
        split
        · next hpending => exact .inr ⟨rfl, hpending.2⟩
        · exact .inl rfl
  · exact Scene.nothing_after_vanish rfl h

theorem frozen_script_gone :
    let gone : ScriptSet := ⟨"gone", [[.generate 1 2, .animate 3, .vanish], [.move 0 10, .wait 0.25, .vanish]]⟩
    let ops : List (Operation Stock Body) := [.setGenerator (some (.singleShot none)), .bind gone 0]
    let fly : List (Operation Stock Body) := [.bind gone 1]
    let start : Scene Stock Body := { controller := after ops, body := {} }
    let s := ([0 / 0, 0.5] : List Scalar).foldl Scene.update start
    (after ops).mode = .vanished ∧ s.reached = [] ∧ s.calls = [⟨0, 1, 2⟩] ∧ s.Alike start ∧
      (Scene.update { controller := after fly, body := ({} : Body) } 1).events =
        [.drifted 1 0.25, .left 1, .reached 2 .vanish] ∧
      ∀ later, (Scene.update { controller := after fly, body := ({} : Body) } 1).events =
        [.drifted 1 0.25, .left 1] ++ .reached 2 .vanish :: later → later = [] := by
  intro gone ops fly start s
  have hvanished : (after ops).mode = .vanished := by decide +kernel
  have hspawn : (after ops).spawn = ⟨1, 2⟩ := by decide +kernel
  have hkeeps : KeepsPose Stock Body := fun _ _ _ => ⟨rfl, rfl⟩
  have hcalls : s.calls ≠ [] := by decide +kernel
  have hevents : (Scene.update { controller := after fly, body := ({} : Body) } 1).events =
      [.drifted 1 0.25, .left 1, .reached 2 .vanish] := by decide +kernel
  obtain ⟨hfrozen, hgone, -⟩ := frozen_script ops ({} : Body)
  obtain ⟨-, -, -, -, -, -, hreached⟩ := hfrozen (.inr hvanished) [0 / 0, 0.5]
  obtain ⟨-, -, -, -, halike, hone⟩ := hgone hvanished [0 / 0, 0.5]
  obtain ⟨hcall, -⟩ := hone.resolve_left hcalls
  rw [hspawn] at hcall
  obtain ⟨-, -, hlast⟩ := frozen_script fly ({} : Body)
  exact ⟨hvanished, hreached, hcall, halike hkeeps, hevents, fun later h => hlast 1 _ 2 later h⟩

end Controller

end MotionScript
