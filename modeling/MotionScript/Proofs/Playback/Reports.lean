import MotionScript.Proofs.Playback.Journal

/-!
# What the journal reports

Whatever happens because of a script happens as a step is reached: a step may ask for an animation or set the
generator going. The journal reports the steps, the animations and the calls.

* `Step.spawn?`, `triggers`: what the steps of a list ask of the generator.
* `Scene.reached`, `Scene.switches`, `Scene.calls`: what is reported.
* `Scene.reports_flush_tick`: the reports of what comes before playback in an update.
* `Scene.reports_deliver`: the reports of what a step asks for.
-/

namespace MotionScript

variable {γ β : Type}

/-! ## What a step asks for -/

/-- The parameters with which a step sets the generator going. -/
def Step.spawn? : Step → Option SpawnParams
  | .generate speed direction => some ⟨speed, direction⟩
  | _ => none

/-- The call of a generator with these parameters after a time. -/
def SpawnParams.call (p : SpawnParams) (delta : Scalar) : Call := ⟨delta, p.speed, p.direction⟩

/-- The parameters of the last step of a list that sets the generator going. -/
def lastSpawn (steps : List Step) : Option SpawnParams := (steps.filterMap Step.spawn?).getLast?

/-- The calls that the steps of a list ask for, in order. -/
def triggers (steps : List Step) : List Call := (steps.filterMap Step.spawn?).map (·.call 0)

theorem lastSpawn_append (l l' : List Step) : lastSpawn (l ++ l') = (lastSpawn l').or (lastSpawn l) := by
  simp [lastSpawn, List.getLast?_append]

theorem triggers_append (l l' : List Step) : triggers (l ++ l') = triggers l ++ triggers l' := by
  simp [triggers]

theorem lastSpawn_singleton (step : Step) : lastSpawn [step] = step.spawn? := by
  cases h : step.spawn? <;> simp [lastSpawn, h]

theorem triggers_singleton (step : Step) : triggers [step] = (step.spawn?.map (·.call 0)).toList := by
  cases h : step.spawn? <;> simp [triggers, h]

theorem spawn?_of_not_instant {step : Step} (h : ¬step.IsInstant) : step.spawn? = none := by
  cases step <;> first | rfl | exact absurd rfl h

theorem animation?_of_not_instant {step : Step} (h : ¬step.IsInstant) : step.animation? = none := by
  cases step <;> first | rfl | exact absurd rfl h

namespace Event

/-- The step that an entry reports to be reached. -/
def step? : Event β → Option Step
  | reached _ step => some step
  | _ => none

/-- The animation that an entry reports to be switched to. -/
def animation? : Event β → Option ℕ
  | switched n => some n
  | _ => none

/-- The call that an entry reports. -/
def call? : Event β → Option Call
  | called call _ => some call
  | _ => none

/-- The entry reports none of them. -/
def Silent (e : Event β) : Prop := e.step? = none ∧ e.animation? = none ∧ e.call? = none

theorem MotionOf.silent {k : ℕ} {e : Event β} (h : e.MotionOf k) : e.Silent := by
  cases e with
  | drifted => exact ⟨rfl, rfl, rfl⟩
  | followed => exact ⟨rfl, rfl, rfl⟩
  | _ => exact h.elim

end Event

namespace Scene

/-- The steps that were reached, in order. -/
def reached (s : Scene γ β) : List Step := s.events.filterMap Event.step?

/-- The animations that were switched to, in order. -/
def switches (s : Scene γ β) : List ℕ := s.events.filterMap Event.animation?

/-- The calls of the generator, in order. -/
def calls (s : Scene γ β) : List Call := s.events.filterMap Event.call?

variable {s t u : Scene γ β}

theorem events_of_append {l : List (Event β)} (h : t.journal = l ++ s.journal) :
    t.events = s.events ++ l.reverse := by
  rw [events, h, List.reverse_append]
  rfl

/-- A new entry comes behind what is reported. -/
theorem filterMap_note {α : Type} (s : Scene γ β) (e : Event β) (f : Event β → Option α) :
    (s.note e).events.filterMap f = s.events.filterMap f ++ (f e).toList := by
  rw [events_of_append (s := s) (l := [e]) rfl, List.filterMap_append]
  cases h : f e <;> simp [h]

/-- Entries that report nothing of a kind leave the reports of that kind as they are. -/
theorem filterMap_of_logs {α : Type} {f : Event β → Option α} (h : Logs (fun e => f e = none) s t) :
    t.events.filterMap f = s.events.filterMap f := by
  obtain ⟨l, hl, hnone⟩ := h
  have hnil : l.reverse.filterMap f = [] := by
    rw [List.filterMap_eq_nil_iff]
    intro e he
    exact hnone e (List.mem_reverse.1 he)
  rw [events_of_append hl, List.filterMap_append, hnil, List.append_nil]

/-- Entries that report nothing leave the reports as they are. -/
theorem reports_of_logs (h : Logs Event.Silent s t) :
    t.reached = s.reached ∧ t.switches = s.switches ∧ t.calls = s.calls := by
  exact ⟨filterMap_of_logs (h.mono fun _ he => he.1), filterMap_of_logs (h.mono fun _ he => he.2.1),
    filterMap_of_logs (h.mono fun _ he => he.2.2)⟩

/-! ## What does not reach a step -/

theorem controller_drift [Target β] (s : Scene γ β) (dt : Scalar) :
    ∃ v, (s.drift dt).controller = { s.controller with velocity := v } := by
  unfold drift
  split
  · exact ⟨s.controller.velocity, rfl⟩
  · dsimp only
    split
    · exact ⟨_, rfl⟩
    · rw [controller_face]
      exact ⟨_, rfl⟩

/-- All that a motion changes of a controller is the velocity. -/
theorem controller_advance [Target β] (s : Scene γ β) (start dt : Scalar) :
    ∃ v, (s.advance start dt).controller = { s.controller with velocity := v } := by
  unfold advance
  split
  · exact controller_drift s dt
  · rw [controller_follow]
    exact ⟨s.controller.velocity, rfl⟩
  · exact ⟨s.controller.velocity, rfl⟩
  · exact ⟨s.controller.velocity, rfl⟩

/-- All that a call changes of a controller is the generator itself. -/
theorem controller_callGenerator [Generator γ β] (s : Scene γ β) (delta : Scalar) :
    ∃ g, (s.callGenerator delta).controller = { s.controller with generator := g } ∧
      g.isSome = s.controller.generator.isSome := by
  unfold callGenerator
  split
  · exact ⟨s.controller.generator, rfl, rfl⟩
  · next g hg =>
    refine ⟨_, rfl, ?_⟩
    rw [hg]
    rfl

/-- A call of the generator is reported with the parameters that are set. -/
theorem reports_callGenerator [Generator γ β] (s : Scene γ β) (delta : Scalar) :
    (s.callGenerator delta).reached = s.reached ∧ (s.callGenerator delta).switches = s.switches ∧
      (s.controller.generator.isSome →
        (s.callGenerator delta).calls = s.calls ++ [s.controller.spawn.call delta]) := by
  cases hg : s.controller.generator with
  | none =>
    rw [callGenerator_of_none hg]
    exact ⟨rfl, rfl, fun h => nomatch h⟩
  | some g =>
    -- the commands that are sent come behind the call
    have hlogs : Logs Event.Silent (s.note (.called (s.controller.spawn.call delta) s.body))
        (s.callGenerator delta) := by
      unfold callGenerator
      rw [hg]
      refine ⟨_, rfl, ?_⟩
      intro e he
      obtain ⟨command, -, rfl⟩ := List.mem_map.1 (List.mem_reverse.1 he)
      exact ⟨rfl, rfl, rfl⟩
    obtain ⟨hreached, hswitches, hcalls⟩ := reports_of_logs hlogs
    refine ⟨hreached.trans ?_, hswitches.trans ?_, fun _ => hcalls.trans ?_⟩
    · exact (filterMap_note s _ _).trans (List.append_nil _)
    · exact (filterMap_note s _ _).trans (List.append_nil _)
    · exact filterMap_note s _ _

/-- A switched animation is reported. -/
theorem reports_switch [Target β] (s : Scene γ β) (n : ℕ) :
    (s.switch n).reached = s.reached ∧ (s.switch n).switches = s.switches ++ [n] ∧
      (s.switch n).calls = s.calls := by
  have hnote {α : Type} (f : Event β → Option α) :
      (s.switch n).events.filterMap f = s.events.filterMap f ++ (f (.switched n)).toList :=
    filterMap_note { s with body := Target.animate s.body n } _ f
  exact ⟨(hnote _).trans (List.append_nil _), hnote _, (hnote _).trans (List.append_nil _)⟩

/-! ## What comes before playback in an update -/

section Preparation

variable [Target β] [Generator γ β]

/-- Handing over what a binding has put off changes no more of a controller than that it is handed over. -/
theorem controller_flush (s : Scene γ β) :
    ∃ g activation n, s.flush.controller =
        { s.controller with generator := g, activation := activation, pendingAnimation := n } ∧
      g.isSome = s.controller.generator.isSome ∧ (activation != .dormant) = s.controller.generatorActive := by
  obtain ⟨t, ht, h⟩ := flush_cases s
  obtain ⟨n, hn⟩ : ∃ n, t.controller = { s.controller with pendingAnimation := n } := by
    rcases ht with ⟨-, rfl⟩ | ⟨n, -, rfl⟩
    · exact ⟨t.controller.pendingAnimation, rfl⟩
    · exact ⟨none, rfl⟩
  rcases h with ⟨-, h⟩ | ⟨hpending, h⟩
  · rw [h, hn]
    exact ⟨s.controller.generator, s.controller.activation, n, rfl, rfl, rfl⟩
  · obtain ⟨g, hc, hsome⟩ := controller_callGenerator (t.control fun c => { c with activation := .active }) 0
    rw [controller_control, hn] at hc hsome
    refine ⟨g, .active, n, h ▸ hc, hsome, ?_⟩
    rw [Controller.generatorActive, hpending]
    rfl

/-- **What a binding has put off is reported**: the animation, and a single call. -/
theorem reports_flush (s : Scene γ β) :
    s.flush.reached = s.reached ∧ s.flush.switches = s.switches ++ s.controller.pendingAnimation.toList ∧
      (s.controller.generator.isSome → s.flush.calls =
        s.calls ++ if s.controller.activation = .pending then [s.controller.spawn.call 0] else []) := by
  obtain ⟨t, ht, h⟩ := flush_cases s
  have ht' : t.reached = s.reached ∧ t.switches = s.switches ++ s.controller.pendingAnimation.toList ∧
      t.calls = s.calls ∧ t.controller.generator = s.controller.generator ∧
      t.controller.spawn = s.controller.spawn := by
    rcases ht with ⟨hn, rfl⟩ | ⟨n, hn, rfl⟩
    · rw [hn]
      exact ⟨rfl, (List.append_nil _).symm, rfl, rfl, rfl⟩
    · obtain ⟨hreached, hswitches, hcalls⟩ :=
        reports_switch (s.control fun c => { c with pendingAnimation := none }) n
      rw [hn]
      exact ⟨hreached, hswitches, hcalls, rfl, rfl⟩
  obtain ⟨hreached, hswitches, hcalls, hgenerator, hspawn⟩ := ht'
  rcases h with ⟨hpending, h⟩ | ⟨hpending, h⟩
  · rw [h, if_neg hpending, List.append_nil]
    exact ⟨hreached, hswitches, fun _ => hcalls⟩
  · obtain ⟨hreached', hswitches', hcalls'⟩ :=
      reports_callGenerator (t.control fun c => { c with activation := .active }) 0
    rw [h, if_pos hpending]
    refine ⟨hreached'.trans hreached, hswitches'.trans hswitches, fun hg => ?_⟩
    have hg' : t.controller.generator.isSome := by rw [hgenerator]; exact hg
    rw [← hspawn, ← hcalls]
    exact hcalls' hg'

omit [Target β] in
theorem reports_tick (s : Scene γ β) (delta : Scalar) :
    (s.tick delta).reached = s.reached ∧ (s.tick delta).switches = s.switches ∧
      (s.controller.generator.isSome → (s.tick delta).calls = s.calls ++
        if s.controller.generatorActive ∧ ¬s.controller.isDeletable then [s.controller.spawn.call delta] else []) := by
  unfold tick
  split
  · exact reports_callGenerator s delta
  · exact ⟨rfl, rfl, fun _ => (List.append_nil _).symm⟩

/-- What comes before playback in an update leaves the parameters of the generator and whether it runs. -/
theorem controller_flush_tick (s : Scene γ β) (delta : Scalar) :
    (s.flush.tick delta).controller.generator.isSome = s.controller.generator.isSome ∧
      (s.flush.tick delta).controller.spawn = s.controller.spawn ∧
      (s.flush.tick delta).controller.generatorActive = s.controller.generatorActive := by
  obtain ⟨g, activation, n, hc, hsome, hactive⟩ := controller_flush s
  obtain ⟨g', hc', hsome'⟩ : ∃ g', (s.flush.tick delta).controller = { s.flush.controller with generator := g' } ∧
      g'.isSome = s.flush.controller.generator.isSome := by
    unfold tick
    split
    · exact controller_callGenerator s.flush delta
    · exact ⟨s.flush.controller.generator, rfl, rfl⟩
  rw [hc', hc]
  rw [hc] at hsome'
  exact ⟨hsome'.trans hsome, rfl, hactive⟩

/-- **What is reported before playback in an update**: what a binding has put off, and a call for the time that
passes, if the generator runs and the script has not ended. -/
theorem reports_flush_tick (s : Scene γ β) (delta : Scalar) :
    (s.flush.tick delta).reached = s.reached ∧
      (s.flush.tick delta).switches = s.switches ++ s.controller.pendingAnimation.toList ∧
      (s.controller.generator.isSome → (s.flush.tick delta).calls = s.calls ++
        (if s.controller.activation = .pending then [s.controller.spawn.call 0] else []) ++
        if s.controller.generatorActive ∧ ¬s.controller.isDeletable then [s.controller.spawn.call delta] else []) := by
  obtain ⟨hreached, hswitches, hcalls⟩ := reports_flush s
  obtain ⟨hreached', hswitches', hcalls'⟩ := reports_tick s.flush delta
  obtain ⟨g, activation, n, hc, hsome, hactive⟩ := controller_flush s
  refine ⟨hreached'.trans hreached, hswitches'.trans hswitches, fun hg => ?_⟩
  have hg' : s.flush.controller.generator.isSome := by
    rw [hc]
    exact hsome.trans hg
  have hactive' : s.flush.controller.generatorActive = s.controller.generatorActive := by
    rw [Controller.generatorActive, hc]
    exact hactive
  have hdeletable : s.flush.controller.isDeletable = s.controller.isDeletable := by
    rw [Controller.isDeletable, hc]
    rfl
  have hspawn : s.flush.controller.spawn = s.controller.spawn := by rw [hc]
  rw [hcalls' hg', hcalls hg, hactive', hdeletable, hspawn]

end Preparation

/-! ## Deliveries -/

section Delivery

variable [Target β] [Generator γ β]

/-- What a step asks for. No step wants both an animation and the generator. -/
theorem deliver_cases (s : Scene γ β) (step : Step) :
    (∃ n, step.animation? = some n ∧ step.spawn? = none ∧ s.deliver step = s.switch n) ∨
    (∃ p, step.animation? = none ∧ step.spawn? = some p ∧ s.controller.generator.isSome ∧
      s.deliver step = (s.control fun c => { c with activation := .active }).callGenerator 0) ∨
    step.animation? = none ∧ (step.spawn? = none ∨ s.controller.generator.isSome = false) ∧
      s.deliver step = s := by
  cases step with
  | animate sequence =>
    by_cases h : 0 ≤ sequence
    · refine .inl ⟨sequence.toNat, if_pos h, rfl, ?_⟩
      unfold deliver
      simp only [Step.animation?, if_pos h]
    · refine .inr (.inr ⟨if_neg h, .inl rfl, ?_⟩)
      unfold deliver
      simp only [Step.animation?, if_neg h]
  | generate speed direction =>
    by_cases hg : s.controller.generator.isSome
    · exact .inr (.inl ⟨⟨speed, direction⟩, rfl, rfl, hg, if_pos hg⟩)
    · exact .inr (.inr ⟨rfl, .inr (by simpa using hg), if_neg hg⟩)
  | _ => exact .inr (.inr ⟨rfl, .inl rfl, rfl⟩)

/-- What the delivery reports: the animation, or a call with the parameters that are set. -/
theorem reports_deliver (s : Scene γ β) (step : Step) :
    (s.deliver step).reached = s.reached ∧
      (s.deliver step).switches = s.switches ++ step.animation?.toList ∧
      (s.controller.generator.isSome → (s.deliver step).calls =
        s.calls ++ (step.spawn?.map fun _ => s.controller.spawn.call 0).toList) := by
  rcases deliver_cases s step with ⟨n, ha, hs, hd⟩ | ⟨p, ha, hs, hg, hd⟩ | ⟨ha, hs, hd⟩
  · obtain ⟨hreached, hswitches, hcalls⟩ := reports_switch s n
    rw [hd, ha, hs]
    exact ⟨hreached, hswitches, fun _ => hcalls.trans (List.append_nil _).symm⟩
  · obtain ⟨hreached, hswitches, hcalls⟩ :=
      reports_callGenerator (s.control fun c => { c with activation := .active }) 0
    rw [hd, ha, hs]
    exact ⟨hreached, hswitches.trans (List.append_nil _).symm, hcalls⟩
  · rw [hd, ha]
    refine ⟨rfl, (List.append_nil _).symm, fun hg => ?_⟩
    have hnone : step.spawn? = none := by
      rcases hs with hs | hs
      · exact hs
      · rw [hg] at hs
        cases hs
    rw [hnone]
    exact (List.append_nil _).symm

/-- What the delivery changes of a controller: the generator and whether it runs. -/
theorem controller_deliver (s : Scene γ β) (step : Step) :
    ∃ g activation, (s.deliver step).controller = { s.controller with generator := g, activation := activation } ∧
      g.isSome = s.controller.generator.isSome ∧
      (activation != .dormant) =
        (s.controller.generatorActive || s.controller.generator.isSome && step.spawn?.isSome) := by
  rcases deliver_cases s step with ⟨n, ha, hs, hd⟩ | ⟨p, ha, hs, hg, hd⟩ | ⟨ha, hs, hd⟩
  · refine ⟨s.controller.generator, s.controller.activation, by rw [hd]; rfl, rfl, ?_⟩
    rw [hs]
    simp [Controller.generatorActive]
  · obtain ⟨g, hc, hsome⟩ := controller_callGenerator (s.control fun c => { c with activation := .active }) 0
    refine ⟨g, .active, by rw [hd, hc]; rfl, hsome, ?_⟩
    rw [hg, hs]
    simp
  · refine ⟨s.controller.generator, s.controller.activation, by rw [hd], rfl, ?_⟩
    rcases hs with hs | hs
    · rw [hs]
      simp [Controller.generatorActive]
    · rw [hs]
      simp [Controller.generatorActive]

end Delivery

end Scene

end MotionScript
