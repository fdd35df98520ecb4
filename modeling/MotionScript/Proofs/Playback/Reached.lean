import MotionScript.Proofs.Playback.Reports

/-!
# The steps that are reached

* `stretch`, `opening`: parts of a sequence that playback and bindings reach.
* `Scene.Reaches`: what it comes to that playback reaches some steps and nothing else happens.
* `Scene.reaches_play`: playback does so from step to step.
* `Scene.reaches_update`: an update reaches the steps that follow the current one up to the new current one.
-/

namespace MotionScript

variable {γ β : Type}

/-- The steps of a sequence that a binding reaches: up to the first that takes time, and that one. -/
def opening : List Step → List Step
  | [] => []
  | step :: rest => step :: if step.IsInstant then opening rest else []

/-- The steps of a sequence that follow the one with an index, up to the one with another. -/
def stretch (steps : Sequence) (i j : ℕ) : List Step := (steps.take (j + 1)).drop (i + 1)

theorem stretch_self (steps : Sequence) (i : ℕ) : stretch steps i i = [] := by
  rw [stretch, List.drop_eq_nil_iff, List.length_take]
  omega

theorem stretch_append (steps : Sequence) {i j k : ℕ} (hij : i ≤ j) (hjk : j ≤ k) :
    stretch steps i j ++ stretch steps j k = stretch steps i k := by
  unfold stretch
  rcases Nat.lt_or_ge j steps.length with hlt | hge
  · -- the first part is cut off from the list that the whole is cut off from
    have htake : steps.take (j + 1) = (steps.take (k + 1)).take (j + 1) := by
      rw [List.take_take, Nat.min_eq_left (by omega)]
    have hlength : i + 1 ≤ (steps.take (j + 1)).length := by
      rw [List.length_take]
      omega
    conv_rhs => rw [← List.take_append_drop (j + 1) (steps.take (k + 1)), ← htake]
    rw [List.drop_append_of_le_length hlength]
  · have hj : steps.take (j + 1) = steps := List.take_of_length_le (by omega)
    have hk : steps.take (k + 1) = steps := List.take_of_length_le (by omega)
    have hrest : steps.drop (j + 1) = [] := List.drop_of_length_le (by omega)
    rw [hj, hk, hrest, List.append_nil]

namespace Controller

theorem spawn_enter (rest : List Step) (c : Controller γ) (step : Step) :
    (c.enter rest step).spawn = step.spawn?.getD c.spawn := by
  cases step <;> rfl

theorem activation_enter (rest : List Step) (c : Controller γ) (step : Step) :
    (c.enter rest step).activation = c.activation := by
  cases step <;> rfl

theorem mode_enter_eq_vanished {c : Controller γ} (h : c.mode ≠ .vanished) (rest : List Step) (step : Step) :
    (c.enter rest step).mode = .vanished ↔ c.mode = .vanished ∨ .vanish ∈ [step] := by
  cases step <;> simp [enter, h]

end Controller

namespace Scene

variable {s t u : Scene γ β}

/-! ## What reaching steps comes to -/

/-- **Playback has gone from `s` to `t` and reached some steps.** Every one of them has got what it asks for,
in order, and nobody else has asked for anything. -/
structure Reaches (steps : List Step) (s t : Scene γ β) : Prop where
  reached : t.reached = s.reached ++ steps
  switches : t.switches = s.switches ++ steps.filterMap Step.animation?
  calls : s.controller.generator.isSome → t.calls = s.calls ++ triggers steps
  generator : t.controller.generator.isSome = s.controller.generator.isSome
  spawn : t.controller.spawn = (lastSpawn steps).getD s.controller.spawn
  active : t.controller.generatorActive =
    (s.controller.generatorActive || s.controller.generator.isSome && (lastSpawn steps).isSome)
  vanished : t.controller.mode = .vanished ↔ s.controller.mode = .vanished ∨ .vanish ∈ steps

theorem Reaches.trans {l l' : List Step} (h : Reaches l s t) (h' : Reaches l' t u) : Reaches (l ++ l') s u where
  reached := by rw [h'.reached, h.reached, List.append_assoc]
  switches := by rw [h'.switches, h.switches, List.append_assoc, List.filterMap_append]
  calls hg := by
    have hg' : t.controller.generator.isSome := h.generator.trans hg
    rw [h'.calls hg', h.calls hg, List.append_assoc, triggers_append]
  generator := h'.generator.trans h.generator
  spawn := by rw [h'.spawn, h.spawn, lastSpawn_append, Option.getD_or]
  active := by
    rw [h'.active, h.active, h.generator, lastSpawn_append, Option.isSome_or]
    cases s.controller.generatorActive <;> cases s.controller.generator.isSome <;> simp [Bool.or_comm]
  vanished := by rw [h'.vanished, h.vanished, List.mem_append, or_assoc]

/-- No step is reached as long as nothing is reported and nothing but velocity and time passes. -/
theorem reaches_nil (hlogs : Logs Event.Silent s t)
    (hcontroller : ∃ v elapsed target step, t.controller =
      { s.controller with velocity := v, elapsed := elapsed, target := target, step := step }) :
    Reaches [] s t := by
  obtain ⟨hreached, hswitches, hcalls⟩ := reports_of_logs hlogs
  obtain ⟨v, elapsed, target, step, hc⟩ := hcontroller
  exact
    { reached := by rw [hreached, List.append_nil]
      switches := by rw [hswitches]; exact (List.append_nil _).symm
      calls := fun _ => by rw [hcalls]; exact (List.append_nil _).symm
      generator := by rw [hc]
      spawn := by rw [hc]; rfl
      active := by
        rw [hc]
        simp [Controller.generatorActive, lastSpawn]
      vanished := by rw [hc]; simp }

theorem reaches_refl (s : Scene γ β) : Reaches [] s s := reaches_nil (logs_of_eq rfl) ⟨_, _, _, _, rfl⟩

theorem reaches_advance [Target β] (s : Scene γ β) (start dt : Scalar) : Reaches [] s (s.advance start dt) := by
  obtain ⟨v, hc⟩ := controller_advance s start dt
  exact reaches_nil ((motions_advance s start dt).mono fun _ => Event.MotionOf.silent) ⟨v, _, _, _, hc⟩

theorem reaches_leave (s : Scene γ β) : Reaches [] s s.leave := by
  refine reaches_nil ⟨[.left s.controller.step], rfl, ?_⟩ ⟨_, _, _, _, rfl⟩
  exact List.forall_mem_singleton.2 ⟨rfl, rfl, rfl⟩

theorem reaches_next (s : Scene γ β) : Reaches [] s (s.control (·.next)) :=
  reaches_nil (logs_of_eq rfl) ⟨_, _, _, _, rfl⟩

/-! ## From step to step -/

section Playback

variable [Target β] [Generator γ β]

/-- **Reaching a step**, while the script has not ended. -/
theorem reaches_reach (hv : s.controller.mode ≠ .vanished) (rest : List Step) (step : Step) :
    Reaches [step] s (s.reach rest step) := by
  -- the step is entered first, which concerns the controller alone
  let q : Scene γ β := (s.note (.reached s.controller.step step)).control (·.enter rest step)
  have hgenerator : q.controller.generator = s.controller.generator := Controller.generator_enter rest s.controller step
  have hspawn : q.controller.spawn = step.spawn?.getD s.controller.spawn := Controller.spawn_enter rest s.controller step
  have hactivation : q.controller.activation = s.controller.activation := Controller.activation_enter rest s.controller step
  have hvanished : q.controller.mode = .vanished ↔ s.controller.mode = .vanished ∨ .vanish ∈ [step] :=
    Controller.mode_enter_eq_vanished hv rest step
  have hreached : q.reached = s.reached ++ [step] := filterMap_note s _ _
  have hswitches : q.switches = s.switches := (filterMap_note s _ _).trans (List.append_nil _)
  have hcalls : q.calls = s.calls := (filterMap_note s _ _).trans (List.append_nil _)
  obtain ⟨hreached', hswitches', hcalls'⟩ := reports_deliver q step
  obtain ⟨g, activation, hc, hsome, hactive⟩ := controller_deliver q step
  have hreach : s.reach rest step = q.deliver step := rfl
  rw [hreach]
  exact
    { reached := by rw [hreached', hreached]
      switches := by
        rw [hswitches', hswitches]
        cases h : step.animation? <;> simp [h]
      calls := fun hg => by
        rw [hcalls' (by rw [hgenerator]; exact hg), hcalls, hspawn, triggers_singleton]
        cases step.spawn? <;> rfl
      generator := by rw [hc, hsome, hgenerator]
      spawn := by rw [hc, hspawn, lastSpawn_singleton]
      active := by
        rw [lastSpawn_singleton, ← hgenerator]
        unfold Controller.generatorActive at hactive ⊢
        rw [hc, hactive, hactivation]
      vanished := by rw [hc, hvanished] }

omit [Generator γ β] in
theorem reaches_overflow (s : Scene γ β) : Reaches [] s s.overflow := reaches_advance s _ _

/-- **From step to step playback reaches the steps up to the new current one**, at least those up to the first
that takes time. -/
theorem reaches_play (rest : List Step) (hv : s.controller.mode ≠ .vanished) :
    ∃ n later, (play rest s).controller.step = s.controller.step + n ∧
      rest.take (n + 1) = opening rest ++ later ∧ Reaches (rest.take (n + 1)) s (play rest s) := by
  -- on the steps ahead; only the first of them is reached by what `play` does before it goes on
  induction rest generalizing s with
  | nil =>
    refine ⟨0, [], ?_, rfl, reaches_overflow s⟩
    exact step_overflow s
  | cons step rest ih =>
    have hreach := reaches_reach hv rest step
    have hstep := step_reach s rest step
    rw [play_cons]
    by_cases hi : step.IsInstant
    · -- nothing is in the way of the next step
      have hlive : (s.reach rest step).controller.mode ≠ .vanished := by
        rw [Ne, hreach.vanished, List.mem_singleton]
        rintro (h | h)
        · exact hv h
        · rw [← h] at hi
          cases hi
      obtain ⟨n, later, hn, hopening, hplay⟩ := ih (s := (s.reach rest step).control (·.next)) hlive
      have hnext : ((s.reach rest step).control (·.next)).controller.step = s.controller.step + 1 := by
        rw [← hstep]
        rfl
      rw [if_pos hi]
      refine ⟨n + 1, later, ?_, ?_, ?_⟩
      · rw [hn, hnext]
        omega
      · rw [List.take_succ_cons, hopening, opening, if_pos hi]
        rfl
      · exact hreach.trans ((reaches_next _).trans hplay)
    · have hopening : opening (step :: rest) = [step] := by rw [opening, if_neg hi]
      rw [if_neg hi]
      by_cases hd : (s.reach rest step).controller.isDeletable
      · rw [if_pos hd]
        exact ⟨0, [], hstep, by rw [hopening]; rfl, hreach⟩
      · rw [if_neg hd]
        have hlive : (s.reach rest step).controller.mode ≠ .vanished := fun h => hd (beq_iff_eq.2 h)
        have hover := hreach.trans (reaches_overflow (s.reach rest step))
        have hstep' := (step_overflow (s.reach rest step)).trans hstep
        by_cases hdue : (s.reach rest step).overflow.controller.isDue
        · -- the step is over at once
          have hleave := hover.trans (reaches_leave _)
          have hlive' : (s.reach rest step).overflow.leave.controller.mode ≠ .vanished := by
            rw [Ne, ((reaches_overflow (s.reach rest step)).trans (reaches_leave _)).vanished]
            simpa using hlive
          obtain ⟨n, later, hn, hrest, hplay⟩ := ih hlive'
          have hnext : (s.reach rest step).overflow.leave.controller.step = s.controller.step + 1 := by
            rw [← hstep']
            rfl
          rw [if_pos hdue]
          refine ⟨n + 1, rest.take (n + 1), ?_, ?_, ?_⟩
          · rw [hn, hnext]
            omega
          · rw [hopening]
            rfl
          · exact hleave.trans hplay
        · rw [if_neg hdue]
          exact ⟨0, [], hstep', by rw [hopening]; rfl, hover⟩

/-! ## Reaching steps in an update -/

omit [Generator γ β] in
theorem reaches_proceed (s : Scene γ β) (delta : Scalar) : Reaches [] s (s.proceed delta) :=
  (reaches_advance s _ _).trans (reaches_nil (logs_of_eq rfl) ⟨_, _, _, _, rfl⟩)

omit [Generator γ β] in
theorem reaches_driveManually (s : Scene γ β) (delta : Scalar) : Reaches [] s (s.driveManually delta) := by
  obtain ⟨v, hc⟩ := controller_drift s delta
  have hdrift : Reaches [] s (s.drift delta) :=
    reaches_nil ((motions_drift s delta).mono fun _ => Event.MotionOf.silent) ⟨v, _, _, _, hc⟩
  exact hdrift.trans (reaches_nil (logs_of_eq rfl) ⟨_, _, _, _, rfl⟩)

theorem reaches_playOn (hv : s.controller.mode ≠ .vanished) (delta : Scalar) (steps : Sequence) :
    s.controller.step ≤ (s.playOn delta steps).controller.step ∧
      Reaches (stretch steps s.controller.step (s.playOn delta steps).controller.step) s (s.playOn delta steps) := by
  have hproceed := reaches_proceed s delta
  have hstep : (s.proceed delta).controller.step = s.controller.step :=
    congrArg Playhead.step (playhead_proceed s delta)
  unfold playOn
  dsimp only
  split
  · have hleave := hproceed.trans (reaches_leave _)
    have hlive : (s.proceed delta).leave.controller.mode ≠ .vanished := by
      rw [Ne, hleave.vanished]
      simpa using hv
    obtain ⟨n, later, hn, -, hplay⟩ := reaches_play (steps.drop ((s.proceed delta).controller.step + 1)) hlive
    have hnext : (s.proceed delta).leave.controller.step = s.controller.step + 1 := by
      rw [← hstep]
      rfl
    rw [hnext] at hn
    rw [hstep] at hn hplay ⊢
    have hstretch : stretch steps s.controller.step (s.controller.step + 1 + n) =
        (steps.drop (s.controller.step + 1)).take (n + 1) := by
      rw [stretch, List.drop_take]
      congr 1
      omega
    rw [hn, hstretch]
    exact ⟨by omega, hleave.trans hplay⟩
  · rw [hstep, stretch_self]
    exact ⟨le_rfl, hproceed⟩

/-- **An update reaches the steps that follow the current one up to the new current one**, once what comes before
playback is done. -/
theorem reaches_update (s : Scene γ β) (delta : Scalar) :
    s.controller.step ≤ (s.update delta).controller.step ∧
      Reaches (stretch (s.controller.steps?.getD []) s.controller.step (s.update delta).controller.step)
        (s.flush.tick delta) (s.update delta) := by
  have hp := playhead_flush_tick s delta
  have hstep : (s.flush.tick delta).controller.step = s.controller.step := congrArg Playhead.step hp
  have hmode : (s.flush.tick delta).controller.mode = s.controller.mode := congrArg Playhead.mode hp
  by_cases hmanual : s.controller.mode = .manual
  · have hdrive : ((s.flush.tick delta).driveManually delta).controller.step = s.controller.step :=
      (congrArg Playhead.step (playhead_driveManually _ delta)).trans hstep
    rw [update_manual hmanual, hdrive, stretch_self]
    exact ⟨le_rfl, reaches_driveManually _ delta⟩
  by_cases hvanished : s.controller.mode = .vanished
  · rw [update_vanished hvanished, hstep, stretch_self]
    exact ⟨le_rfl, reaches_refl _⟩
  -- the script drives the scene, unless it is not there
  have hdriven : s.controller.mode = .move ∨ s.controller.mode = .path := Mode.driven hvanished hmanual
  cases hs : s.controller.steps? with
  | none =>
    rw [update_unbound hdriven hs, hstep, stretch_self]
    exact ⟨le_rfl, reaches_refl _⟩
  | some steps =>
    have hlive : (s.flush.tick delta).controller.mode ≠ .vanished := by
      rw [hmode]
      exact hvanished
    have hplay := reaches_playOn hlive delta steps
    rw [hstep] at hplay
    rw [update_driven hdriven hs]
    exact hplay

end Playback

end Scene

end MotionScript
