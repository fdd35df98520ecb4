import MotionScript.Generator.Stock
import MotionScript.Proofs.Playback.History
import MotionScript.Proofs.Playback.Timeline

/-!
# What the generator is called with

An update calls the generator for what a binding has put off, for the time that passes, and for each step that
it crosses and that asks for a call.

* `Controller.crossed`, `Controller.crossings`: the steps that updates cross, and so are done with.
* `Controller.calls_update`: the calls of an update in order, and what many updates cross.
* `Controller.deferred_calls_iff`: a binding puts off a single call, so that it does not lose any just if no more
  than one step asks for it.
-/

namespace MotionScript

variable {γ β : Type}

/-- The steps of a sequence that lie between two indices. -/
def between (steps : Sequence) (i j : ℕ) : List Step := (steps.take j).drop (i + 1)

/-- As long as the last step asks for nothing, it may be left out. -/
theorem filterMap_stretch {α : Type} {steps : Sequence} {i j : ℕ} (f : Step → Option α)
    (hf : i < j → ∀ step, steps[j]? = some step → f step = none) (hij : i ≤ j) :
    (stretch steps i j).filterMap f = (between steps i j).filterMap f := by
  rcases Nat.eq_or_lt_of_le hij with rfl | hlt
  · have hbetween : between steps i i = [] := by
      rw [between, List.drop_eq_nil_iff, List.length_take]
      omega
    rw [stretch_self, hbetween]
  · unfold stretch between
    rw [List.take_add_one]
    cases hj : steps[j]? with
    | none => rw [Option.toList_none, List.append_nil]
    | some step =>
      have hlength : i + 1 ≤ (steps.take j).length := by
        have := (List.getElem?_eq_some_iff.1 hj).1
        rw [List.length_take]
        omega
      have hnone : [step].filterMap f = [] := by
        rw [List.filterMap_cons_none (hf hlt step hj), List.filterMap_nil]
      rw [Option.toList_some, List.drop_append_of_le_length hlength, List.filterMap_append, hnone, List.append_nil]

namespace Playhead

variable {p : Playhead} {steps : Sequence}

/-- Playback does not rest on a step that takes no time. -/
theorem Settled.not_instant (h : p.Settled steps) {step : Step} (hstep : steps[p.step]? = some step) :
    ¬step.IsInstant := by
  unfold Settled at h
  rw [hstep] at h
  cases step with
  | wait => exact Bool.false_ne_true
  | path => exact Bool.false_ne_true
  | vanish => exact Bool.false_ne_true
  | _ => exact h.elim

/-- Neither under manual control nor after its end does a script go on. -/
theorem step_updates_of_frozen (h : p.mode = .manual ∨ p.mode = .vanished) (deltas : List Scalar) :
    (deltas.foldl update p).step = p.step := by
  induction deltas generalizing p with
  | nil => rfl
  | cons delta deltas ih =>
    rw [List.foldl_cons]
    rcases h with h | h
    · rw [update_manual h]
      exact ih (.inl h)
    · rw [update_vanished h]
      exact ih (.inr h)

end Playhead

namespace Controller

/-- The script drives the entity. -/
def isPlaying (c : Controller γ) : Bool := (c.mode == .move || c.mode == .path) && c.steps?.isSome

/-- The steps that a controller crosses on its way to the one with an index: it reaches them, and is done with
them. -/
def crossed (c : Controller γ) (j : ℕ) : List Step :=
  if c.isPlaying then between (c.steps?.getD []) c.step j else []

variable [Target β] [Generator γ β]

theorem steps?_updates (slices : List (Scalar × β)) (c : Controller γ) : (c.updates slices).steps? = c.steps? := by
  have h := congrArg Playhead.steps? (playhead_updates slices c)
  rw [Playhead.steps?_updates] at h
  exact h

/-- **The steps that updates reach** are those that follow the current one up to the new current one, each of
them once and in order, in whatever slices the time is passed. -/
theorem history_updates (slices : List (Scalar × β)) (c : Controller γ) :
    c.step ≤ (c.updates slices).step ∧ c.history (slices.map fun slice => .update slice.1 slice.2) =
      stretch (c.steps?.getD []) c.step (c.updates slices).step := by
  induction slices generalizing c with
  | nil => exact ⟨le_rfl, (stretch_self _ _).symm⟩
  | cons slice slices ih =>
    obtain ⟨hle, hreached⟩ := reachedBy_update c slice.1 slice.2
    have hsteps : (c.updates [slice]).steps? = c.steps? := steps?_updates [slice] c
    obtain ⟨hle', hhistory⟩ := ih (c.updates [slice])
    rw [hsteps] at hhistory
    have hcons : c.updates (slice :: slices) = (c.updates [slice]).updates slices := rfl
    rw [hcons]
    refine ⟨hle.trans hle', ?_⟩
    rw [List.map_cons, history, hreached]
    exact (congrArg _ hhistory).trans (stretch_append _ hle hle')

/-- What asks for something among the steps that updates reach lies before the new current one. -/
theorem filterMap_crossed {α : Type} {c : Controller γ} (h : c.playhead.Sound) (slices : List (Scalar × β))
    (f : Step → Option α) (hf : ∀ step : Step, ¬step.IsInstant → f step = none) :
    (stretch (c.steps?.getD []) c.step (c.updates slices).step).filterMap f =
      (c.crossed (c.updates slices).step).filterMap f := by
  have hrun := playhead_updates slices c
  have hle := (history_updates slices c).1
  by_cases hfrozen : c.mode = .manual ∨ c.mode = .vanished
  · have hstep : (c.updates slices).step = c.step :=
      (congrArg Playhead.step hrun).trans (Playhead.step_updates_of_frozen hfrozen _)
    have hplaying : c.isPlaying = false := by
      unfold isPlaying
      rcases hfrozen with hm | hm <;> rw [hm] <;> rfl
    rw [hstep, stretch_self, crossed, hplaying]
    rfl
  · -- a script that is played comes to rest
    obtain ⟨hmanual, hvanished⟩ := not_or.1 hfrozen
    obtain ⟨steps, hsteps, hset⟩ := h.exists_settled hmanual
    have hsteps' : c.steps? = some steps := hsteps
    have hplaying : c.isPlaying = true := by
      unfold isPlaying
      rw [hsteps']
      rcases Playhead.mode_of_settled hset hvanished with hm | hm
      · rw [show c.mode = .move from hm]
        rfl
      · rw [show c.mode = .path from hm]
        rfl
    have hrest : (c.updates slices).playhead.Settled steps := by
      rw [hrun]
      exact hset.updates hsteps _
    rw [crossed, hplaying, if_pos rfl, hsteps', Option.getD_some]
    exact filterMap_stretch f (fun _ step hstep => hf step (hrest.not_instant hstep)) hle

/-- The steps that updates cross, one update after the other. -/
def crossings (c : Controller γ) : List (Scalar × β) → List Step
  | [] => []
  | slice :: slices => c.crossed (c.updates [slice]).step ++ (c.updates [slice]).crossings slices

/-- What asks for something among the steps that updates cross is the same in whatever slices time is passed. -/
theorem filterMap_crossings {α : Type} {c : Controller γ} (h : c.playhead.Sound) (slices : List (Scalar × β))
    (f : Step → Option α) (hf : ∀ step : Step, ¬step.IsInstant → f step = none) :
    (c.crossings slices).filterMap f = (c.crossed (c.updates slices).step).filterMap f := by
  rw [← filterMap_crossed h slices f hf, ← (history_updates slices c).2]
  -- each update by itself crosses what it reaches, but for the step it comes to rest on
  induction slices generalizing c with
  | nil => rfl
  | cons slice slices ih =>
    have hone := filterMap_crossed h [slice] f hf
    have hreached := (reachedBy_update c slice.1 slice.2).2
    have hnext : (c.updates [slice]).playhead.Sound := sound_operations [.update slice.1 slice.2] h
    rw [crossings, List.filterMap_append, ih hnext, ← hone, List.map_cons, history, List.filterMap_append, hreached]
    rfl

/-! ## The calls of an update -/

/-- What an update reports. -/
theorem reports_crossed {c : Controller γ} (h : c.playhead.Sound) (delta : Scalar) (body : β) :
    let s : Scene γ β := Scene.update { controller := c, body } delta
    (c.generator.isSome → s.calls = (if c.activation = .pending then [c.spawn.call 0] else []) ++
      (if c.generatorActive ∧ ¬c.isDeletable then [c.spawn.call delta] else []) ++
      triggers (c.crossed s.controller.step)) ∧
    s.switches = c.pendingAnimation.toList ++ (c.crossed s.controller.step).filterMap Step.animation? := by
  intro s
  have hreaches := (Scene.reaches_update ({ controller := c, body } : Scene γ β) delta).2
  obtain ⟨-, hswitches, hcalls⟩ := Scene.reports_flush_tick ({ controller := c, body } : Scene γ β) delta
  have hgenerator := (Scene.controller_flush_tick ({ controller := c, body } : Scene γ β) delta).1
  constructor
  · intro hg
    rw [hreaches.calls (hgenerator.trans hg), hcalls hg]
    unfold triggers
    exact congrArg (_ ++ List.map (·.call 0) ·)
      (filterMap_crossed h [(delta, body)] Step.spawn? fun _ => spawn?_of_not_instant)
  · rw [hreaches.switches, hswitches]
    exact congrArg (_ ++ ·)
      (filterMap_crossed h [(delta, body)] Step.animation? fun _ => animation?_of_not_instant)

/-- **The calls of an update**, in order: one for what a binding has put off, one for the time that passes, and one
for each step that is crossed and asks for it. The parameters are those of the last step that has set the generator
going. Updates together call for each step that they cross once, in whatever slices the time is passed. Animations
are switched in the same way. -/
theorem calls_update (ops : List (Operation γ β)) (hg : (after ops).generator.isSome) (delta : Scalar) (body : β) :
    let c : Controller γ := after ops
    let s : Scene γ β := Scene.update { controller := c, body } delta
    (s.calls = (if c.activation = .pending then [c.spawn.call 0] else []) ++
        (if c.generatorActive ∧ ¬c.isDeletable then [c.spawn.call delta] else []) ++
        triggers (c.crossed s.controller.step) ∧
      s.switches = c.pendingAnimation.toList ++ (c.crossed s.controller.step).filterMap Step.animation?) ∧
    (c.generatorActive → lastSpawn (history manual ops) = some c.spawn) ∧
    ∀ slices : List (Scalar × β),
      triggers (c.crossings slices) = triggers (c.crossed (c.updates slices).step) ∧
      (c.crossings slices).filterMap Step.animation? =
        (c.crossed (c.updates slices).step).filterMap Step.animation? := by
  intro c s
  have hsound : c.playhead.Sound := sound_after ops
  obtain ⟨hcalls, hswitches⟩ := reports_crossed hsound delta body
  refine ⟨⟨hcalls hg, hswitches⟩, ?_, fun slices => ⟨?_, ?_⟩⟩
  · intro hactive
    -- nothing runs before the first operation
    obtain ⟨hspawn, hrun⟩ := spawn_history ops (manual : Controller γ)
    have hsome := (hrun hactive).resolve_left Bool.false_ne_true
    obtain ⟨p, hp⟩ := Option.isSome_iff_exists.1 hsome
    rw [hp, Option.getD_some] at hspawn
    rw [hp, ← hspawn]
    rfl
  · unfold triggers
    rw [filterMap_crossings hsound slices Step.spawn? fun _ => spawn?_of_not_instant]
  · exact filterMap_crossings hsound slices Step.animation? fun _ => animation?_of_not_instant

theorem calls_update_crossing :
    let steps : Sequence := [.generate 1 2, .wait 0.5, .generate 3 4, .animate 5, .wait 1]
    let ops : List (Operation Stock Body) := [.setGenerator (some (.singleShot none)), .bind ⟨"steps", [steps]⟩ 0]
    (after ops).generator.isSome ∧
      (Scene.update { controller := after ops, body := ({} : Body) } 1).calls = [⟨0, 1, 2⟩, ⟨1, 1, 2⟩, ⟨0, 3, 4⟩] ∧
      (Scene.update { controller := after ops, body := ({} : Body) } 1).switches = [5] := by
  intro steps ops
  have hgenerator : (after ops).generator.isSome := by decide +kernel
  have hstep : (Scene.update { controller := after ops, body := ({} : Body) } 1).controller.step = 4 := by decide +kernel
  have hpending : (after ops).activation = .pending := by decide +kernel
  have hspawn : (after ops).spawn = ⟨1, 2⟩ := by decide +kernel
  have hanimation : (after ops).pendingAnimation = none := by decide +kernel
  have hlive : (after ops).generatorActive ∧ ¬(after ops).isDeletable := by decide +kernel
  have hcrossed : (after ops).crossed 4 = [.generate 3 4, .animate 5] := by decide +kernel
  obtain ⟨⟨hcalls, hswitches⟩, -, -⟩ := calls_update ops hgenerator 1 {}
  rw [hstep, hcrossed] at hcalls hswitches
  rw [if_pos hpending, if_pos hlive, hspawn] at hcalls
  rw [hanimation] at hswitches
  exact ⟨hgenerator, hcalls, hswitches⟩

/-! ## What a binding puts off -/

theorem getLast?_triggers (steps : List Step) : (triggers steps).getLast? = (lastSpawn steps).map (·.call 0) :=
  List.getLast?_map

/-- The last element is all of a list just if there is no other one. -/
theorem toList_getLast?_eq_iff {α : Type} (l : List α) : l.getLast?.toList = l ↔ l.length ≤ 1 := by
  constructor
  · intro h
    rw [← h]
    cases l.getLast? with
    | none => exact Nat.zero_le 1
    | some => exact le_rfl
  · intro h
    match l, h with
    | [], _ => rfl
    | [_], _ => rfl

omit [Target β] [Generator γ β] in
/-- What a binding has left to do for the generator: the last of the calls that its steps ask for. -/
theorem pending_of_binding {c : Controller γ} (hg : c.generator.isSome) {script : ScriptSet} {i : ℕ}
    {steps : Sequence} (hsteps : script.sequence? i = some steps) :
    (if (c.bind script i).activation = .pending then [(c.bind script i).spawn.call 0] else []) =
      (triggers (opening steps)).getLast?.toList := by
  have hdefers := (defers_bind c hsteps).1
  have hgenerator : ({ c with script := some script, sequence := i } : Controller γ).reset.generator.isSome := hg
  rw [getLast?_triggers, hdefers.activation, hdefers.spawn, hgenerator, Bool.true_and]
  cases lastSpawn (opening steps) with
  | none => rfl
  | some p => rfl

/-- **A binding puts off no more than one call.** Its steps are those up to the first that takes time. Where they
are played with an entity at hand, they call for each that asks for it. After a binding, the update hands over just
the last of these calls, before the one for the time that passes. So none is lost as long as there are no two. -/
theorem deferred_calls_iff (c : Controller γ) (hg : c.generator.isSome) {script : ScriptSet} {i : ℕ}
    {steps : Sequence} (hsteps : script.sequence? i = some steps) {d : Controller γ}
    (hd : d = c.bind script i ∨ c.script = some script ∧ d = c.selectSequence i) (delta : Scalar) (body : β) :
    let flushed : Scene γ β := Scene.flush { controller := d, body }
    let s : Scene γ β := Scene.update { controller := d, body } delta
    opening steps = steps.take (d.step + 1) ∧
    (∀ t : Scene γ β, t.controller.generator.isSome → t.controller.mode ≠ .vanished →
      ∃ later, (Scene.play steps t).calls = t.calls ++ triggers (opening steps) ++ later) ∧
    s.calls = flushed.calls ++ (if d.generatorActive ∧ ¬d.isDeletable then [d.spawn.call delta] else []) ++
      triggers (stretch steps d.step s.controller.step) ∧
    flushed.calls = (triggers (opening steps)).getLast?.toList ∧
    (flushed.calls = triggers (opening steps) ↔ (triggers (opening steps)).length ≤ 1) := by
  have hbind : d = c.bind script i := by
    rcases hd with hd | ⟨hscript, hd⟩
    · exact hd
    · rw [hd, selectSequence_eq_bind c hscript]
  subst hbind
  intro flushed s
  have hgenerator : (c.bind script i).generator.isSome := by rw [generator_bind]; exact hg
  have hplays : (c.bind script i).steps? = some steps := by
    show (c.bind script i).playhead.steps? = some steps
    rw [playhead_bind c hsteps]
    exact Playhead.steps?_scan_start c.curve hsteps
  have hflushed : flushed.calls = (triggers (opening steps)).getLast?.toList := by
    obtain ⟨-, -, hcalls⟩ := Scene.reports_flush ({ controller := c.bind script i, body } : Scene γ β)
    rw [← pending_of_binding hg hsteps]
    exact hcalls hgenerator
  refine ⟨(defers_bind c hsteps).2, ?_, ?_, hflushed, ?_⟩
  · intro t ht hlive
    obtain ⟨n, later, -, hopening, hplay⟩ := Scene.reaches_play steps hlive
    refine ⟨triggers later, ?_⟩
    rw [hplay.calls ht, hopening, triggers_append, List.append_assoc]
  · have hreaches := (Scene.reaches_update ({ controller := c.bind script i, body } : Scene γ β) delta).2
    obtain ⟨-, -, hcalls⟩ :=
      Scene.reports_flush_tick ({ controller := c.bind script i, body } : Scene γ β) delta
    have hsome := (Scene.controller_flush_tick ({ controller := c.bind script i, body } : Scene γ β) delta).1
    have hpending := pending_of_binding hg hsteps
    rw [hreaches.calls (hsome.trans hgenerator), hcalls hgenerator, hpending, hplays, ← hflushed]
    rfl
  · rw [hflushed]
    exact toList_getLast?_eq_iff _

theorem deferred_calls_of_single :
    let steps : Sequence := [.move 0 10, .generate 1 2, .wait 5]
    let c : Controller Stock := manual.setGenerator (some (.singleShot none))
    c.generator.isSome ∧ (⟨"once", [steps]⟩ : ScriptSet).sequence? 0 = some steps ∧
      (Scene.flush { controller := c.bind ⟨"once", [steps]⟩ 0, body := ({} : Body) }).calls =
        triggers (opening steps) := by
  intro steps c
  have hgenerator : c.generator.isSome := rfl
  have hsteps : (⟨"once", [steps]⟩ : ScriptSet).sequence? 0 = some steps := rfl
  obtain ⟨-, -, -, -, hall⟩ := deferred_calls_iff c hgenerator hsteps (.inl rfl) 0.5 ({} : Body)
  exact ⟨hgenerator, hsteps, hall.2 le_rfl⟩

/-- Of two calls that a binding puts off, the first is lost. Without the binding both are made. -/
theorem deferred_calls_lost :
    let steps : Sequence := [.generate 1 2, .generate 3 4, .wait 5]
    let c : Controller Stock := manual.setGenerator (some (.singleShot none))
    triggers (opening steps) = [⟨0, 1, 2⟩, ⟨0, 3, 4⟩] ∧
      (Scene.update { controller := c.bind ⟨"wait", [.wait 0.25 :: steps]⟩ 0, body := ({} : Body) } 0.5).calls =
        [⟨0, 1, 2⟩, ⟨0, 3, 4⟩] ∧
      (Scene.update { controller := c.bind ⟨"twice", [steps]⟩ 0, body := ({} : Body) } 0.5).calls =
        [⟨0, 3, 4⟩, ⟨0.5, 3, 4⟩] := by
  decide +kernel

end Controller

end MotionScript
