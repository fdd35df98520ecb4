import MotionScript.Proofs.Playback.Reached
import MotionScript.Proofs.Playback.Settled

/-!
# What has happened to a controller

A binding reaches steps as an update does, but has no entity at hand. The steps that the operations of an owner
have reached tell what the generator is called with.

* `Controller.Defers`: what it comes to that a binding reaches some steps.
* `Controller.reachedBy`, `Controller.history`: the steps that operations reach.
* `Controller.perform_cases`: what an operation can do.
* `Controller.spawn_history`: the parameters of the generator are those of the last step that has set it going.
-/

namespace MotionScript

variable {γ β : Type}

/-! ## Reaching steps in a binding -/

namespace Controller

/-- What a step that is reached in a binding puts off. -/
theorem exists_defer (c : Controller γ) (step : Step) : ∃ n, c.defer step =
    { c with
      activation := if c.generator.isSome && step.spawn?.isSome then .pending else c.activation
      pendingAnimation := n } := by
  cases step with
  | animate sequence =>
    by_cases h : 0 ≤ sequence
    · refine ⟨some sequence.toNat, ?_⟩
      unfold defer
      simp [Step.animation?, Step.spawn?, if_pos h]
    · refine ⟨c.pendingAnimation, ?_⟩
      unfold defer
      simp [Step.animation?, Step.spawn?, if_neg h]
  | generate speed direction =>
    refine ⟨c.pendingAnimation, ?_⟩
    unfold defer
    cases c.generator.isSome <;> simp [Step.animation?, Step.spawn?]
  | _ => exact ⟨c.pendingAnimation, by simp [defer, Step.animation?, Step.spawn?]⟩

/-- **A binding has reached some steps.** What they ask of an entity is put off, and of the calls of the
generator no more is kept than that there has been one. -/
structure Defers (steps : List Step) (c d : Controller γ) : Prop where
  generator : d.generator = c.generator
  spawn : d.spawn = (lastSpawn steps).getD c.spawn
  activation : d.activation =
    if c.generator.isSome && (lastSpawn steps).isSome then .pending else c.activation
  vanished : d.mode = .vanished ↔ c.mode = .vanished ∨ .vanish ∈ steps

variable {c d e : Controller γ} {l l' : List Step}

theorem Defers.trans (h : Defers l c d) (h' : Defers l' d e) : Defers (l ++ l') c e where
  generator := h'.generator.trans h.generator
  spawn := by rw [h'.spawn, h.spawn, lastSpawn_append, Option.getD_or]
  activation := by
    rw [h'.activation, h.activation, h.generator, lastSpawn_append, Option.isSome_or]
    cases c.generator.isSome <;> cases (lastSpawn l).isSome <;> cases (lastSpawn l').isSome <;> rfl
  vanished := by rw [h'.vanished, h.vanished, List.mem_append, or_assoc]

theorem defers_nil (c : Controller γ) : Defers [] c c where
  generator := rfl
  spawn := rfl
  activation := by simp [lastSpawn]
  vanished := by simp

theorem defers_next (c : Controller γ) : Defers [] c c.next where
  generator := rfl
  spawn := rfl
  activation := by simp [lastSpawn, next]
  vanished := by simp [next]

/-- Reaching a step without an entity at hand. -/
theorem defers_enter (hv : c.mode ≠ .vanished) (rest : List Step) (step : Step) :
    Defers [step] c ((c.enter rest step).defer step) := by
  have hgenerator := generator_enter rest c step
  have hspawn := spawn_enter rest c step
  have hactivation := activation_enter rest c step
  have hvanished := mode_enter_eq_vanished hv rest step
  obtain ⟨n, hn⟩ := exists_defer (c.enter rest step) step
  rw [hn]
  exact
    { generator := hgenerator
      spawn := by rw [hspawn, lastSpawn_singleton]
      activation := by rw [hgenerator, hactivation, lastSpawn_singleton]
      vanished := hvanished }

/-- **A binding reaches the steps up to the first that takes time.** -/
theorem defers_scan (steps : List Step) (hv : c.mode ≠ .vanished) :
    Defers (opening steps) c (scan steps c) ∧
      opening steps = steps.take ((scan steps c).step - c.step + 1) ∧ c.step ≤ (scan steps c).step := by
  induction steps generalizing c with
  | nil => exact ⟨defers_nil c, List.take_nil.symm, le_rfl⟩
  | cons step rest ih =>
    have henter := defers_enter hv rest step
    have hstep : ((c.enter rest step).defer step).step = c.step := by
      refine (congrArg Playhead.step (playhead_defer _ step)).trans ?_
      exact (congrArg Playhead.step (playhead_enter rest c step)).trans Playhead.step_enter
    unfold scan opening
    dsimp only
    by_cases hi : step.IsInstant
    · have hlive : ((c.enter rest step).defer step).next.mode ≠ .vanished := by
        rw [Ne, (henter.trans (defers_next _)).vanished, List.append_nil, List.mem_singleton]
        rintro (h | h)
        · exact hv h
        · rw [← h] at hi
          cases hi
      obtain ⟨hrest, htake, hle⟩ := ih hlive
      have hnext : ((c.enter rest step).defer step).next.step = c.step + 1 := congrArg (· + 1) hstep
      rw [if_pos hi, if_pos hi]
      refine ⟨henter.trans ((defers_next _).trans hrest), ?_, by omega⟩
      rw [htake, ← List.take_succ_cons]
      congr 1
      omega
    · rw [if_neg hi, if_neg hi, hstep]
      exact ⟨henter, by simp, le_rfl⟩

/-- **A binding**, from the controller without what came before. -/
theorem defers_bind (c : Controller γ) {script : ScriptSet} {i : ℕ} {steps : Sequence}
    (h : script.sequence? i = some steps) :
    Defers (opening steps) { c with script := some script, sequence := i }.reset (c.bind script i) ∧
      opening steps = steps.take ((c.bind script i).step + 1) := by
  have hi : i < script.sequences.length := (List.getElem?_eq_some_iff.1 h).1
  have hs : steps? { c with script := some script, sequence := i } = some steps := h
  have hlive : { c with script := some script, sequence := i }.reset.mode ≠ .vanished := by
    show Mode.move ≠ .vanished
    decide
  obtain ⟨hdefers, htake, -⟩ := defers_scan steps hlive
  unfold bind restart
  rw [if_pos hi, hs]
  exact ⟨hdefers, htake⟩

end Controller

/-! ## Histories -/

/-- The operation takes the controller under manual control. -/
def Operation.TakesOver : Operation γ β → Bool
  | .manualMove _ _ | .manualAccelerate _ _ | .manualTime _ => true
  | _ => false

namespace Controller

/-- The script and the sequence of it that an operation starts anew. An operation that names no sequence that
is there starts nothing. -/
def binding? (c : Controller γ) : Operation γ β → Option (ScriptSet × ℕ)
  | .bind script i => if i < script.sequences.length then some (script, i) else none
  | .selectSequence i => c.script.bind fun script => if i < script.sequences.length then some (script, i) else none
  | _ => none

variable [Target β] [Generator γ β]

/-- The steps that an operation of an owner reaches. -/
def reachedBy (c : Controller γ) : Operation γ β → List Step
  | .bind script i => (script.sequence? i).elim [] opening
  | .selectSequence i => (c.script.bind (·.sequence? i)).elim [] opening
  | .update delta body => (Scene.update { controller := c, body } delta).reached
  | _ => []

/-- The steps that operations reach, one after the other. -/
def history (c : Controller γ) : List (Operation γ β) → List Step
  | [] => []
  | op :: ops => c.reachedBy op ++ history (c.perform op) ops

/-- **What an operation can do**: start a sequence anew, let time pass, or change no more than who is in control,
the settings and the generator. -/
theorem perform_cases (c : Controller γ) (op : Operation γ β) :
    (∃ script i steps, c.binding? op = some (script, i) ∧ script.sequence? i = some steps ∧
      c.perform op = c.bind script i ∧ c.reachedBy op = opening steps) ∨
    (∃ delta body, op = .update delta body) ∨
    c.binding? op = none ∧ c.reachedBy op = [] ∧ (c.perform op).spawn = c.spawn ∧
      ((c.perform op).generatorActive → c.generatorActive) ∧
      (c.perform op).mode = if op.TakesOver then .manual else c.mode := by
  cases op with
  | bind script i =>
    cases hs : script.sequence? i with
    | none =>
      -- nothing happens without the sequence
      have hlt : ¬i < script.sequences.length := Nat.not_lt.2 (List.getElem?_eq_none_iff.1 hs)
      have hperform : c.perform (.bind script i : Operation γ β) = c := bind_of_none c hs
      refine .inr (.inr ⟨if_neg hlt, ?_, ?_⟩)
      · rw [reachedBy, hs, Option.elim_none]
      · rw [hperform]
        exact ⟨rfl, id, rfl⟩
    | some steps =>
      have hlt : i < script.sequences.length := (List.getElem?_eq_some_iff.1 hs).1
      refine .inl ⟨script, i, steps, if_pos hlt, hs, rfl, ?_⟩
      rw [reachedBy, hs, Option.elim_some]
  | selectSequence i =>
    cases hscript : c.script with
    | none =>
      have hperform : c.perform (.selectSequence i : Operation γ β) = c := selectSequence_of_none c hscript i
      refine .inr (.inr ⟨?_, ?_, ?_⟩)
      · rw [binding?, hscript, Option.bind_none]
      · rw [reachedBy, hscript, Option.bind_none, Option.elim_none]
      · rw [hperform]
        exact ⟨rfl, id, rfl⟩
    | some script =>
      have hperform : c.perform (.selectSequence i : Operation γ β) = c.bind script i :=
        selectSequence_eq_bind c hscript i
      cases hs : script.sequence? i with
      | none =>
        have hlt : ¬i < script.sequences.length := Nat.not_lt.2 (List.getElem?_eq_none_iff.1 hs)
        refine .inr (.inr ⟨?_, ?_, ?_⟩)
        · rw [binding?, hscript, Option.bind_some, if_neg hlt]
        · rw [reachedBy, hscript, Option.bind_some, hs, Option.elim_none]
        · rw [hperform, bind_of_none c hs]
          exact ⟨rfl, id, rfl⟩
      | some steps =>
        have hlt : i < script.sequences.length := (List.getElem?_eq_some_iff.1 hs).1
        refine .inl ⟨script, i, steps, ?_, hs, hperform, ?_⟩
        · rw [binding?, hscript, Option.bind_some, if_pos hlt]
        · rw [reachedBy, hscript, Option.bind_some, hs, Option.elim_some]
  | update delta body => exact .inr (.inl ⟨delta, body, rfl⟩)
  | setGenerator generator =>
    refine .inr (.inr ⟨rfl, rfl, rfl, ?_, rfl⟩)
    intro h
    unfold perform setGenerator generatorActive at h
    cases hg : generator with
    | none =>
      rw [hg] at h
      cases h
    | some g =>
      rw [hg] at h
      exact h
  | setCurve curve => exact .inr (.inr ⟨rfl, rfl, rfl, id, rfl⟩)
  | setFaceHeading faceHeading => exact .inr (.inr ⟨rfl, rfl, rfl, id, rfl⟩)
  | manualMove direction speed => exact .inr (.inr ⟨rfl, rfl, rfl, id, rfl⟩)
  | manualAccelerate direction amount => exact .inr (.inr ⟨rfl, rfl, rfl, id, rfl⟩)
  | manualTime duration => exact .inr (.inr ⟨rfl, rfl, rfl, id, rfl⟩)

/-- **The steps that an update reaches** are those that follow the current one up to the new current one. -/
theorem reachedBy_update (c : Controller γ) (delta : Scalar) (body : β) :
    c.step ≤ (c.perform (.update delta body)).step ∧ c.reachedBy (.update delta body) =
      stretch (c.steps?.getD []) c.step (c.perform (.update delta body)).step := by
  obtain ⟨hle, h⟩ := Scene.reaches_update ({ controller := c, body } : Scene γ β) delta
  refine ⟨hle, h.reached.trans ?_⟩
  rw [(Scene.reports_flush_tick _ delta).1]
  rfl

/-- **The parameters of the generator** are those of the last step that has set it going, and if it runs then
some step has, or it has been running before. -/
theorem spawn_perform (c : Controller γ) (op : Operation γ β) :
    (c.perform op).spawn = (lastSpawn (c.reachedBy op)).getD c.spawn ∧
      ((c.perform op).generatorActive → c.generatorActive ∨ (lastSpawn (c.reachedBy op)).isSome) := by
  rcases perform_cases c op with
    ⟨script, i, steps, -, hs, hperform, hreached⟩ | ⟨delta, body, rfl⟩ | ⟨-, hreached, hspawn, hactive, -⟩
  · have h := (defers_bind c hs).1
    rw [hperform, hreached]
    refine ⟨h.spawn, fun hactive => .inr ?_⟩
    rw [generatorActive, h.activation] at hactive
    by_contra hnone
    rw [Bool.not_eq_true] at hnone
    rw [hnone, Bool.and_false] at hactive
    cases hactive
  · have h := (Scene.reaches_update ({ controller := c, body } : Scene γ β) delta).2
    obtain ⟨-, hspawn, hactive⟩ := Scene.controller_flush_tick ({ controller := c, body } : Scene γ β) delta
    rw [(reachedBy_update c delta body).2]
    constructor
    · refine h.spawn.trans ?_
      rw [hspawn]
      rfl
    · intro hrun
      have hrun' := h.active.symm.trans hrun
      rw [hactive, Bool.or_eq_true, Bool.and_eq_true] at hrun'
      exact hrun'.imp id And.right
  · rw [hreached]
    exact ⟨hspawn, fun h => .inl (hactive h)⟩

/-- **The parameters of the generator over a history.** -/
theorem spawn_history (ops : List (Operation γ β)) (c : Controller γ) :
    (ops.foldl perform c).spawn = (lastSpawn (history c ops)).getD c.spawn ∧
      ((ops.foldl perform c).generatorActive → c.generatorActive ∨ (lastSpawn (history c ops)).isSome) := by
  induction ops generalizing c with
  | nil => exact ⟨rfl, .inl⟩
  | cons op ops ih =>
    obtain ⟨hspawn, hactive⟩ := ih (c.perform op)
    obtain ⟨hspawn', hactive'⟩ := spawn_perform c op
    rw [List.foldl_cons, history, lastSpawn_append]
    refine ⟨?_, fun h => ?_⟩
    · rw [hspawn, hspawn', Option.getD_or]
    · rw [Option.isSome_or, Bool.or_eq_true]
      rcases hactive h with h | h
      · exact (hactive' h).imp id .inr
      · exact .inr (.inl h)

end Controller

end MotionScript
