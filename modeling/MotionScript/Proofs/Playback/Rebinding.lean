import MotionScript.Generator.Stock
import MotionScript.Proofs.Playback.History

/-!
# What a binding forgets

A binding keeps the settings and the generator, and the parameters that a step has given to it. Nobody looks at
these before another step sets the generator going, and that step replaces them. So nothing tells what has been
before a binding.

* `Controller.Twin`, `Scene.Twin`: no difference but in parameters of a generator that does not run.
* `Scene.twin_play`, `Scene.twin_update`: playback keeps it so, from step to step and from update to update.
* `Controller.rebinding_forgets`: two controllers that are bound alike go on alike.
-/

namespace MotionScript

variable {γ β : Type}

/-! ## Twins -/

namespace Controller

/-- The controller with other parameters of its generator. -/
def withSpawn (c : Controller γ) (p : SpawnParams) : Controller γ := { c with spawn := p }

/-- The controllers are the same but for the parameters of a generator that does not run. -/
def Twin (c d : Controller γ) : Prop := d = c ∨ c.generatorActive = false ∧ ∃ p, d = c.withSpawn p

theorem Twin.withSpawn_eq {c d : Controller γ} (h : c.Twin d) : c.withSpawn d.spawn = d := by
  rcases h with rfl | ⟨-, p, rfl⟩ <;> rfl

theorem Twin.settings {c d : Controller γ} (h : c.Twin d) : d.script = c.script ∧ d.curve = c.curve ∧
    d.faceHeading = c.faceHeading ∧ d.generator = c.generator := by
  rw [← h.withSpawn_eq]
  exact ⟨rfl, rfl, rfl, rfl⟩

/-- What neither looks at the parameters nor sets the generator going keeps controllers twins. -/
theorem Twin.map {c d : Controller γ} (h : c.Twin d) (f : Controller γ → Controller γ)
    (hf : ∀ p, f (c.withSpawn p) = (f c).withSpawn p)
    (hactive : c.generatorActive = false → (f c).generatorActive = false) : (f c).Twin (f d) := by
  rcases h with rfl | ⟨ha, p, rfl⟩
  · exact .inl rfl
  · exact .inr ⟨hactive ha, p, hf p⟩

end Controller

namespace Scene

/-- The scenes are the same but for the parameters of a generator that does not run. -/
def Twin (s t : Scene γ β) : Prop :=
  t = s ∨ s.controller.generatorActive = false ∧ ∃ p, t = s.control (·.withSpawn p)

variable {s t : Scene γ β}

theorem Twin.withSpawn_eq (h : s.Twin t) : s.control (·.withSpawn t.controller.spawn) = t := by
  rcases h with rfl | ⟨-, p, rfl⟩ <;> rfl

theorem Twin.body (h : s.Twin t) : t.body = s.body := congrArg (·.body) h.withSpawn_eq.symm

theorem Twin.journal (h : s.Twin t) : t.journal = s.journal := congrArg (·.journal) h.withSpawn_eq.symm

theorem Twin.mode (h : s.Twin t) : t.controller.mode = s.controller.mode :=
  congrArg (·.controller.mode) h.withSpawn_eq.symm

theorem Twin.step (h : s.Twin t) : t.controller.step = s.controller.step :=
  congrArg (·.controller.step) h.withSpawn_eq.symm

theorem Twin.steps? (h : s.Twin t) : t.controller.steps? = s.controller.steps? :=
  congrArg (·.controller.steps?) h.withSpawn_eq.symm

theorem Twin.isDue (h : s.Twin t) : t.controller.isDue = s.controller.isDue :=
  congrArg (·.controller.isDue) h.withSpawn_eq.symm

theorem Twin.controller (h : s.Twin t) : s.controller.Twin t.controller := by
  rcases h with rfl | ⟨ha, p, rfl⟩
  · exact .inl rfl
  · exact .inr ⟨ha, p, rfl⟩

/-- What neither looks at the parameters nor sets the generator going keeps scenes twins. -/
theorem Twin.map (h : s.Twin t) (f : Scene γ β → Scene γ β)
    (hf : ∀ p, f (s.control (·.withSpawn p)) = (f s).control (·.withSpawn p))
    (hactive : s.controller.generatorActive = false → (f s).controller.generatorActive = false) :
    (f s).Twin (f t) := by
  rcases h with rfl | ⟨ha, p, rfl⟩
  · exact .inl rfl
  · exact .inr ⟨hactive ha, p, hf p⟩

theorem twin_leave (h : s.Twin t) : s.leave.Twin t.leave := h.map leave (fun _ => rfl) id

theorem twin_next (h : s.Twin t) : (s.control (·.next)).Twin (t.control (·.next)) :=
  h.map (·.control (·.next)) (fun _ => rfl) id

/-! ## Motion -/

section Motion

variable [Target β]

theorem face_withSpawn (s : Scene γ β) (p : SpawnParams) (direction : Vec2) :
    (s.control (·.withSpawn p)).face direction = (s.face direction).control (·.withSpawn p) := by
  by_cases h : s.controller.faceHeading
  · have h' : (s.control (·.withSpawn p)).controller.faceHeading := h
    unfold face
    rw [if_pos h, if_pos h']
    rfl
  · have h' : ¬(s.control (·.withSpawn p)).controller.faceHeading := h
    unfold face
    rw [if_neg h, if_neg h']

theorem drift_withSpawn (s : Scene γ β) (p : SpawnParams) (dt : Scalar) :
    (s.control (·.withSpawn p)).drift dt = (s.drift dt).control (·.withSpawn p) := by
  have hturn (t : Scene γ β) (v : Vec2) :
      (if v == 0 then t.control (·.withSpawn p) else (t.control (·.withSpawn p)).face v) =
        (if v == 0 then t else t.face v).control (·.withSpawn p) := by
    split
    · rfl
    · exact face_withSpawn t p v
  unfold drift
  by_cases h : dt ≤ 0
  · rw [if_pos h, if_pos h]
  · rw [if_neg h, if_neg h]
    exact hturn
      { controller := { s.controller with velocity := s.controller.velocity + s.controller.acceleration * dt }
        body := Target.moveTo s.body (Target.position s.body + .ofPlane (s.controller.velocity * dt) 0)
        journal := .drifted s.controller.step dt :: s.journal } _

theorem follow_withSpawn (s : Scene γ β) (p : SpawnParams) (time : Scalar) :
    (s.control (·.withSpawn p)).follow time = (s.follow time).control (·.withSpawn p) := by
  have hturn (t : Scene γ β) (direction : Vec2) := congrArg
    (fun u : Scene γ β => u.note (.followed u.controller.step time)) (face_withSpawn t p direction)
  have hpath : (s.control (·.withSpawn p)).controller.path = s.controller.path := rfl
  unfold follow
  cases hposition : s.controller.path.position? time with
  | none =>
    cases hheading : s.controller.path.heading? time with
    | none =>
      simp only [hpath, hposition, hheading]
      rfl
    | some direction =>
      simp only [hpath, hposition, hheading]
      exact hturn s direction
  | some point =>
    cases hheading : s.controller.path.heading? time with
    | none =>
      simp only [hpath, hposition, hheading]
      rfl
    | some direction =>
      simp only [hpath, hposition, hheading]
      exact hturn { s with body := Target.moveTo s.body (.ofPlane point (Target.position s.body).z) } direction

theorem advance_withSpawn (s : Scene γ β) (p : SpawnParams) (start dt : Scalar) :
    (s.control (·.withSpawn p)).advance start dt = (s.advance start dt).control (·.withSpawn p) := by
  have hm : (s.control (·.withSpawn p)).controller.mode = s.controller.mode := rfl
  unfold advance
  rw [hm]
  cases s.controller.mode with
  | move => exact drift_withSpawn s p dt
  | path => exact follow_withSpawn s p _
  | vanished => rfl
  | manual => rfl

/-- A motion looks at nothing of the generator. -/
theorem twin_advance (h : s.Twin t) (start dt : Scalar) : (s.advance start dt).Twin (t.advance start dt) := by
  refine h.map (·.advance start dt) (fun p => advance_withSpawn s p start dt) fun ha => ?_
  obtain ⟨v, hc⟩ := controller_advance s start dt
  rw [hc]
  exact ha

theorem twin_overflow (h : s.Twin t) : s.overflow.Twin t.overflow := by
  rcases h with rfl | ⟨ha, p, rfl⟩
  · exact .inl rfl
  · exact twin_advance (.inr ⟨ha, p, rfl⟩) 0 (Scalar.max (Scalar.min s.controller.elapsed s.controller.target) 0)

theorem twin_proceed (h : s.Twin t) (delta : Scalar) : (s.proceed delta).Twin (t.proceed delta) := by
  rcases h with rfl | ⟨ha, p, rfl⟩
  · exact .inl rfl
  · have hadvance := twin_advance (.inr ⟨ha, p, rfl⟩ : s.Twin (s.control (·.withSpawn p))) s.controller.elapsed
      (Scalar.min (Scalar.max (s.controller.target - s.controller.elapsed) 0) delta)
    exact hadvance.map (·.control fun c => { c with elapsed := c.elapsed + delta }) (fun _ => rfl) id

theorem twin_driveManually (h : s.Twin t) (delta : Scalar) : (s.driveManually delta).Twin (t.driveManually delta) := by
  have hdrift : (s.drift delta).Twin (t.drift delta) := by
    refine h.map (·.drift delta) (fun p => drift_withSpawn s p delta) fun ha => ?_
    obtain ⟨v, hc⟩ := controller_drift s delta
    rw [hc]
    exact ha
  exact hdrift.map (·.control fun c =>
    { c with elapsed := Scalar.min (c.elapsed + delta) (Scalar.max c.target 0) }) (fun _ => rfl) id

end Motion

/-! ## Steps -/

section Playback

variable [Target β] [Generator γ β]

/-- A step that does not set the generator going leaves it as it is. -/
theorem generatorActive_reach (s : Scene γ β) (rest : List Step) {step : Step} (h : step.spawn? = none) :
    (s.reach rest step).controller.generatorActive = s.controller.generatorActive := by
  let q : Scene γ β := (s.note (.reached s.controller.step step)).control (·.enter rest step)
  obtain ⟨g, activation, hc, -, hactive⟩ := controller_deliver q step
  have hreach : s.reach rest step = q.deliver step := rfl
  have hentered : q.controller.generatorActive = s.controller.generatorActive :=
    congrArg (· != Activation.dormant) (Controller.activation_enter rest s.controller step)
  rw [hreach, Controller.generatorActive, hc, hactive, h, hentered]
  simp

/-- **Reaching a step.** One that sets the generator going gives it its parameters, whatever they have been. -/
theorem twin_reach (h : s.Twin t) (rest : List Step) (step : Step) :
    (s.reach rest step).Twin (t.reach rest step) := by
  cases hs : step.spawn? with
  | some p =>
    rcases h with rfl | ⟨-, p', rfl⟩
    · exact .inl rfl
    · cases step with
      | generate speed direction => exact .inl rfl
      | _ => cases hs
  | none =>
    refine h.map (·.reach rest step) (fun p => ?_) fun ha => (generatorActive_reach s rest hs).trans ha
    cases step with
    | generate speed direction => cases hs
    | animate sequence =>
      unfold reach deliver
      by_cases hn : 0 ≤ sequence
      · simp only [Step.animation?, if_pos hn]
        rfl
      · simp only [Step.animation?, if_neg hn]
        rfl
    | _ => rfl

/-- **From step to step** scenes stay twins. -/
theorem twin_play (rest : List Step) (h : s.Twin t) : (play rest s).Twin (play rest t) := by
  induction rest generalizing s t with
  | nil => exact twin_overflow h
  | cons step rest ih =>
    have hreach := twin_reach h rest step
    have hover := twin_overflow hreach
    rw [play_cons, play_cons, Controller.isDeletable, Controller.isDeletable, hreach.mode, hover.isDue]
    split
    · exact ih (twin_next hreach)
    · split
      · exact hreach
      · split
        · exact ih (twin_leave hover)
        · exact hover

/-! ## Updates -/

/-- Of a generator that does not run, nothing has been put off. -/
theorem flush_of_dormant (h : s.controller.generatorActive = false) : s.flush =
    match s.controller.pendingAnimation with
    | some n => (s.control fun c => { c with pendingAnimation := none }).switch n
    | none => s := by
  have hdormant : s.controller.activation ≠ .pending := by
    intro hpending
    rw [Controller.generatorActive, hpending] at h
    cases h
  obtain ⟨t, ht, ⟨-, hflush⟩ | ⟨hpending, -⟩⟩ := flush_cases s
  · rcases ht with ⟨hn, rfl⟩ | ⟨n, hn, rfl⟩
    · rw [hflush, hn]
    · rw [hflush, hn]
  · exact absurd hpending hdormant

/-- What a binding has put off is handed over alike. -/
theorem twin_flush (h : s.Twin t) : s.flush.Twin t.flush := by
  rcases h with rfl | ⟨ha, p, rfl⟩
  · exact .inl rfl
  · refine .inr ⟨?_, p, ?_⟩
    · obtain ⟨g, activation, n, hc, -, hactive⟩ := controller_flush s
      rw [Controller.generatorActive, hc]
      exact hactive.trans ha
    · have ha' : (s.control (·.withSpawn p)).controller.generatorActive = false := ha
      have hn : (s.control (·.withSpawn p)).controller.pendingAnimation = s.controller.pendingAnimation := rfl
      rw [flush_of_dormant ha, flush_of_dormant ha', hn]
      cases s.controller.pendingAnimation with
      | none => rfl
      | some n => rfl

omit [Target β] in
theorem twin_tick (h : s.Twin t) (delta : Scalar) : (s.tick delta).Twin (t.tick delta) := by
  rcases h with rfl | ⟨ha, p, rfl⟩
  · exact .inl rfl
  · -- a generator that does not run is not called
    have htick (u : Scene γ β) (hu : u.controller.generatorActive = false) : u.tick delta = u := by
      unfold tick
      rw [hu]
      exact if_neg fun h => Bool.false_ne_true h.1
    rw [htick s ha, htick (s.control (·.withSpawn p)) ha]
    exact .inr ⟨ha, p, rfl⟩

theorem twin_playOn (h : s.Twin t) (delta : Scalar) (steps : Sequence) :
    (s.playOn delta steps).Twin (t.playOn delta steps) := by
  have hproceed := twin_proceed h delta
  unfold playOn
  dsimp only
  rw [hproceed.isDue, hproceed.step]
  split
  · exact twin_play _ (twin_leave hproceed)
  · exact hproceed

/-- **An update** keeps scenes twins. -/
theorem twin_update (h : s.Twin t) (delta : Scalar) : (s.update delta).Twin (t.update delta) := by
  have hprepared := twin_tick (twin_flush h) delta
  unfold update
  dsimp only
  rw [hprepared.mode, hprepared.steps?]
  cases (s.flush.tick delta).controller.mode with
  | manual => exact twin_driveManually hprepared delta
  | vanished => exact hprepared
  | move =>
    cases (s.flush.tick delta).controller.steps? with
    | none => exact hprepared
    | some steps => exact twin_playOn hprepared delta steps
  | path =>
    cases (s.flush.tick delta).controller.steps? with
    | none => exact hprepared
    | some steps => exact twin_playOn hprepared delta steps

end Playback

end Scene

/-! ## Operations -/

namespace Controller

variable {c d : Controller γ}

/-- Twins with one and the same entity. -/
theorem Twin.scene (h : c.Twin d) (body : β) : Scene.Twin { controller := c, body } { controller := d, body } := by
  rcases h with rfl | ⟨ha, p, rfl⟩
  · exact .inl rfl
  · exact .inr ⟨ha, p, rfl⟩

/-- Reaching a step without an entity at hand. -/
theorem twin_enter (h : c.Twin d) (rest : List Step) (step : Step) :
    ((c.enter rest step).defer step).Twin ((d.enter rest step).defer step) := by
  cases hs : step.spawn? with
  | some p =>
    rcases h with rfl | ⟨-, p', rfl⟩
    · exact .inl rfl
    · cases step with
      | generate speed direction => exact .inl rfl
      | _ => cases hs
  | none =>
    refine h.map (fun c => (c.enter rest step).defer step) (fun p => ?_) fun ha => ?_
    · cases step with
      | generate speed direction => cases hs
      | animate sequence =>
        by_cases hn : 0 ≤ sequence
        · simp only [defer, Step.animation?, if_pos hn]
          rfl
        · simp only [defer, Step.animation?, if_neg hn]
          rfl
      | _ => rfl
    · obtain ⟨n, hn⟩ := exists_defer (c.enter rest step) step
      rw [generatorActive, hn, hs, Option.isSome_none, Bool.and_false, activation_enter]
      exact ha

/-- **A binding reaches its steps alike**, whatever parameters the generator has had. -/
theorem twin_scan (steps : List Step) (h : c.Twin d) : (scan steps c).Twin (scan steps d) := by
  induction steps generalizing c d with
  | nil => exact h
  | cons step rest ih =>
    have henter := twin_enter h rest step
    unfold scan
    dsimp only
    split
    · exact ih (henter.map next (fun _ => rfl) id)
    · exact henter

/-- **Bound alike, controllers with the same settings and generators are twins.** -/
theorem twin_bind (hcurve : d.curve = c.curve) (hface : d.faceHeading = c.faceHeading)
    (hgenerator : d.generator = c.generator) {script : ScriptSet} {i : ℕ} {steps : Sequence}
    (hsteps : script.sequence? i = some steps) : (c.bind script i).Twin (d.bind script i) := by
  have hi : i < script.sequences.length := (List.getElem?_eq_some_iff.1 hsteps).1
  have hc : ({ c with script := some script, sequence := i } : Controller γ).steps? = some steps := hsteps
  have hd : ({ d with script := some script, sequence := i } : Controller γ).steps? = some steps := hsteps
  unfold bind restart
  rw [if_pos hi, if_pos hi, hc, hd]
  refine twin_scan steps (.inr ⟨rfl, d.spawn, ?_⟩)
  unfold reset withSpawn
  rw [hcurve, hface, hgenerator]
  rfl

variable [Target β] [Generator γ β]

/-- **Operations** keep controllers twins, and reach the same steps. -/
theorem twin_perform (h : c.Twin d) (op : Operation γ β) :
    (c.perform op).Twin (d.perform op) ∧ c.reachedBy op = d.reachedBy op := by
  obtain ⟨hscript, hcurve, hface, hgenerator⟩ := h.settings
  have hbind (script : ScriptSet) (i : ℕ) : (c.bind script i).Twin (d.bind script i) := by
    cases hs : script.sequence? i with
    | none =>
      rw [bind_of_none c hs, bind_of_none d hs]
      exact h
    | some steps => exact twin_bind hcurve hface hgenerator hs
  cases op with
  | bind script i => exact ⟨hbind script i, rfl⟩
  | selectSequence i =>
    have hselect : (c.selectSequence i).Twin (d.selectSequence i) := by
      cases hs : c.script with
      | none =>
        rw [selectSequence_of_none c hs, selectSequence_of_none d (hscript.trans hs)]
        exact h
      | some script =>
        rw [selectSequence_eq_bind c hs, selectSequence_eq_bind d (hscript.trans hs)]
        exact hbind script i
    exact ⟨hselect, by rw [reachedBy, reachedBy, hscript]⟩
  | update delta body =>
    have hupdate := Scene.twin_update (h.scene body) delta
    refine ⟨hupdate.controller, ?_⟩
    rw [reachedBy, reachedBy, Scene.reached, Scene.reached, Scene.events, Scene.events, hupdate.journal]
  | setGenerator generator =>
    refine ⟨h.map (·.setGenerator generator) (fun _ => rfl) fun ha => ?_, rfl⟩
    cases generator with
    | none => rfl
    | some => exact ha
  | setCurve curve => exact ⟨h.map (·.setCurve curve) (fun _ => rfl) id, rfl⟩
  | setFaceHeading faceHeading => exact ⟨h.map (·.setFaceHeading faceHeading) (fun _ => rfl) id, rfl⟩
  | manualMove direction speed => exact ⟨h.map (·.manualMove direction speed) (fun _ => rfl) id, rfl⟩
  | manualAccelerate direction amount => exact ⟨h.map (·.manualAccelerate direction amount) (fun _ => rfl) id, rfl⟩
  | manualTime duration => exact ⟨h.map (·.manualTime duration) (fun _ => rfl) id, rfl⟩

/-- **Histories** of twins are the same. -/
theorem twin_history (h : c.Twin d) (ops : List (Operation γ β)) :
    (ops.foldl perform c).Twin (ops.foldl perform d) ∧ c.history ops = d.history ops := by
  induction ops generalizing c d with
  | nil => exact ⟨h, rfl⟩
  | cons op ops ih =>
    obtain ⟨hperform, hreached⟩ := twin_perform h op
    obtain ⟨hrest, hhistory⟩ := ih hperform
    exact ⟨hrest, by rw [history, history, hreached, hhistory]⟩

/-- **A binding forgets what has been before.** Two controllers with the same settings and generators that are bound
alike go on alike under whatever operations: they are the same but for the parameters of the generator, and an
update does the same to the entity and reports the same. Once a step has set a generator going, those are the same
as well. -/
theorem rebinding_forgets (c d : Controller γ) (hcurve : c.curve = d.curve) (hface : c.faceHeading = d.faceHeading)
    (hgenerator : c.generator = d.generator) {script : ScriptSet} {i : ℕ} {steps : Sequence}
    (hsteps : script.sequence? i = some steps) (ops : List (Operation γ β)) :
    let c' := ops.foldl perform (c.bind script i)
    let d' := ops.foldl perform (d.bind script i)
    { c' with spawn := d'.spawn } = d' ∧
    (∀ delta (body : β),
      let s : Scene γ β := Scene.update { controller := c', body } delta
      let t : Scene γ β := Scene.update { controller := d', body } delta
      s.body = t.body ∧ s.events = t.events) ∧
    ((lastSpawn (opening steps ++ history (c.bind script i) ops)).isSome → c' = d') := by
  intro c' d'
  have hbound := twin_bind hcurve.symm hface.symm hgenerator.symm hsteps
  obtain ⟨htwin, hhistory⟩ := twin_history hbound ops
  refine ⟨htwin.withSpawn_eq, fun delta body => ?_, fun hspawn => ?_⟩
  · have hupdate := Scene.twin_update (htwin.scene body) delta
    exact ⟨hupdate.body.symm, congrArg List.reverse hupdate.journal.symm⟩
  · -- the parameters are those of the last step that has set the generator going, on both sides
    have hparameters (e : Controller γ) (he : history (e.bind script i) ops = history (c.bind script i) ops) :
        some (ops.foldl perform (e.bind script i)).spawn =
          lastSpawn (opening steps ++ history (c.bind script i) ops) := by
      obtain ⟨p, hp⟩ := Option.isSome_iff_exists.1 hspawn
      rw [(spawn_history ops (e.bind script i)).1, (defers_bind e hsteps).1.spawn, he, ← Option.getD_or,
        ← lastSpawn_append, hp]
      rfl
    have hsame : c'.spawn = d'.spawn := Option.some.inj ((hparameters c rfl).trans (hparameters d hhistory.symm).symm)
    have hrest : c'.withSpawn d'.spawn = d' := htwin.withSpawn_eq
    rw [← hsame] at hrest
    exact hrest

theorem rebinding_forgets_flight :
    let steps : Sequence := [.wait 1, .generate 1 2, .wait 1]
    let c : Controller Stock := manual.setGenerator (some (.singleShot none))
    let d : Controller Stock := c.bind ⟨"flight", [[.move 0 10, .generate 3 4, .animate 5, .wait 1]]⟩ 0
    let ops : List (Operation Stock Body) := [.update 1.5 {}]
    (c.curve = d.curve ∧ c.faceHeading = d.faceHeading ∧ c.generator = d.generator) ∧ c.spawn ≠ d.spawn ∧
      ops.foldl perform (c.bind ⟨"shot", [steps]⟩ 0) = ops.foldl perform (d.bind ⟨"shot", [steps]⟩ 0) := by
  intro steps c d ops
  have hcurve : c.curve = d.curve := rfl
  have hface : c.faceHeading = d.faceHeading := rfl
  have hgenerator : c.generator = d.generator := rfl
  have hspawn : c.spawn ≠ d.spawn := by decide +kernel
  have hsteps : (⟨"shot", [steps]⟩ : ScriptSet).sequence? 0 = some steps := rfl
  have hshot : (lastSpawn (opening steps ++ history (c.bind ⟨"shot", [steps]⟩ 0) ops)).isSome := by decide +kernel
  obtain ⟨-, -, hsame⟩ := rebinding_forgets c d hcurve hface hgenerator hsteps ops
  exact ⟨⟨hcurve, hface, hgenerator⟩, hspawn, hsame hshot⟩

end Controller

end MotionScript
