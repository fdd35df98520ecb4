import MotionScript.Controller.Playback
import Mathlib

/-!
# Where playback stands

Neither the entity nor a generator nor the velocity has a say in which step is played and how far it
has come. What of a controller does tell, its playhead, therefore runs by itself.

* `Playhead.play`, `Playhead.update`: playback of the playhead alone.
* `playhead_scan`, `playhead_play`: from step to step a controller's playhead does just that.
* `playhead_bind`, `playhead_update`: so it does in bindings and updates.
-/

namespace MotionScript

variable {γ β : Type}

/-- The mode in which reaching a step leaves the playhead. -/
def Step.modeFrom (step : Step) (mode : Mode) : Mode :=
  match step with
  | .move _ _ | .accelerate _ _ | .wait _ => .move
  | .path _ _ _ => .path
  | .vanish => .vanished
  | _ => mode

/-- The script drives the entity unless it has ended it or the owner has taken over. -/
theorem Mode.driven {mode : Mode} (hv : mode ≠ .vanished) (hm : mode ≠ .manual) : mode = .move ∨ mode = .path := by
  cases mode with
  | move => exact .inl rfl
  | path => exact .inr rfl
  | vanished => exact absurd rfl hv
  | manual => exact absurd rfl hm

/-- What of a controller tells where playback stands. -/
structure Playhead where
  script : Option ScriptSet
  sequence : ℕ
  step : ℕ
  mode : Mode
  elapsed : Scalar
  target : Scalar
  path : PathTable
  curve : CurveSettings

/-- The playhead of a controller. -/
def Controller.playhead (c : Controller γ) : Playhead :=
  ⟨c.script, c.sequence, c.step, c.mode, c.elapsed, c.target, c.path, c.curve⟩

namespace Playhead

/-- The steps of the sequence that is played, if there is one. -/
def steps? (p : Playhead) : Option Sequence := p.script.bind (·.sequence? p.sequence)

/-- The time of the current step is up. -/
def isDue (p : Playhead) : Bool := p.target ≤ p.elapsed + Controller.timeTolerance

/-- What reaching a step does; `rest` are the steps behind it. -/
def enter (rest : List Step) (p : Playhead) : Step → Playhead
  | .move _ _ => { p with mode := .move }
  | .accelerate _ _ => { p with mode := .move }
  | .wait duration => { p with target := Scalar.max duration 0, mode := .move }
  | .path duration count interpolation =>
    { p with
      path := .build (Step.controlPoints count rest) duration interpolation p.curve
      target := Scalar.max duration 0
      mode := .path }
  | .vanish => { p with mode := .vanished }
  | _ => p

/-- The current step is done with. -/
def next (p : Playhead) : Playhead := { p with step := p.step + 1 }

/-- The current step is over. -/
def leave (p : Playhead) : Playhead :=
  { p with elapsed := p.elapsed - p.target, target := 0, step := p.step + 1 }

/-- Time passes. -/
def wait (p : Playhead) (delta : Scalar) : Playhead := { p with elapsed := p.elapsed + delta }

/-- The steps from the current one on, up to the first that takes time. -/
def scan : List Step → Playhead → Playhead
  | [], p => p
  | step :: rest, p =>
    let p := p.enter rest step
    if step.IsInstant then scan rest p.next else p

/-- The steps from the current one on, up to one that is not over yet. -/
def play : List Step → Playhead → Playhead
  | [], p => p
  | step :: rest, p =>
    let p := p.enter rest step
    if step.IsInstant then play rest p.next
    else if p.mode = .vanished then p
    else if p.isDue then play rest p.leave
    else p

/-- The playhead at the start of a sequence, before its first step. -/
def start (script : ScriptSet) (sequence : ℕ) (curve : CurveSettings) : Playhead where
  script := some script
  sequence
  step := 0
  mode := .move
  elapsed := 0
  target := 0
  path := .empty
  curve

/-- Plays on by a time. -/
def playOn (p : Playhead) (delta : Scalar) (steps : Sequence) : Playhead :=
  let p := p.wait delta
  if p.isDue ∧ p.step < steps.length then play (steps.drop (p.step + 1)) p.leave else p

/-- Time passes under manual control. -/
def drive (p : Playhead) (delta : Scalar) : Playhead :=
  { p with elapsed := Scalar.min (p.elapsed + delta) (Scalar.max p.target 0) }

/-- One update. -/
def update (p : Playhead) (delta : Scalar) : Playhead :=
  match p.mode with
  | .manual => p.drive delta
  | .vanished => p
  | .move | .path => p.steps?.elim p (p.playOn delta)

/-! ## From step to step -/

variable {p : Playhead} {rest : List Step} {step : Step}

@[simp]
theorem script_enter : (p.enter rest step).script = p.script := by cases step <;> rfl

@[simp]
theorem sequence_enter : (p.enter rest step).sequence = p.sequence := by cases step <;> rfl

@[simp]
theorem step_enter : (p.enter rest step).step = p.step := by cases step <;> rfl

@[simp]
theorem elapsed_enter : (p.enter rest step).elapsed = p.elapsed := by cases step <;> rfl

@[simp]
theorem step_next (p : Playhead) : p.next.step = p.step + 1 := rfl

@[simp]
theorem step_leave (p : Playhead) : p.leave.step = p.step + 1 := rfl

theorem update_manual (h : p.mode = .manual) (delta : Scalar) : p.update delta = p.drive delta := by
  rw [update, h]

theorem update_vanished (h : p.mode = .vanished) (delta : Scalar) : p.update delta = p := by
  rw [update, h]

theorem update_driven {steps : Sequence} (h : p.mode = .move ∨ p.mode = .path) (hs : p.steps? = some steps)
    (delta : Scalar) : p.update delta = p.playOn delta steps := by
  rcases h with h | h <;> rw [update, h, hs, Option.elim_some]

theorem mode_enter (rest : List Step) (p : Playhead) (step : Step) :
    (p.enter rest step).mode = step.modeFrom p.mode := by
  cases step <;> rfl

/-- Playback stays in its sequence. -/
theorem sequence_play (steps : List Step) (p : Playhead) :
    (play steps p).script = p.script ∧ (play steps p).sequence = p.sequence := by
  induction steps generalizing p with
  | nil => exact ⟨rfl, rfl⟩
  | cons step rest ih =>
    have henter : (p.enter rest step).script = p.script ∧ (p.enter rest step).sequence = p.sequence :=
      ⟨script_enter, sequence_enter⟩
    unfold play
    dsimp only
    split
    · rw [(ih _).1, (ih _).2]
      exact henter
    · split
      · exact henter
      · split
        · rw [(ih _).1, (ih _).2]
          exact henter
        · exact henter

theorem sequence_scan (steps : List Step) (p : Playhead) :
    (scan steps p).script = p.script ∧ (scan steps p).sequence = p.sequence := by
  induction steps generalizing p with
  | nil => exact ⟨rfl, rfl⟩
  | cons step rest ih =>
    have henter : (p.enter rest step).script = p.script ∧ (p.enter rest step).sequence = p.sequence :=
      ⟨script_enter, sequence_enter⟩
    unfold scan
    dsimp only
    split
    · rw [(ih _).1, (ih _).2]
      exact henter
    · exact henter

/-- An update stays in the sequence. -/
theorem sequence_update (p : Playhead) (delta : Scalar) :
    (p.update delta).script = p.script ∧ (p.update delta).sequence = p.sequence := by
  unfold update
  split
  · exact ⟨rfl, rfl⟩
  · exact ⟨rfl, rfl⟩
  all_goals
    cases p.steps? with
    | none => exact ⟨rfl, rfl⟩
    | some steps =>
      rw [Option.elim_some]
      unfold playOn
      dsimp only
      split
      · exact sequence_play _ _
      · exact ⟨rfl, rfl⟩

theorem steps?_update (p : Playhead) (delta : Scalar) : (p.update delta).steps? = p.steps? := by
  obtain ⟨hscript, hsequence⟩ := sequence_update p delta
  rw [steps?, steps?, hscript, hsequence]

theorem steps?_updates (deltas : List Scalar) (p : Playhead) :
    (deltas.foldl update p).steps? = p.steps? := by
  induction deltas generalizing p with
  | nil => rfl
  | cons delta deltas ih => rw [List.foldl_cons, ih, steps?_update]

theorem steps?_scan_start {script : ScriptSet} {i : ℕ} {steps : Sequence} (curve : CurveSettings)
    (h : script.sequence? i = some steps) : ((start script i curve).scan steps).steps? = some steps := by
  obtain ⟨hscript, hsequence⟩ := sequence_scan steps (start script i curve)
  rw [steps?, hscript, hsequence]
  exact h

theorem drop_eq_cons {steps : Sequence} {i : ℕ} (h : steps.drop i = step :: rest) :
    steps[i]? = some step ∧ rest = steps.drop (i + 1) := by
  constructor
  · rw [← List.head?_drop, h, List.head?_cons]
  · rw [← List.tail_drop, h, List.tail_cons]

/-- **Induction along playback.** What holds on the way from step to step comes to hold of a playhead at
rest, at a step that is not over or at the end. -/
theorem play_induction {steps : Sequence} (Way Rest : Playhead → Prop)
    (finish : ∀ p, Way p → p.step = steps.length → Rest p)
    (instant : ∀ p step, Way p → steps[p.step]? = some step → step.IsInstant →
      Way (p.enter (steps.drop (p.step + 1)) step).next)
    (stay : ∀ p step, Way p → steps[p.step]? = some step → ¬step.IsInstant →
      ((p.enter (steps.drop (p.step + 1)) step).mode ≠ .vanished →
        ¬(p.enter (steps.drop (p.step + 1)) step).isDue) →
      Rest (p.enter (steps.drop (p.step + 1)) step))
    (leave : ∀ p step, Way p → steps[p.step]? = some step → ¬step.IsInstant →
      (p.enter (steps.drop (p.step + 1)) step).mode ≠ .vanished →
      (p.enter (steps.drop (p.step + 1)) step).isDue →
      Way (p.enter (steps.drop (p.step + 1)) step).leave)
    {p : Playhead} (hp : Way p) (hle : p.step ≤ steps.length) : Rest (play (steps.drop p.step) p) := by
  -- on the steps ahead, of which the playhead tells by its index how many there are
  generalize hrest : steps.drop p.step = rest
  induction rest generalizing p with
  | nil =>
    have := List.drop_eq_nil_iff.1 hrest
    exact finish p hp (by omega)
  | cons step rest ih =>
    obtain ⟨hstep, rfl⟩ := drop_eq_cons hrest
    have hlt : p.step < steps.length := (List.getElem?_eq_some_iff.1 hstep).1
    unfold play
    dsimp only
    split
    · next hi =>
      have hnext : (p.enter (steps.drop (p.step + 1)) step).next.step = p.step + 1 := by simp
      exact ih (instant p step hp hstep hi) (by rw [hnext]; exact hlt) (by rw [hnext])
    · next hi =>
      split
      · next hv => exact stay p step hp hstep hi fun h => absurd hv h
      · next hv =>
        split
        · next hd =>
          have hleave : (p.enter (steps.drop (p.step + 1)) step).leave.step = p.step + 1 := by simp
          exact ih (leave p step hp hstep hi hv hd) (by rw [hleave]; exact hlt) (by rw [hleave])
        · next hd => exact stay p step hp hstep hi fun _ => hd

/-- **Induction along a binding.** -/
theorem scan_induction {steps : Sequence} (Way Rest : Playhead → Prop)
    (finish : ∀ p, Way p → p.step = steps.length → Rest p)
    (instant : ∀ p step, Way p → steps[p.step]? = some step → step.IsInstant →
      Way (p.enter (steps.drop (p.step + 1)) step).next)
    (stay : ∀ p step, Way p → steps[p.step]? = some step → ¬step.IsInstant →
      Rest (p.enter (steps.drop (p.step + 1)) step))
    {p : Playhead} (hp : Way p) (hle : p.step ≤ steps.length) : Rest (scan (steps.drop p.step) p) := by
  -- on the steps ahead, as along playback
  generalize hrest : steps.drop p.step = rest
  induction rest generalizing p with
  | nil =>
    have := List.drop_eq_nil_iff.1 hrest
    exact finish p hp (by omega)
  | cons step rest ih =>
    obtain ⟨hstep, rfl⟩ := drop_eq_cons hrest
    have hlt : p.step < steps.length := (List.getElem?_eq_some_iff.1 hstep).1
    unfold scan
    dsimp only
    split
    · next hi =>
      have hnext : (p.enter (steps.drop (p.step + 1)) step).next.step = p.step + 1 := by simp
      exact ih (instant p step hp hstep hi) (by rw [hnext]; exact hlt) (by rw [hnext])
    · next hi => exact stay p step hp hstep hi

end Playhead

/-! ## What leaves the playhead alone -/

namespace Controller

@[simp]
theorem playhead_enter (rest : List Step) (c : Controller γ) (step : Step) :
    (c.enter rest step).playhead = c.playhead.enter rest step := by
  cases step <;> rfl

@[simp]
theorem playhead_defer (c : Controller γ) (step : Step) : (c.defer step).playhead = c.playhead := by
  unfold defer
  split
  · rfl
  · split <;> rfl
  · rfl

theorem playhead_scan : ∀ (steps : List Step) (c : Controller γ),
    (scan steps c).playhead = c.playhead.scan steps
  | [], _ => rfl
  | step :: rest, c => by
    simp only [scan, Playhead.scan]
    -- what a binding puts off for the entity does not concern the playhead
    split
    · rw [playhead_scan rest]
      show ((c.enter rest step).defer step).playhead.next.scan rest = _
      rw [playhead_defer, playhead_enter]
    · rw [playhead_defer, playhead_enter]

/-- **A binding plays its sequence from the start.** -/
theorem playhead_bind (c : Controller γ) {script : ScriptSet} {i : ℕ} {steps : Sequence}
    (h : script.sequence? i = some steps) :
    (c.bind script i).playhead = (Playhead.start script i c.curve).scan steps := by
  have hi : i < script.sequences.length := (List.getElem?_eq_some_iff.1 h).1
  have hs : steps? { c with script := some script, sequence := i } = some steps := h
  unfold bind restart
  rw [if_pos hi, hs]
  exact playhead_scan steps _

/-- Without the sequence a binding does nothing. -/
theorem bind_of_none (c : Controller γ) {script : ScriptSet} {i : ℕ} (h : script.sequence? i = none) :
    c.bind script i = c := by
  unfold bind
  exact if_neg (Nat.not_lt.2 (List.getElem?_eq_none_iff.1 h))

/-- The choice of another sequence is a binding to it. -/
theorem selectSequence_eq_bind (c : Controller γ) {script : ScriptSet} (h : c.script = some script) (i : ℕ) :
    c.selectSequence i = c.bind script i := by
  unfold selectSequence bind
  simp only [h]

theorem selectSequence_of_none (c : Controller γ) (h : c.script = none) (i : ℕ) : c.selectSequence i = c := by
  unfold selectSequence
  simp only [h]

end Controller

namespace Scene

@[simp]
theorem controller_note (s : Scene γ β) (e : Event β) : (s.note e).controller = s.controller := rfl

@[simp]
theorem controller_control (s : Scene γ β) (f : Controller γ → Controller γ) :
    (s.control f).controller = f s.controller := rfl

section Body

variable [Target β]

@[simp]
theorem controller_face (s : Scene γ β) (direction : Vec2) : (s.face direction).controller = s.controller := by
  unfold face
  split <;> rfl

@[simp]
theorem controller_follow (s : Scene γ β) (time : Scalar) : (s.follow time).controller = s.controller := by
  unfold follow
  dsimp only
  rw [controller_note]
  split
  · split
    · rw [controller_face]
    · rw [controller_face]
  · split <;> rfl

@[simp]
theorem playhead_drift (s : Scene γ β) (dt : Scalar) :
    (s.drift dt).controller.playhead = s.controller.playhead := by
  unfold drift
  split
  · rfl
  · dsimp only
    split <;> simp [Controller.playhead]

@[simp]
theorem playhead_advance (s : Scene γ β) (start dt : Scalar) :
    (s.advance start dt).controller.playhead = s.controller.playhead := by
  unfold advance
  split <;> simp

@[simp]
theorem playhead_overflow (s : Scene γ β) : s.overflow.controller.playhead = s.controller.playhead := by
  simp [overflow]

end Body

variable [Target β] [Generator γ β]

omit [Target β] in
@[simp]
theorem playhead_callGenerator (s : Scene γ β) (delta : Scalar) :
    (s.callGenerator delta).controller.playhead = s.controller.playhead := by
  unfold callGenerator
  split <;> rfl

@[simp]
theorem playhead_deliver (s : Scene γ β) (step : Step) :
    (s.deliver step).controller.playhead = s.controller.playhead := by
  unfold deliver
  split
  · rfl
  · split
    · rw [playhead_callGenerator]
      rfl
    · rfl
  · rfl

@[simp]
theorem playhead_reach (s : Scene γ β) (rest : List Step) (step : Step) :
    (s.reach rest step).controller.playhead = s.controller.playhead.enter rest step := by
  simp [reach]

/-- What a binding has put off: the animation is switched first, and then the generator called. -/
theorem flush_cases (s : Scene γ β) : ∃ t : Scene γ β,
    (s.controller.pendingAnimation = none ∧ t = s ∨ ∃ n, s.controller.pendingAnimation = some n ∧
      t = (s.control fun c => { c with pendingAnimation := none }).switch n) ∧
    (s.controller.activation ≠ .pending ∧ s.flush = t ∨ s.controller.activation = .pending ∧
      s.flush = (t.control fun c => { c with activation := .active }).callGenerator 0) := by
  unfold flush
  cases s.controller.pendingAnimation with
  | none =>
    refine ⟨s, .inl ⟨rfl, rfl⟩, ?_⟩
    dsimp only
    split
    · next h => exact .inr ⟨h, rfl⟩
    · next h => exact .inl ⟨h, rfl⟩
  | some n =>
    refine ⟨_, .inr ⟨n, rfl, rfl⟩, ?_⟩
    dsimp only
    split
    · next h => exact .inr ⟨h, rfl⟩
    · next h => exact .inl ⟨h, rfl⟩

@[simp]
theorem playhead_flush (s : Scene γ β) : s.flush.controller.playhead = s.controller.playhead := by
  obtain ⟨t, ht, h⟩ := flush_cases s
  have hswitch : t.controller.playhead = s.controller.playhead := by
    rcases ht with ⟨-, rfl⟩ | ⟨n, -, rfl⟩
    · rfl
    · rfl
  rcases h with ⟨-, h⟩ | ⟨-, h⟩
  · rw [h, hswitch]
  · rw [h, playhead_callGenerator]
    exact hswitch

omit [Target β] in
@[simp]
theorem playhead_tick (s : Scene γ β) (delta : Scalar) :
    (s.tick delta).controller.playhead = s.controller.playhead := by
  unfold tick
  split <;> simp

/-- What precedes playback in an update leaves the playhead alone. -/
theorem playhead_flush_tick (s : Scene γ β) (delta : Scalar) :
    (s.flush.tick delta).controller.playhead = s.controller.playhead := by
  rw [playhead_tick, playhead_flush]

theorem mode_flush_tick (s : Scene γ β) (delta : Scalar) :
    (s.flush.tick delta).controller.mode = s.controller.mode :=
  congrArg Playhead.mode (playhead_flush_tick s delta)

/-! ## Playback -/

/-- **From step to step the playhead runs by itself.** -/
theorem playhead_play : ∀ (steps : List Step) (s : Scene γ β),
    (play steps s).controller.playhead = s.controller.playhead.play steps
  | [], s => playhead_overflow s
  | step :: rest, s => by
    -- both sides ask for the mode before the motion of the step and for the time after it
    have hr := playhead_reach s rest step
    have hmode : (s.reach rest step).controller.mode = (s.controller.playhead.enter rest step).mode :=
      congrArg Playhead.mode hr
    have hdue : (s.reach rest step).overflow.controller.isDue = (s.controller.playhead.enter rest step).isDue := by
      rw [← hr, ← playhead_overflow]
      rfl
    unfold play Playhead.play
    dsimp only
    split
    · rw [playhead_play rest]
      show (s.reach rest step).controller.playhead.next.play rest = _
      rw [hr]
    · simp only [Controller.isDeletable, hmode, hdue, beq_iff_eq]
      split
      · exact hr
      split
      · rw [playhead_play rest]
        show (s.reach rest step).overflow.controller.playhead.leave.play rest = _
        rw [playhead_overflow, hr]
      · rw [playhead_overflow, hr]

omit [Generator γ β] in
theorem playhead_proceed (s : Scene γ β) (delta : Scalar) :
    (s.proceed delta).controller.playhead = s.controller.playhead.wait delta := by
  unfold proceed
  dsimp only
  generalize Scalar.min (Scalar.max (s.controller.target - s.controller.elapsed) 0) delta = slice
  rw [← playhead_advance s s.controller.elapsed slice]
  rfl

theorem playhead_playOn (s : Scene γ β) (delta : Scalar) (steps : Sequence) :
    (s.playOn delta steps).controller.playhead = s.controller.playhead.playOn delta steps := by
  have h := playhead_proceed s delta
  unfold playOn Playhead.playOn
  dsimp only
  rw [← h]
  show _ = if (s.proceed delta).controller.isDue ∧ (s.proceed delta).controller.step < steps.length
    then _ else _
  split
  · exact playhead_play _ _
  · rfl

omit [Generator γ β] in
theorem playhead_driveManually (s : Scene γ β) (delta : Scalar) :
    (s.driveManually delta).controller.playhead = s.controller.playhead.drive delta := by
  rw [← playhead_drift s delta]
  rfl

/-- **In an update the playhead runs by itself.** -/
theorem playhead_update (s : Scene γ β) (delta : Scalar) :
    (s.update delta).controller.playhead = s.controller.playhead.update delta := by
  have h := playhead_flush_tick s delta
  have hsteps : (s.flush.tick delta).controller.steps? = s.controller.playhead.steps? :=
    congrArg Playhead.steps? h
  have hmode : (s.flush.tick delta).controller.mode = s.controller.playhead.mode := mode_flush_tick s delta
  unfold update Playhead.update
  dsimp only
  rw [hmode]
  -- the mode is asked for behind the calls of the generator, which leave it alone
  cases s.controller.playhead.mode with
  | manual => rw [playhead_driveManually, h]
  | vanished => exact h
  | move | path =>
    rw [hsteps]
    cases s.controller.playhead.steps? with
    | none => exact h
    | some steps => rw [Option.elim_some, playhead_playOn, h]

/-- An update of a scene that its script drives. -/
theorem update_driven {s : Scene γ β} {steps : Sequence}
    (hm : s.controller.mode = .move ∨ s.controller.mode = .path) (hs : s.controller.steps? = some steps)
    (delta : Scalar) : s.update delta = (s.flush.tick delta).playOn delta steps := by
  have hsteps : (s.flush.tick delta).controller.steps? = some steps :=
    (congrArg Playhead.steps? (playhead_flush_tick s delta)).trans hs
  unfold update
  dsimp only
  rw [mode_flush_tick, hsteps]
  rcases hm with hm | hm <;> rw [hm]

/-- An update of a scene whose script is not there does nothing for itself. -/
theorem update_unbound {s : Scene γ β} (hm : s.controller.mode = .move ∨ s.controller.mode = .path)
    (hs : s.controller.steps? = none) (delta : Scalar) : s.update delta = s.flush.tick delta := by
  have hsteps : (s.flush.tick delta).controller.steps? = none :=
    (congrArg Playhead.steps? (playhead_flush_tick s delta)).trans hs
  unfold update
  dsimp only
  rw [mode_flush_tick, hsteps]
  rcases hm with hm | hm <;> rw [hm]

theorem update_vanished {s : Scene γ β} (hm : s.controller.mode = .vanished) (delta : Scalar) :
    s.update delta = s.flush.tick delta := by
  unfold update
  dsimp only
  rw [mode_flush_tick, hm]

theorem update_manual {s : Scene γ β} (hm : s.controller.mode = .manual) (delta : Scalar) :
    s.update delta = (s.flush.tick delta).driveManually delta := by
  unfold update
  dsimp only
  rw [mode_flush_tick, hm]

theorem playhead_updates (deltas : List Scalar) (s : Scene γ β) :
    (deltas.foldl update s).controller.playhead = deltas.foldl Playhead.update s.controller.playhead := by
  induction deltas generalizing s with
  | nil => rfl
  | cons delta deltas ih => rw [List.foldl_cons, ih, List.foldl_cons, playhead_update]

end Scene

end MotionScript
