import MotionScript.CommandLine.Simulation
import MotionScript.Proofs.World.Overflow
import MotionScript.Proofs.World.Standalone

/-!
# What a trace shows

A simulation plays a script in a world, but what it writes of the entity can be told from a body that is updated once
a frame.

* `Simulation.standing`: the body and its controller after a number of frames.
* `Simulation.simulate_eq`: the lines of a simulation.
* `Simulation.eq_of_run?`: what the command does, where no run breaks off.
* `Simulation.plays_as_on_its_own`: entities in worlds, and in simulations.
-/

namespace MotionScript

namespace Simulation

variable (a : Arguments) (c : Config) (script : ScriptSet)

/-! ## The body of a simulation -/

/-- The seconds that pass in a frame. -/
def slice : Scalar := c.frameDelta * c.timeScale

/-- The controller of the entity with a body, after a number of frames. -/
def standing (n : ℕ) : Scene Stock Body :=
  (Scene.update · (slice c))^[n] { controller := (actor a c script).controller, body := { position := ⟨a.x, a.y, 0⟩ } }

/-- The clock after a number of frames. -/
def clockAt (n : ℕ) : Clock := (Clock.advance · c.frameDelta)^[n] { timeScale := c.timeScale }

/-- The line of a frame, as the body tells it. -/
def row (n : ℕ) : String :=
  line n (clockAt c n).elapsed
    { sprite := { position := (standing a c script n).body.position.plane }
      controller := (standing a c script n).controller }

/-- The script has ended the entity after a number of frames. -/
def ended (n : ℕ) : Bool := (standing a c script n).controller.isDeletable

/-- The lines of some frames: of those before the script has ended the entity as many as are asked for, and then that
it has. -/
def rows (frames : List ℕ) : List String :=
  ((frames.takeWhile (!ended a c script ·)).filter fun n => 0 < a.traceEvery ∧ n % a.traceEvery = 0).map
      (row a c script) ++
    ((frames.find? (ended a c script)).map fun n => padLeft 5 (toString n) ++ " actor vanished").toList

variable {a : Arguments} {c : Config} {script : ScriptSet}

theorem standing_succ (n : ℕ) :
    standing a c script (n + 1) = (standing a c script n).update (slice c) :=
  Function.iterate_succ_apply' _ n _

theorem clockAt_succ (n : ℕ) : clockAt c (n + 1) = (clockAt c n).advance c.frameDelta :=
  Function.iterate_succ_apply' _ n _

theorem timeScale_clockAt (n : ℕ) : (clockAt c n).timeScale = c.timeScale := by
  induction n with
  | zero => rfl
  | succ n ih =>
    rw [clockAt_succ]
    exact ih

theorem rows_of_ended {n : ℕ} (h : ended a c script n) (frames : List ℕ) :
    rows a c script (n :: frames) = [padLeft 5 (toString n) ++ " actor vanished"] := by
  simp [rows, h]

theorem rows_of_live {n : ℕ} (h : ended a c script n = false) (frames : List ℕ) :
    rows a c script (n :: frames) =
      (if 0 < a.traceEvery ∧ n % a.traceEvery = 0 then [row a c script n] else []) ++ rows a c script frames := by
  unfold rows
  rw [List.takeWhile_cons_of_pos (by rw [h]; rfl), List.find?_cons_of_neg (by rw [h]; exact Bool.false_ne_true),
    List.filter_cons]
  by_cases htraced : 0 < a.traceEvery ∧ n % a.traceEvery = 0
  · simp [htraced]
  · simp [htraced]

/-- A line shows the place of the entity and its controller. -/
theorem line_congr {e e' : Entity Stock} (hplace : e.sprite.position = e'.sprite.position)
    (hcontroller : e.controller = e'.controller) (frame : ℕ) (time : Scalar) : line frame time e = line frame time e' := by
  unfold line
  rw [hplace, hcontroller]

/-! ## Frames -/

/-- A frame of a world that is in step. -/
theorem frame_standing (hpositive : 0 < slice c) {w : World Stock} {n : ℕ} {updated : Prop}
    (hstep : w.InStep 0 0 (standing a c script n) updated) (hclock : w.clock = clockAt c n) :
    (w.frame c.frameDelta).1.InStep 0 0 (standing a c script (n + 1)) True ∧
      (w.frame c.frameDelta).1.clock = clockAt c (n + 1) ∧
      (w.frame c.frameDelta).1.despawnVanished = w.despawnVanished := by
  have hdelta : (w.clock.advance c.frameDelta).delta = slice c := by
    show c.frameDelta * w.clock.timeScale = _
    rw [hclock, timeScale_clockAt]
    rfl
  have hpasses : ¬(w.clock.advance c.frameDelta).delta ≤ 0 := by
    rw [hdelta]
    exact fun h => Scalar.not_lt_of_le h hpositive
  obtain ⟨hafter, -⟩ := hstep.frame_of_not_le hpasses
  obtain ⟨hclock', hdespawn, -⟩ := World.step_settings w (.frame c.frameDelta)
  rw [hdelta, ← standing_succ] at hafter
  refine ⟨hafter, ?_, hdespawn⟩
  rw [clockAt_succ, ← hclock]
  exact hclock'

/-- **The trace** from some frame on. -/
theorem trace_eq (hpositive : 0 < slice c) {w : World Stock} {n : ℕ} {updated : Prop}
    (hstep : w.InStep 0 0 (standing a c script n) updated) (hclock : w.clock = clockAt c n)
    (hdespawn : w.despawnVanished) (frames : ℕ) (lines : List String) :
    (trace c.frameDelta a.traceEvery frames n lines w).1.reverse =
      lines.reverse ++ rows a c script (List.range' (n + 1) frames) := by
  induction frames generalizing w n updated lines with
  | zero => simp [trace, rows]
  | succ frames ih =>
    obtain ⟨hstep', hclock', hdespawn'⟩ := frame_standing hpositive hstep hclock
    obtain ⟨hgone, hlook⟩ := hstep'.entity?_iff
    rw [hdespawn'] at hgone
    rw [trace, List.range'_succ]
    dsimp only
    cases he : (w.frame c.frameDelta).1.entity? 0 with
    | none =>
      obtain ⟨-, -, hended⟩ := hgone.1 he
      rw [rows_of_ended hended]
      exact List.reverse_cons
    | some e =>
      have hlive : ended a c script (n + 1) = false := by
        rw [Bool.eq_false_iff]
        intro hended
        have hnone := hgone.2 ⟨hdespawn, trivial, hended⟩
        rw [he] at hnone
        cases hnone
      obtain ⟨hcontroller, hsprite⟩ := hlook e he
      have hrow : line (n + 1) (w.frame c.frameDelta).1.clock.elapsed e = row a c script (n + 1) := by
        rw [hclock']
        exact line_congr hsprite.place hcontroller _ _
      dsimp only
      rw [ih hstep' hclock' (hdespawn'.trans hdespawn), hrow, rows_of_live hlive, ← List.append_assoc]
      congr 1
      split
      · exact List.reverse_cons
      · exact (List.append_nil _).symm

/-- **The lines of a simulation.** -/
theorem simulate_eq (a : Arguments) (script : ScriptSet) (hpositive : 0 < slice c) : ∃ alive : ℕ,
    simulate a c script = header :: rows a c script (List.range' 1 a.frames) ++
      ["spawned entities alive: " ++ toString alive] := by
  have hempty : World.Numbered (γ := Stock)
      { clock := { timeScale := c.timeScale }, curve := some c.curve, despawnVanished := true } :=
    ⟨List.nodup_nil, List.forall_mem_nil _⟩
  have hworld : (world a c script).Numbered := World.numbered_addAll hempty _
  have hactor : (world a c script).entity? 0 = some (actor a c script) := rfl
  have hlook : (actor a c script).sprite.Mirrors 0 { position := ⟨a.x, a.y, 0⟩ } :=
    ⟨rfl, rfl, rfl, rfl, show (0 : Scalar) ≠ -0 by decide⟩
  have htrace := trace_eq (n := 0) hpositive (World.inStep_start hworld hactor hlook rfl rfl) rfl rfl a.frames []
  unfold simulate summary
  dsimp only
  rw [htrace]
  exact ⟨_, rfl⟩

/-! ## Runs that do not break off -/

theorem eq_of_trace? {dt : Scalar} {every frames frame : ℕ} {lines : List String} {w : World Stock}
    {r : List String × World Stock} (h : trace? dt every frames frame lines w = some r) :
    r = trace dt every frames frame lines w := by
  induction frames generalizing frame lines w with
  | zero => exact (Option.some.inj h).symm
  | succ frames ih =>
    obtain ⟨after, hafter, hrest⟩ := Option.bind_eq_some_iff.1 h
    obtain rfl := World.eq_of_frame? hafter
    rw [trace]
    dsimp only at hrest ⊢
    cases he : (w.frame dt).1.entity? 0 with
    | none =>
      rw [he] at hrest
      exact (Option.some.inj hrest).symm
    | some e =>
      rw [he] at hrest
      exact ih hrest

theorem eq_of_simulate? {lines : List String} (h : simulate? a c script = some lines) : lines = simulate a c script := by
  obtain ⟨-, -, htrace⟩ := Option.bind_eq_some_iff.1 h
  obtain ⟨r, hr, hlines⟩ := Option.bind_eq_some_iff.1 htrace
  rw [eq_of_trace? hr] at hlines
  exact (Option.some.inj hlines).symm

/-- **A run of the command line** that does not break off writes what is told of simulations. -/
theorem eq_of_run? {file : String → Except FileError String} {result : CommandResult} (h : run? a file = some result) :
    result = run a file := by
  unfold run? at h
  unfold run
  cases hprepare : prepare a file with
  | error failed =>
    rw [hprepare] at h
    exact (Option.some.inj h).symm
  | ok chosen =>
    rw [hprepare] at h
    obtain ⟨lines, hlines, rfl⟩ := Option.map_eq_some_iff.1 h
    rw [eq_of_simulate? hlines]

/-! ## Alone and in company -/

/-- **Scripts play in a world as they do without one.** In frames whose times are numbers, an entity with all parts of
a sprite, no lifetime and a depth other than the negative zero goes the way of a body that is updated with the same
controller for each frame in which time passes: it has the same position, depth, rotation and controller afterwards,
it plays the animation that the body has been given last, and its generator has sent the same commands. It is gone
just if what vanishes is taken away, and the controller is deletable after an update. So it can be told from the body
what a run of the command line writes of its entity, as long as time passes in its frames: each line that is traced
shows the body and its controller after that frame, up to the first frame after which the controller is deletable. -/
theorem plays_as_on_its_own :
    (∀ (w : World Stock) (id : ℕ) (c : Controller Stock) (p : Vec3) (degrees : Scalar) (animation : Animation)
        (dts : List Scalar),
      w.Numbered → p.z ≠ -0 → (∀ dt ∈ dts, ¬(dt * w.clock.timeScale).isNaN) →
      w.entity? id = some { sprite := ⟨p.plane, some p.z, some degrees, some animation⟩, controller := c } →
      let t := (w.passing dts).foldl Scene.update { controller := c, body := { position := p, rotation := degrees } }
      w.sentOver id (dts.map .frame) = t.sent ∧
        ((w.after (dts.map .frame)).entity? id = none ↔
          w.despawnVanished ∧ w.passing dts ≠ [] ∧ t.controller.isDeletable) ∧
        ∀ e, (w.after (dts.map .frame)).entity? id = some e →
          e.controller = t.controller ∧ e.sprite.Mirrors animation.sequence t.body) ∧
    ∀ (a : Arguments) (file : String → Except FileError String) (sets : List ScriptSet) (script : ScriptSet),
      let c := config a (file a.config)
      let library := ScriptLibrary.ofList sets
      Document.load (file c.scriptsPath) = .ok sets → ¬a.names →
      a.list.elim library.first? library.get? = some script → a.sequence < script.sequences.length →
      0 < c.frameDelta * c.timeScale →
      ∃ alive : ℕ, run a file =
        { output := header :: rows a c script (List.range' 1 a.frames) ++
            ["spawned entities alive: " ++ toString alive] } := by
  refine ⟨?_, ?_⟩
  · intro w id c p degrees animation dts hw hz hnumbers he t
    have hlook : Sprite.Mirrors animation.sequence ⟨p.plane, some p.z, some degrees, some animation⟩
        { position := p, rotation := degrees } := ⟨rfl, rfl, rfl, rfl, hz⟩
    obtain ⟨hafter, hsent⟩ := (World.inStep_start hw he hlook rfl rfl).after hnumbers
    obtain ⟨hgone, hlooks⟩ := hafter.entity?_iff
    rw [World.despawnVanished_after, false_or] at hgone
    exact ⟨hsent.symm, hgone, hlooks⟩
  · intro a file sets script c library hload hnames hscript hsequence hpositive
    obtain ⟨alive, hlines⟩ := simulate_eq a script hpositive
    have hchoose : choose a library = .ok script := by
      unfold choose
      rw [hscript]
      exact if_neg (Nat.not_le.2 hsequence)
    have hprepare : prepare a file = .ok (c, script) := by
      unfold prepare
      dsimp only
      rw [hload]
      dsimp only
      rw [if_neg hnames, hchoose]
      rfl
    refine ⟨alive, ?_⟩
    rw [run, hprepare, ← hlines]

/-- An entity that shoots and is gone in the third frame, and a simulation of one that waits before it is. -/
theorem plays_as_on_its_own_until_gone :
    let script : ScriptSet := ⟨"flee", [[.generate 4 90, .move 0 10, .wait 0.25, .animate 3, .vanish]]⟩
    let c : Controller Stock := (Controller.manual.setGenerator (some (.singleShot none))).bind script 0
    let e : Entity Stock := { sprite := ⟨⟨1, 2⟩, some 3, some 45, some { sequence := 7 }⟩, controller := c }
    let w : World Stock := { entities := [(0, e)], nextId := 1, despawnVanished := true }
    let dts : List Scalar := [0.125, 0, 0.25]
    let body : Body := { position := ⟨1, 2, 3⟩, rotation := 45 }
    let t := (w.passing dts).foldl Scene.update { controller := c, body }
    let a : Arguments := { frames := 20, traceEvery := 4 }
    let text := "[\x7b\"name\":\"a\",\"list\":[[[\"Wait\",[0.125]],[\"Delete\"]]]\x7d]"
    let file : String → Except FileError String := fun path =>
      if path = "./assets/actions.json" then .ok text else .error .missing
    w.Numbered ∧ w.sentOver 0 (dts.map .frame) = t.sent ∧ (w.after (dts.map .frame)).entity? 0 = none ∧
      ∃ alive : ℕ, run a file =
        { output := header :: rows a (config a (file a.config)) ⟨"a", [[.wait 0.125, .vanish]]⟩ (List.range' 1 20) ++
            ["spawned entities alive: " ++ toString alive] } := by
  intro script c e w dts body t a text file
  have hw : w.Numbered := ⟨by decide, by decide⟩
  have hdepth : (3 : Scalar) ≠ -0 := by decide
  have hnumbers : ∀ dt ∈ dts, ¬(dt * w.clock.timeScale).isNaN := by decide +kernel
  have hended : w.passing dts ≠ [] ∧ t.controller.isDeletable := by decide +kernel
  have hload : Document.load (file (config a (file a.config)).scriptsPath) =
      .ok [⟨"a", [[.wait 0.125, .vanish]]⟩] := by
    decide +kernel
  have hpositive : 0 < (config a (file a.config)).frameDelta * (config a (file a.config)).timeScale := by
    decide +kernel
  obtain ⟨hworld, hrun⟩ := plays_as_on_its_own
  obtain ⟨hsent, hgone, -⟩ := hworld w 0 c ⟨1, 2, 3⟩ 45 { sequence := 7 } dts hw hdepth hnumbers rfl
  exact ⟨hw, hsent, hgone.2 ⟨rfl, hended⟩, hrun a file _ _ hload Bool.false_ne_true rfl Nat.one_pos hpositive⟩

end Simulation

end MotionScript
