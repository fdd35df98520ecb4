import MotionScript.Proofs.Playback.Boundaries

/-!
# Which points a path takes

A path reads its control points ahead of playback, which comes to them only when the path is over. Then it passes them
by, those that the path has taken and those that it has not.

* `Step.pointRun`, `pointsBehind`: the points at the start of a list of steps, and those behind a step.
* `Scene.skip`: what happens as points are passed by.
* `Scene.play_points`, `Controller.scan_points`: playback and bindings pass points by.
* `Scene.play_through`: playback comes to every step up to the one at which it rests.
* `Controller.points_consumed_once`: a path takes the points behind it, and nothing else does.
-/

namespace MotionScript

variable {γ β : Type}

/-! ## Points in a row -/

/-- The control points at the start of a list of steps. -/
def Step.pointRun : List Step → List Vec2
  | .point p :: rest => p :: pointRun rest
  | _ => []

/-- The control points directly behind a step. -/
def pointsBehind (steps : Sequence) (k : ℕ) : List Vec2 := Step.pointRun (steps.drop (k + 1))

section Points

variable {steps : Sequence} {k : ℕ}

/-- A path takes as many of the points in a row as it asks for, or all. -/
theorem Step.controlPoints_eq_take (count : ℕ) (l : List Step) :
    Step.controlPoints count l = (Step.pointRun l).take count := by
  fun_induction Step.controlPoints count l with
  | case1 count p rest ih => rw [ih, Step.pointRun, List.take_succ_cons]
  | case2 count l hne =>
    cases count with
    | zero => rw [List.take_zero]
    | succ count =>
      rw [Step.pointRun.eq_2 l fun p rest h => hne count p rest rfl h, List.take_nil]

/-- Behind the points in a row there is no further one. -/
theorem Step.eq_pointRun_append (l : List Step) :
    ∃ rest, l = (Step.pointRun l).map .point ++ rest ∧ ∀ p, rest.head? ≠ some (.point p) := by
  fun_induction Step.pointRun l with
  | case1 p rest ih =>
    obtain ⟨rest', heq, hne⟩ := ih
    exact ⟨rest', by rw [List.map_cons, List.cons_append, ← heq], hne⟩
  | case2 l hne =>
    refine ⟨l, rfl, fun p hp => ?_⟩
    obtain ⟨rest, rfl⟩ := List.head?_eq_some_iff.1 hp
    exact hne p rest rfl

/-- The steps behind a step: the points, and what is behind them. -/
theorem drop_eq_points_append (steps : Sequence) (k : ℕ) :
    steps.drop (k + 1) = (pointsBehind steps k).map .point ++ steps.drop (k + 1 + (pointsBehind steps k).length) ∧
      ∀ p, steps[k + 1 + (pointsBehind steps k).length]? ≠ some (.point p) := by
  obtain ⟨rest, heq, hne⟩ := Step.eq_pointRun_append (steps.drop (k + 1))
  have hrest : steps.drop (k + 1 + (pointsBehind steps k).length) = rest := by
    rw [← List.drop_drop]
    conv_lhs => rw [heq]
    rw [pointsBehind, List.drop_left' (List.length_map _)]
  refine ⟨by rw [hrest]; exact heq, fun p => ?_⟩
  rw [← List.head?_drop, hrest]
  exact hne p

theorem getElem?_pointsBehind {j : ℕ} {p : Vec2} (h : (pointsBehind steps k)[j]? = some p) :
    steps[k + 1 + j]? = some (.point p) := by
  obtain ⟨hlt, -⟩ := List.getElem?_eq_some_iff.1 h
  rw [← List.getElem?_drop, (drop_eq_points_append steps k).1,
    List.getElem?_append_left (by rw [List.length_map]; exact hlt), List.getElem?_map, h, Option.map_some]

/-- A step of another kind that is behind a step is behind the points, too. -/
theorem le_of_ne_point {k' : ℕ} {step : Step} (hlt : k < k') (h : steps[k']? = some step)
    (hne : ∀ p, step ≠ .point p) : k + 1 + (pointsBehind steps k).length ≤ k' := by
  by_contra hle
  obtain ⟨j, rfl⟩ := Nat.exists_eq_add_of_le hlt
  have hj : j < (pointsBehind steps k).length := by
    have : k + 1 + j < k + 1 + (pointsBehind steps k).length := not_le.1 hle
    omega
  have hpoint := getElem?_pointsBehind (List.getElem?_eq_getElem hj)
  exact hne _ (Option.some.inj (h.symm.trans hpoint))

end Points

/-! ## Passing points by -/

namespace Scene

/-- Passes points by: the index of the current step goes on, and the journal tells so. -/
def skip (s : Scene γ β) (points : List Vec2) : Scene γ β :=
  { s with
    controller := { s.controller with step := s.controller.step + points.length }
    journal := ((points.zipIdx s.controller.step).map fun (p, k) => .reached k (.point p)).reverse ++ s.journal }

theorem skip_cons (s : Scene γ β) (p : Vec2) (points : List Vec2) :
    s.skip (p :: points) = ((s.note (.reached s.controller.step (.point p))).control (·.next)).skip points := by
  unfold skip
  congr 1
  · show _ = { s.controller with step := s.controller.step + 1 + points.length }
    rw [List.length_cons, Nat.add_assoc, Nat.add_comm 1]
  · simp [note, control, Controller.next]

/-- What happens as points are passed by. -/
theorem events_skip (s : Scene γ β) (points : List Vec2) :
    (s.skip points).events =
      s.events ++ (points.zipIdx s.controller.step).map fun (p, k) => .reached k (.point p) := by
  rw [events_of_append (s := s) rfl, List.reverse_reverse]

section Playback

variable [Target β] [Generator γ β]

/-- **Playback passes points by.** -/
theorem play_points (points : List Vec2) (rest : List Step) (s : Scene γ β) :
    play (points.map .point ++ rest) s = play rest (s.skip points) := by
  induction points generalizing s with
  | nil => rfl
  | cons p points ih =>
    rw [skip_cons, ← ih]
    rfl

end Playback

end Scene

/-- **A binding passes points by.** -/
theorem Controller.scan_points (points : List Vec2) (rest : List Step) (c : Controller γ) :
    scan (points.map .point ++ rest) c = scan rest { c with step := c.step + points.length } := by
  induction points generalizing c with
  | nil => rfl
  | cons p points ih =>
    have hscan : scan ((p :: points).map .point ++ rest) c = scan (points.map .point ++ rest) c.next := rfl
    have hstep : c.next.step + points.length = c.step + (points.length + 1) := by
      show c.step + 1 + points.length = _
      omega
    rw [hscan, ih, hstep]
    rfl

/-! ## Coming to a step -/

namespace Scene

variable [Target β] [Generator γ β] {steps : Sequence} {k : ℕ} {s : Scene γ β} {rest : List Step}

theorem curve_reach (s : Scene γ β) (rest : List Step) (step : Step) :
    (s.reach rest step).controller.curve = s.controller.curve := by
  have hcurve : (s.controller.playhead.enter rest step).curve = s.controller.curve := by
    cases step <;> rfl
  exact (congrArg Playhead.curve (playhead_reach s rest step)).trans hcurve

omit [Generator γ β] in
theorem curve_overflow (s : Scene γ β) : s.overflow.controller.curve = s.controller.curve :=
  congrArg Playhead.curve (playhead_overflow s)

/-- **Playback comes to every step** from the current one to the one at which it rests, and goes on from there. -/
theorem play_through (hrest : steps.drop s.controller.step = rest) (hle : s.controller.step ≤ k)
    (hk : k ≤ (play rest s).controller.step) :
    ∃ q : Scene γ β, q.controller.step = k ∧ q.controller.curve = s.controller.curve ∧
      play rest s = play (steps.drop k) q := by
  rcases Nat.eq_or_lt_of_le hle with rfl | hlt
  · exact ⟨s, rfl, rfl, by rw [hrest]⟩
  -- on the steps ahead: the one with index `k` is further on
  induction rest generalizing s with
  | nil =>
    have hend : (play [] s).controller.step = s.controller.step := step_overflow s
    omega
  | cons step rest ih =>
    obtain ⟨-, rfl⟩ := Playhead.drop_eq_cons hrest
    have hreach := step_reach s (steps.drop (s.controller.step + 1)) step
    have hover := (step_overflow (s.reach (steps.drop (s.controller.step + 1)) step)).trans hreach
    have hcurve := curve_reach s (steps.drop (s.controller.step + 1)) step
    -- playback goes on from `u`, which is at the next step
    have hgo : ∀ u : Scene γ β, u.controller.step = s.controller.step + 1 →
        u.controller.curve = s.controller.curve →
        k ≤ (play (steps.drop (s.controller.step + 1)) u).controller.step →
        ∃ q : Scene γ β, q.controller.step = k ∧ q.controller.curve = s.controller.curve ∧
          play (steps.drop (s.controller.step + 1)) u = play (steps.drop k) q := by
      intro u hu hcurve' hku
      rcases Nat.eq_or_lt_of_le (Nat.succ_le_of_lt hlt) with rfl | hlt'
      · exact ⟨u, hu, hcurve', rfl⟩
      · have hdrop : steps.drop u.controller.step = steps.drop (s.controller.step + 1) := by rw [hu]
        obtain ⟨q, hq, hcurve'', hplay⟩ := ih hdrop (hu ▸ hlt'.le) hku (hu ▸ hlt')
        exact ⟨q, hq, hcurve''.trans hcurve', hplay⟩
    rw [play_cons] at hk ⊢
    split at hk
    · next hi =>
      rw [if_pos hi]
      exact hgo _ (congrArg (· + 1) hreach) hcurve hk
    · next hi =>
      rw [if_neg hi]
      split at hk
      · omega
      · next hv =>
        rw [if_neg hv]
        split at hk
        · next hd =>
          rw [if_pos hd]
          exact hgo _ (congrArg (· + 1) hover) ((curve_overflow _).trans hcurve) hk
        · omega

theorem step_le_play (rest : List Step) (s : Scene γ β) : s.controller.step ≤ (play rest s).controller.step := by
  induction rest generalizing s with
  | nil => exact (step_overflow s).ge
  | cons step rest ih =>
    have hreach := step_reach s rest step
    have hover := (step_overflow (s.reach rest step)).trans hreach
    have hnext : ((s.reach rest step).control (·.next)).controller.step = s.controller.step + 1 :=
      congrArg (· + 1) hreach
    have hleave : (s.reach rest step).overflow.leave.controller.step = s.controller.step + 1 :=
      congrArg (· + 1) hover
    rw [play_cons]
    split
    · exact (Nat.le_succ _).trans (hnext.ge.trans (ih _))
    · split
      · exact hreach.ge
      · split
        · exact (Nat.le_succ _).trans (hleave.ge.trans (ih _))
        · exact hover.ge

/-- Playback adds to what happened. -/
theorem exists_later (rest : List Step) (s : Scene γ β) : ∃ later, (play rest s).events = s.events ++ later := by
  obtain ⟨l, hl, -⟩ := logs_play rest s
  exact ⟨_, events_of_append hl⟩

variable {delta : Scalar}

/-- **Where an update has left a step**, it plays on from there. -/
theorem update_of_left (hj : s.journal = []) (hsteps : s.controller.steps? = some steps)
    (h : .left k ∈ (s.update delta).events) :
    ∃ q : Scene γ β, q.controller.step = k ∧ s.update delta = play (steps.drop (k + 1)) q.leave := by
  have hnot {u : Scene γ β} (hlogs : Logs Event.StandsStill s u) : .left k ∉ u.journal := by
    obtain ⟨l, hl, hstill⟩ := hlogs
    rw [hl, hj, List.append_nil]
    exact fun hk => absurd (hstill _ hk).1 (Option.some_ne_none k)
  rw [events, List.mem_reverse] at h
  rcases update_cases s delta with ⟨hlogs, -⟩ | ⟨steps', q, hsteps', -, hlogs, hstep, -, hplay⟩
  · exact absurd h (hnot hlogs)
  · obtain rfl : steps = steps' := Option.some.inj (hsteps.symm.trans hsteps')
    rw [← hstep] at hplay
    rcases eq_or_ne q.controller.step k with rfl | hne
    · exact ⟨q, rfl, hplay⟩
    · have hleave : .left k ∉ q.leave.journal := by
        intro hm
        rcases List.mem_cons.1 hm with heq | hm
        · exact hne (Event.left.inj heq).symm
        · exact hnot hlogs hm
      rw [hplay] at h
      obtain ⟨u, step, hu, -, -, -, -, hfrom⟩ := play_of_left rfl hleave h
      refine ⟨(u.reach (steps.drop (k + 1)) step).overflow, ?_, hplay.trans hfrom⟩
      rw [step_overflow, step_reach, hu]

/-- **Where an update has reached a step**, it has come to it and plays on from there. -/
theorem update_of_reached {step : Step} (hj : s.journal = []) (hsteps : s.controller.steps? = some steps)
    (h : .reached k step ∈ (s.update delta).events) :
    ∃ q : Scene γ β, q.controller.step = k ∧ q.controller.curve = s.controller.curve ∧
      s.update delta = play (steps.drop k) q := by
  obtain ⟨htrail, -, -⟩ := trail_update hj delta
  obtain ⟨hahead, hbound⟩ := htrail.between h
  rcases update_cases s delta with ⟨-, hstep⟩ | ⟨steps', q, hsteps', -, -, hstep, hcurve, hplay⟩
  · omega
  · obtain rfl : steps = steps' := Option.some.inj (hsteps.symm.trans hsteps')
    have hleave : q.leave.controller.step = s.controller.step + 1 := congrArg (· + 1) hstep
    have hdrop : steps.drop q.leave.controller.step = steps.drop (s.controller.step + 1) := by rw [hleave]
    obtain ⟨u, hu, hcurve', hfrom⟩ := play_through (k := k) hdrop (by omega) (by rw [← hplay]; omega)
    rw [← hplay] at hfrom
    exact ⟨u, hu, hcurve'.trans hcurve, hfrom⟩

end Scene

/-! ## Paths and their points -/

namespace Controller

variable {steps : Sequence} {k count : ℕ} {duration : Scalar} {interpolation : Interpolation} {curve : CurveSettings}

/-- **A path has been entered.** Its table is that of the first points behind it, as many as it asks for. -/
structure EntersPath (steps : Sequence) (k : ℕ) (duration : Scalar) (count : ℕ) (interpolation : Interpolation)
    (curve : CurveSettings) (c : Controller γ) : Prop where
  step : c.step = k
  mode : c.mode = .path
  target : c.target = Scalar.max duration 0
  path : c.path = .build ((pointsBehind steps k).take count) duration interpolation curve

theorem entersPath_enter (c : Controller γ) :
    (c.enter (steps.drop (c.step + 1)) (.path duration count interpolation)).EntersPath steps c.step duration count
      interpolation c.curve where
  step := rfl
  mode := rfl
  target := rfl
  path := by
    rw [pointsBehind, ← Step.controlPoints_eq_take]
    rfl

/-- A binding enters the path at which it rests. -/
theorem entersPath_bind (c : Controller γ) {script : ScriptSet} {i : ℕ} (hsteps : script.sequence? i = some steps)
    (hk : (c.bind script i).step = k) (hstep : steps[k]? = some (.path duration count interpolation)) :
    (c.bind script i).EntersPath steps k duration count interpolation c.curve := by
  have hplayhead : (c.bind script i).playhead = (Playhead.start script i c.curve).scan steps := playhead_bind c hsteps
  let Rest (p : Playhead) : Prop := steps[p.step]? = some (.path duration count interpolation) →
    p.mode = .path ∧ p.target = Scalar.max duration 0 ∧
      p.path = .build (Step.controlPoints count (steps.drop (p.step + 1))) duration interpolation c.curve
  have hrest : Rest ((Playhead.start script i c.curve).scan steps) := by
    refine Playhead.scan_induction (p := .start script i c.curve) (fun p => p.curve = c.curve) Rest ?_ ?_ ?_ rfl
      (Nat.zero_le _)
    · intro p _ hend hp
      rw [hend, List.getElem?_eq_none le_rfl] at hp
      cases hp
    · intro p step hp _ _
      cases step <;> exact hp
    · intro p step hp hs _ hpath
      rw [Playhead.step_enter, hs] at hpath
      obtain rfl := Option.some.inj hpath
      exact ⟨rfl, rfl, by rw [← hp]; rfl⟩
  rw [← hplayhead] at hrest
  have hpk : (c.bind script i).playhead.step = k := hk
  obtain ⟨hmode, htarget, hpath⟩ := hrest (by rw [hpk]; exact hstep)
  rw [hpk, Step.controlPoints_eq_take] at hpath
  exact ⟨hk, hmode, htarget, hpath⟩

variable [Target β] [Generator γ β]

open Scene

/-- An update that reaches a path enters it, and from there it rests at the path or leaves it. -/
theorem entersPath_update {c : Controller γ} {body : β} {delta : Scalar} (hsteps : c.steps? = some steps)
    (hstep : steps[k]? = some (.path duration count interpolation))
    (h : .reached k (.path duration count interpolation) ∈ (Scene.update { controller := c, body } delta).events) :
    let t := Scene.update { controller := c, body } delta
    ∃ (q : Scene γ β) (before later : List (Event β)),
      q.controller.EntersPath steps k duration count interpolation c.curve ∧
      q.events = before ++ [.reached k (.path duration count interpolation)] ∧ t.events = q.events ++ later ∧
      (t = q.overflow ∨ t = play (steps.drop (k + 1)) q.overflow.leave) := by
  intro t
  obtain ⟨u, rfl, hcurve, hplay⟩ := update_of_reached (s := { controller := c, body }) rfl hsteps h
  let q : Scene γ β := u.reach (steps.drop (u.controller.step + 1)) (.path duration count interpolation)
  have hq : q.controller.EntersPath steps u.controller.step duration count interpolation c.curve := by
    have henter : q.controller = u.controller.enter (steps.drop (u.controller.step + 1))
      (.path duration count interpolation) := rfl
    have hcurve' : u.controller.curve = c.curve := hcurve
    rw [henter, ← hcurve']
    exact entersPath_enter u.controller
  have hevents : q.events = u.events ++ [.reached u.controller.step (.path duration count interpolation)] :=
    events_of_append (l := [_]) rfl
  have hdrop : steps.drop u.controller.step =
      .path duration count interpolation :: steps.drop (u.controller.step + 1) := by
    obtain ⟨hlt, heq⟩ := List.getElem?_eq_some_iff.1 hstep
    rw [List.drop_eq_getElem_cons hlt, heq]
  have hlive : ¬q.controller.isDeletable := by
    rw [isDeletable, hq.mode]
    decide
  have ht : t = if q.overflow.controller.isDue then play (steps.drop (u.controller.step + 1)) q.overflow.leave
      else q.overflow := by
    have hinstant : ¬(Step.path duration count interpolation).IsInstant := Bool.false_ne_true
    rw [show t = _ from hplay, hdrop, play_cons, if_neg hinstant, if_neg hlive]
  obtain ⟨l, hl, -⟩ := motions_advance q 0 (Scalar.max (Scalar.min q.controller.elapsed q.controller.target) 0)
  have hover : q.overflow.events = q.events ++ l.reverse := events_of_append hl
  split at ht
  · obtain ⟨later, hlater⟩ := exists_later (steps.drop (u.controller.step + 1)) q.overflow.leave
    have hleave : q.overflow.leave.events = q.overflow.events ++ [.left q.overflow.controller.step] :=
      events_of_append (l := [_]) rfl
    have hall : t.events = q.events ++ (l.reverse ++ ([.left q.overflow.controller.step] ++ later)) := by
      rw [ht, hlater, hleave, hover, List.append_assoc, List.append_assoc]
    exact ⟨q, u.events, _, hq, hevents, hall, .inr ht⟩
  · exact ⟨q, u.events, l.reverse, hq, hevents, by rw [ht, hover], .inl ht⟩

/-- **Control points are consumed once.** A path takes the points directly behind it, as many as it asks for and are
there, with the curve settings of the moment at which it is entered. When it is over, playback goes on behind all of
them. Between them and the path there is no other path, and a point, wherever it stands, is passed by. -/
theorem points_consumed_once (hstep : steps[k]? = some (.path duration count interpolation)) :
    let points := pointsBehind steps k
    let next := k + 1 + points.length
    ((∀ j p, points[j]? = some p → steps[k + 1 + j]? = some (.point p)) ∧ ∀ p, steps[next]? ≠ some (.point p)) ∧
    (∀ (c : Controller γ) (script : ScriptSet) (i : ℕ), script.sequence? i = some steps →
      ((c.bind script i).step = k → (c.bind script i).EntersPath steps k duration count interpolation c.curve) ∧
      (c.script = some script → (c.selectSequence i).step = k →
        (c.selectSequence i).EntersPath steps k duration count interpolation c.curve)) ∧
    (∀ (c : Controller γ) (body : β) (delta : Scalar), c.steps? = some steps →
      let t := Scene.update { controller := c, body } delta
      (.reached k (.path duration count interpolation) ∈ t.events →
        ∃ (q : Scene γ β) (before later : List (Event β)),
          q.controller.EntersPath steps k duration count interpolation c.curve ∧
          q.events = before ++ [.reached k (.path duration count interpolation)] ∧ t.events = q.events ++ later ∧
          (t = q.overflow ∨ t = play (steps.drop (k + 1)) q.overflow.leave)) ∧
      (.left k ∈ t.events → next ≤ t.controller.step ∧
        ∃ (q : Scene γ β) (later : List (Event β)),
          q.controller.step = k ∧ t = play (steps.drop next) (q.leave.skip points) ∧
          t.events = q.events ++ [.left k] ++ ((points.zipIdx (k + 1)).map fun (p, j) => .reached j (.point p)) ++
            later)) ∧
    (∀ k' duration' count' interpolation', k < k' → steps[k']? = some (.path duration' count' interpolation') →
      next ≤ k') ∧
    ∀ j p, steps[j]? = some (.point p) →
      (∀ s : Scene γ β, s.controller.step = j → play (steps.drop j) s = play (steps.drop (j + 1)) (s.skip [p])) ∧
      ∀ c : Controller γ, c.step = j → scan (steps.drop j) c = scan (steps.drop (j + 1)) c.next := by
  intro points next
  obtain ⟨hdrop, hne⟩ := drop_eq_points_append steps k
  refine ⟨⟨fun j p h => getElem?_pointsBehind h, hne⟩, fun c script i hsteps => ?_,
    fun c body delta hsteps => ⟨entersPath_update hsteps hstep, fun hleft => ?_⟩, ?_, ?_⟩
  · have hbind (hk : (c.bind script i).step = k) := entersPath_bind c hsteps hk hstep
    refine ⟨hbind, fun hscript hk => ?_⟩
    rw [selectSequence_eq_bind c hscript] at hk ⊢
    exact hbind hk
  · obtain ⟨q, rfl, hplay⟩ := update_of_left (s := { controller := c, body }) rfl hsteps hleft
    rw [hdrop, play_points] at hplay
    have hskip : (q.leave.skip points).events = q.events ++ [.left q.controller.step] ++
        (points.zipIdx (q.controller.step + 1)).map fun (p, j) => .reached j (.point p) := by
      rw [events_skip, events_of_append (s := q) (t := q.leave) (l := [_]) rfl]
      rfl
    obtain ⟨later, hlater⟩ := exists_later (steps.drop next) (q.leave.skip points)
    have hle := step_le_play (steps.drop next) (q.leave.skip points)
    rw [← hplay] at hlater hle
    exact ⟨hle, q, later, rfl, hplay, by rw [hlater, hskip]⟩
  · intro k' duration' count' interpolation' hlt h
    exact le_of_ne_point hlt h fun p => Step.noConfusion
  · intro j p hp
    have hcons : steps.drop j = [p].map .point ++ steps.drop (j + 1) := by
      obtain ⟨hlt, heq⟩ := List.getElem?_eq_some_iff.1 hp
      rw [List.drop_eq_getElem_cons hlt, heq]
      rfl
    rw [hcons]
    exact ⟨fun s _ => play_points [p] _ s, fun c _ => scan_points [p] _ c⟩

theorem points_consumed_once_of_two_paths :
    let steps : Sequence := [.wait 1, .path 1 1 .linear, .point ⟨1, 2⟩, .point ⟨3, 4⟩, .path 2 5 .linear,
      .point ⟨5, 6⟩, .wait 1]
    let c : Controller Stock := manual.bind ⟨"paths", [steps]⟩ 0
    let t : Scene Stock Body := Scene.update { controller := c, body := {} } 2.5
    (∃ q : Scene Stock Body, q.controller.EntersPath steps 1 1 1 .linear c.curve) ∧
    (∃ q : Scene Stock Body, q.controller.EntersPath steps 4 2 5 .linear c.curve) ∧
    ∃ q : Scene Stock Body, q.controller.step = 1 ∧
      t = Scene.play (steps.drop 4) (q.leave.skip [⟨1, 2⟩, ⟨3, 4⟩]) := by
  intro steps c t
  have hsteps : c.steps? = some steps := by decide +kernel
  have hreached : .reached 1 (.path 1 1 .linear) ∈ t.events := by decide +kernel
  have hleft : .left 1 ∈ t.events := by decide +kernel
  have hreached' : .reached 4 (.path 2 5 .linear) ∈ t.events := by decide +kernel
  have hpath : steps[1]? = some (.path 1 1 .linear) := rfl
  have hpath' : steps[4]? = some (.path 2 5 .linear) := rfl
  obtain ⟨-, -, hupdate, -⟩ := points_consumed_once (γ := Stock) (β := Body) hpath
  obtain ⟨-, -, hupdate', -⟩ := points_consumed_once (γ := Stock) (β := Body) hpath'
  obtain ⟨henter, hleave⟩ := hupdate c {} 2.5 hsteps
  obtain ⟨q, -, -, hq, -⟩ := henter hreached
  obtain ⟨-, u, -, hu, hplay, -⟩ := hleave hleft
  obtain ⟨q', -, -, hq', -⟩ := (hupdate' c {} 2.5 hsteps).1 hreached'
  exact ⟨⟨q, hq⟩, ⟨q', hq'⟩, u, hu, hplay⟩

end Controller

end MotionScript
