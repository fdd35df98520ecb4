import MotionScript.Proofs.Playback.Passage
import MotionScript.Proofs.Playback.Reached
import MotionScript.Proofs.Playback.Timeline
import MotionScript.Proofs.Scalar.Difference

/-!
# How far an update goes

An update leaves steps as long as their time is up. Whatever the clock shows and whatever the durations are, it comes
to an end: every step that is left or reached lies ahead of the one before, and none lies beyond the sequence.

* `Scene.boundaries`, `Scene.visits`: the steps that were left, and those that were reached.
* `Scene.Trail`: what the journal tells of a way through the sequence.
* `Scene.trail_play`, `Scene.trail_update`: playback keeps to such a way, and so does an update.
* `Scene.update_cases`: an update stays at the current step, or leaves it and plays on.
* `Playhead.not_due_update`: the step at which an update rests is not over.
* `Controller.update_bounded`: an update is bounded and leaves no step that is over.
-/

namespace MotionScript

variable {γ β : Type}

/-! ## What is left and what is reached -/

namespace Event

/-- The step that an entry reports to be left. -/
def left? : Event β → Option ℕ
  | left k => some k
  | _ => none

/-- The place of the step that an entry reports to be reached. -/
def place? : Event β → Option ℕ
  | reached k _ => some k
  | _ => none

/-- The entry reports no step to be left or reached. -/
def StandsStill (e : Event β) : Prop := e.left? = none ∧ e.place? = none

theorem MotionOf.standsStill {k : ℕ} {e : Event β} (h : e.MotionOf k) : e.StandsStill := by
  cases e with
  | drifted => exact ⟨rfl, rfl⟩
  | followed => exact ⟨rfl, rfl⟩
  | _ => exact h.elim

end Event

namespace Scene

/-- The steps that were left, in order. -/
def boundaries (s : Scene γ β) : List ℕ := s.events.filterMap Event.left?

/-- The places of the steps that were reached, in order. -/
def visits (s : Scene γ β) : List ℕ := s.events.filterMap Event.place?

/-- **The way from a step on.** The steps that were left lie one behind the other before the current one, those that
were reached follow each other up to the one with index `m`, and each is the step of the sequence at its place. -/
structure Trail (steps : Sequence) (i m : ℕ) (s : Scene γ β) : Prop where
  left : s.boundaries.Sublist (List.range' i (s.controller.step - i))
  visited : s.visits = List.range' (i + 1) (m - (i + 1))
  found : ∀ k step, .reached k step ∈ s.events → steps[k]? = some step

variable {steps : Sequence} {i m : ℕ} {s t : Scene γ β}

theorem trail_of_journal_nil (h : s.journal = []) (hm : m ≤ i + 1) : Trail steps i m s := by
  have hevents : s.events = [] := by rw [events, h, List.reverse_nil]
  constructor
  · rw [boundaries, hevents]
    exact List.nil_sublist _
  · rw [visits, hevents, Nat.sub_eq_zero_of_le hm]
    rfl
  · intro k step hk
    rw [hevents] at hk
    cases hk

/-- Entries that report no step to be left or reached belong to the way. -/
theorem Trail.stand (h : Trail steps i m s) (hlogs : Logs Event.StandsStill s t)
    (hstep : t.controller.step = s.controller.step) : Trail steps i m t := by
  constructor
  · rw [boundaries, filterMap_of_logs (hlogs.mono fun _ he => he.1), hstep]
    exact h.left
  · rw [visits, filterMap_of_logs (hlogs.mono fun _ he => he.2)]
    exact h.visited
  · intro k step hk
    obtain ⟨l, hl, hstill⟩ := hlogs
    rw [events_of_append hl, List.mem_append, List.mem_reverse] at hk
    rcases hk with hk | hk
    · exact h.found k step hk
    · cases (hstill _ hk).2

/-- Entries that concern whatever step one names report none to be left or reached. -/
theorem logs_standsStill (h : ∀ k, Logs (Event.Concerns k) s t) : Logs Event.StandsStill s t := by
  refine (logs_concerns_all h).mono fun e he => ?_
  cases e with
  | left => exact (he 0).elim
  | reached i => exact absurd ((he 0).symm.trans (he 1)) (by decide)
  | _ => exact ⟨rfl, rfl⟩

theorem Trail.next (h : Trail steps i m s) : Trail steps i m (s.control (·.next)) where
  left := by
    refine h.left.trans (List.range'_sublist_right.2 ?_)
    show s.controller.step - i ≤ s.controller.step + 1 - i
    omega
  visited := h.visited
  found := h.found

/-- The step that is left comes behind all that were left before. -/
theorem Trail.leave (h : Trail steps i m s) (hi : i ≤ s.controller.step) : Trail steps i m s.leave where
  left := by
    have hboundaries : s.leave.boundaries = s.boundaries ++ [s.controller.step] := filterMap_note s _ _
    have hrange : List.range' i (s.controller.step + 1 - i) =
        List.range' i (s.controller.step - i) ++ [s.controller.step] := by
      rw [Nat.succ_sub hi, List.range'_1_concat, Nat.add_sub_cancel' hi]
    rw [hboundaries]
    show (s.boundaries ++ [s.controller.step]).Sublist (List.range' i (s.controller.step + 1 - i))
    rw [hrange]
    exact h.left.append_right _
  visited := by
    have hvisits : s.leave.visits = s.visits := (filterMap_note s _ _).trans (List.append_nil _)
    rw [hvisits]
    exact h.visited
  found k step hk := by
    have hevents : s.leave.events = s.events ++ [.left s.controller.step] := events_of_append (l := [_]) rfl
    rw [hevents, List.mem_append, List.mem_singleton] at hk
    rcases hk with hk | hk
    · exact h.found k step hk
    · cases hk

section Motion

variable [Target β]

theorem Trail.advance (h : Trail steps i m s) (start dt : Scalar) : Trail steps i m (s.advance start dt) := by
  obtain ⟨v, hc⟩ := controller_advance s start dt
  exact h.stand ((motions_advance s start dt).mono fun _ => Event.MotionOf.standsStill) (by rw [hc])

end Motion

variable [Target β] [Generator γ β]

/-- **A step is reached where the way has come to.** -/
theorem Trail.reach {step : Step} (h : Trail steps i s.controller.step s) (hi : i < s.controller.step)
    (hstep : steps[s.controller.step]? = some step) (rest : List Step) :
    Trail steps i (s.controller.step + 1) (s.reach rest step) := by
  let q : Scene γ β := (s.note (.reached s.controller.step step)).control (·.enter rest step)
  have hq : q.controller.step = s.controller.step :=
    (congrArg Playhead.step (Controller.playhead_enter rest s.controller step)).trans Playhead.step_enter
  have hreached : Trail steps i (s.controller.step + 1) q := by
    have hevents : q.events = s.events ++ [.reached s.controller.step step] := events_of_append (l := [_]) rfl
    constructor
    · have hboundaries : q.boundaries = s.boundaries := (filterMap_note s _ _).trans (List.append_nil _)
      rw [hboundaries, hq]
      exact h.left
    · have hvisits : q.visits = s.visits ++ [s.controller.step] := filterMap_note s _ _
      have hsucc : s.controller.step + 1 - (i + 1) = s.controller.step - (i + 1) + 1 := by omega
      rw [hvisits, h.visited, hsucc, List.range'_1_concat, Nat.add_sub_cancel' hi]
    · intro k step' hk
      rw [hevents, List.mem_append, List.mem_singleton] at hk
      rcases hk with hk | hk
      · exact h.found k step' hk
      · obtain ⟨rfl, rfl⟩ := Event.reached.inj hk
        exact hstep
  -- what the step wants of the entity takes playback nowhere
  refine hreached.stand (logs_standsStill fun k => logs_deliver q step k) ?_
  exact (step_reach s rest step).trans hq.symm

/-- **Playback keeps to its way**, and does not leave the sequence. -/
theorem trail_play (h : Trail steps i s.controller.step s) (hi : i < s.controller.step)
    (hle : s.controller.step ≤ steps.length) :
    let t := play (steps.drop s.controller.step) s
    Trail steps i (min (t.controller.step + 1) steps.length) t ∧ i < t.controller.step ∧
      t.controller.step ≤ steps.length := by
  -- before a step is reached all that were reached lie before it
  let Way (s : Scene γ β) : Prop := Trail steps i s.controller.step s ∧ i < s.controller.step
  let Rest (t : Scene γ β) : Prop := Trail steps i (min (t.controller.step + 1) steps.length) t ∧
    i < t.controller.step ∧ t.controller.step ≤ steps.length
  have hreach : ∀ s step, Way s → steps[s.controller.step]? = some step →
      Trail steps i (s.controller.step + 1) (s.reach (steps.drop (s.controller.step + 1)) step) :=
    fun s step hs hstep => hs.1.reach hs.2 hstep _
  have hrest : ∀ s t : Scene γ β, Way s → s.controller.step < steps.length →
      t.controller.step = s.controller.step → Trail steps i (s.controller.step + 1) t → Rest t := by
    intro s t hs hlt heq ht
    refine ⟨?_, by rw [heq]; exact hs.2, by omega⟩
    rw [heq, Nat.min_eq_left hlt]
    exact ht
  have hlt : ∀ (s : Scene γ β) (step : Step), steps[s.controller.step]? = some step →
      s.controller.step < steps.length := fun _ _ h => (List.getElem?_eq_some_iff.1 h).1
  refine play_induction Way Rest ?_ ?_ ?_ ?_ ?_ ⟨h, hi⟩ hle
  · intro s hs hend
    have hover : s.overflow.controller.step = steps.length := (step_overflow s).trans hend
    refine ⟨?_, by rw [step_overflow]; exact hs.2, hover.le⟩
    rw [hover, Nat.min_eq_right (Nat.le_succ _), ← hend]
    exact hs.1.advance _ _
  · intro s step hs hstep _
    have hnext : ((s.reach (steps.drop (s.controller.step + 1)) step).control (·.next)).controller.step =
        s.controller.step + 1 := congrArg (· + 1) (step_reach s _ step)
    refine ⟨?_, by rw [hnext]; exact hs.2.trans (Nat.lt_succ_self _)⟩
    rw [hnext]
    exact (hreach s step hs hstep).next
  · intro s step hs hstep _ _
    exact hrest s _ hs (hlt s step hstep) (step_reach s _ step) (hreach s step hs hstep)
  · intro s step hs hstep _ _ _
    exact hrest s _ hs (hlt s step hstep) ((step_overflow _).trans (step_reach s _ step))
      ((hreach s step hs hstep).advance _ _)
  · intro s step hs hstep _ _ _
    have hover := (step_overflow (s.reach (steps.drop (s.controller.step + 1)) step)).trans (step_reach s _ step)
    have hleave : (s.reach (steps.drop (s.controller.step + 1)) step).overflow.leave.controller.step =
        s.controller.step + 1 := congrArg (· + 1) hover
    refine ⟨?_, by rw [hleave]; exact hs.2.trans (Nat.lt_succ_self _)⟩
    rw [hleave]
    exact ((hreach s step hs hstep).advance _ _).leave (hs.2.le.trans hover.ge)

/-- **What an update comes to**: playback stays where it is, or it leaves the current step and plays on. -/
theorem update_cases (s : Scene γ β) (delta : Scalar) :
    Logs Event.StandsStill s (s.update delta) ∧ (s.update delta).controller.step = s.controller.step ∨
      ∃ (steps : Sequence) (q : Scene γ β), s.controller.steps? = some steps ∧ s.controller.step < steps.length ∧
        Logs Event.StandsStill s q ∧ q.controller.step = s.controller.step ∧
        q.controller.curve = s.controller.curve ∧
        s.update delta = play (steps.drop (s.controller.step + 1)) q.leave := by
  let q : Scene γ β := s.flush.tick delta
  have hplayhead : q.controller.playhead = s.controller.playhead := playhead_flush_tick s delta
  have hstep : q.controller.step = s.controller.step := congrArg Playhead.step hplayhead
  have hflush : Logs Event.StandsStill s q :=
    logs_standsStill fun k => (logs_flush s k).trans (logs_tick s.flush delta k)
  by_cases hvanished : s.controller.mode = .vanished
  · rw [update_vanished hvanished delta]
    exact .inl ⟨hflush, hstep⟩
  by_cases hmanual : s.controller.mode = .manual
  · have hdrive : (q.driveManually delta).controller.step = s.controller.step :=
      (congrArg Playhead.step (playhead_driveManually q delta)).trans hstep
    rw [update_manual hmanual delta]
    exact .inl ⟨hflush.trans ((motions_drift q delta).mono fun _ => Event.MotionOf.standsStill), hdrive⟩
  have hdriven : s.controller.mode = .move ∨ s.controller.mode = .path := Mode.driven hvanished hmanual
  cases hsteps : s.controller.steps? with
  | none =>
    rw [update_unbound hdriven hsteps delta]
    exact .inl ⟨hflush, hstep⟩
  | some steps =>
    have hproceed : (q.proceed delta).controller.playhead = s.controller.playhead.wait delta :=
      (playhead_proceed q delta).trans (by rw [hplayhead])
    have hstep' : (q.proceed delta).controller.step = s.controller.step := congrArg Playhead.step hproceed
    have hcurve : (q.proceed delta).controller.curve = s.controller.curve := congrArg Playhead.curve hproceed
    have hlogs : Logs Event.StandsStill s (q.proceed delta) :=
      hflush.trans ((motions_advance q _ _).mono fun _ => Event.MotionOf.standsStill)
    rw [update_driven hdriven hsteps delta]
    unfold playOn
    dsimp only
    split
    · next hdue =>
      exact .inr ⟨steps, q.proceed delta, rfl, hstep' ▸ hdue.2, hlogs, hstep', hcurve, by rw [← hstep']⟩
    · exact .inl ⟨hlogs, hstep'⟩

/-- **An update keeps to its way.** -/
theorem trail_update {s : Scene γ β} (hj : s.journal = []) (delta : Scalar) :
    let steps := s.controller.steps?.getD []
    let t := s.update delta
    Trail steps s.controller.step (min (t.controller.step + 1) steps.length) t ∧
      s.controller.step ≤ t.controller.step ∧ t.controller.step ≤ max s.controller.step steps.length := by
  intro steps t
  rcases update_cases s delta with ⟨hlogs, hstep⟩ | ⟨steps', q, hsteps, hlt, hlogs, hstep, -, hplay⟩
  · have hnil : Trail steps s.controller.step (min (t.controller.step + 1) steps.length) s :=
      trail_of_journal_nil hj (hstep ▸ min_le_left _ _)
    exact ⟨hnil.stand hlogs hstep, hstep.ge, hstep.le.trans (le_max_left _ _)⟩
  · obtain rfl : steps = steps' := by simp only [steps, hsteps, Option.getD_some]
    have hleave : q.leave.controller.step = s.controller.step + 1 := congrArg (· + 1) hstep
    have hnil : Trail steps s.controller.step (s.controller.step + 1) s := trail_of_journal_nil hj le_rfl
    have hway : Trail steps s.controller.step q.leave.controller.step q.leave := by
      rw [hleave]
      exact (hnil.stand hlogs hstep).leave hstep.ge
    obtain ⟨htrail, hahead, hend⟩ :=
      trail_play hway (hleave ▸ Nat.lt_succ_self _) (hleave ▸ hlt)
    rw [hleave, ← hplay] at htrail hahead hend
    exact ⟨htrail, hahead.le, hend.trans (le_max_right _ _)⟩

end Scene

/-! ## Where an update rests -/

namespace Playhead

variable {steps : Sequence} {p : Playhead}

/-- Playback rests at a step only if the step is not over. -/
theorem not_due_play (hle : p.step ≤ steps.length) :
    let q := play (steps.drop p.step) p
    q.mode ≠ .vanished → q.step < steps.length → ¬q.isDue := by
  refine play_induction (fun _ => True) (fun q => q.mode ≠ .vanished → q.step < steps.length → ¬q.isDue)
    ?_ ?_ ?_ ?_ trivial hle
  · intro q _ hend _ hlt
    exact absurd hend hlt.ne
  · exact fun _ _ _ _ _ => trivial
  · intro q step _ _ _ hdue hv _
    exact hdue hv
  · exact fun _ _ _ _ _ _ _ => trivial

/-- **What an update comes to**: playback stays where it is, for want of time or of a step to leave, or it leaves the
current step and plays on. -/
theorem update_cases (hsteps : p.steps? = some steps) (delta : Scalar) :
    (p.update delta).step = p.step ∧
        ((p.update delta).mode = .move ∨ (p.update delta).mode = .path → p.step < steps.length →
          ¬(p.update delta).isDue) ∨
      (p.wait delta).leave.Ready ∧ p.step < steps.length ∧
        p.update delta = play (steps.drop (p.step + 1)) (p.wait delta).leave := by
  by_cases hvanished : p.mode = .vanished
  · rw [update_vanished hvanished, hvanished]
    exact .inl ⟨rfl, fun h => by rcases h with h | h <;> cases h⟩
  by_cases hmanual : p.mode = .manual
  · have hdrive : (p.drive delta).mode = .manual := hmanual
    rw [update_manual hmanual, hdrive]
    exact .inl ⟨rfl, fun h => by rcases h with h | h <;> cases h⟩
  have hdriven : p.mode = .move ∨ p.mode = .path := Mode.driven hvanished hmanual
  rw [update_driven hdriven hsteps]
  unfold playOn
  dsimp only
  split
  · next hdue => exact .inr ⟨Ready.leave hdriven, hdue.2, rfl⟩
  · next hdue => exact .inl ⟨rfl, fun _ hlt hd => hdue ⟨hd, hlt⟩⟩

/-- **The step at which an update rests is not over**, unless the script has ended or the owner has taken over. -/
theorem not_due_update (hsteps : p.steps? = some steps) (delta : Scalar)
    (hm : (p.update delta).mode = .move ∨ (p.update delta).mode = .path)
    (hlt : (p.update delta).step < steps.length) : ¬(p.update delta).isDue := by
  rcases update_cases hsteps delta with ⟨hstep, hrest⟩ | ⟨-, hle, hplay⟩
  · exact hrest hm (hstep ▸ hlt)
  · have hlive : (p.update delta).mode ≠ .vanished := by
      rcases hm with h | h <;> rw [h] <;> decide
    rw [hplay] at hlive hlt ⊢
    exact not_due_play (p := (p.wait delta).leave) hle hlive hlt

/-- An update that goes on to another step comes to rest there. -/
theorem settled_of_step_ne (hsteps : p.steps? = some steps) (delta : Scalar) (h : (p.update delta).step ≠ p.step) :
    (p.update delta).Settled steps := by
  rcases update_cases hsteps delta with ⟨hstep, -⟩ | ⟨hready, hle, hplay⟩
  · exact absurd hstep h
  · rw [hplay]
    exact hready.settled_play hle

/-- A step that is not over although it takes no time shows that the clock is far behind. -/
theorem behind_of_not_due {duration : Scalar} (ht : p.target = Scalar.max duration 0) (hd : ¬0 < duration)
    (h : ¬p.isDue) : p.elapsed.isNaN ∨ p.elapsed < -Controller.timeTolerance := by
  by_cases hnan : p.elapsed.isNaN
  · exact .inl hnan
  right
  have hfinite : Controller.timeTolerance.isFinite := timeTolerance_bounds.1
  refine Scalar.lt_of_not_le (Scalar.not_isNaN_of_isFinite (Scalar.isFinite_neg hfinite)) hnan fun hle => h ?_
  unfold isDue
  rw [ht, Scalar.max_zero_of_not_pos hd, decide_eq_true_iff]
  exact Scalar.zero_le_add_of_neg_le hfinite hle

end Playhead

/-- What is reached on a way lies on it. -/
theorem Scene.Trail.between {steps : Sequence} {i m k : ℕ} {step : Step} {s : Scene γ β} (h : s.Trail steps i m)
    (hk : .reached k step ∈ s.events) : i < k ∧ k < m := by
  have hvisit : k ∈ s.visits := List.mem_filterMap.2 ⟨_, hk, rfl⟩
  rw [h.visited, List.mem_range'_1] at hvisit
  omega

namespace Controller

open Scene

/-- A controller without a sequence is as one at the end of it. -/
theorem isIdle_iff (c : Controller γ) : c.isIdle ↔ (c.steps?.getD []).length ≤ c.step := by
  rw [isIdle]
  cases c.steps? with
  | none => simp
  | some steps => simp

theorem steps?_of_lt {c : Controller γ} {k : ℕ} (h : k < (c.steps?.getD []).length) :
    c.steps? = some (c.steps?.getD []) := by
  cases hs : c.steps? with
  | none =>
    rw [hs] at h
    exact absurd h (Nat.not_lt_zero k)
  | some steps => rfl

variable [Target β] [Generator γ β]

/-- **An update is bounded, and leaves no step that is over.** It leaves and reaches each of the steps ahead once at
most, never goes back, and asks for no step beyond the sequence. Unless the script has ended or is at its end, the
step at which it rests is not over. So it passes a wait that takes no time, however its duration says so, if the clock
shows a time and is not behind by more than the tolerance. -/
theorem update_bounded (c : Controller γ) (body : β) (delta : Scalar) :
    let steps := c.steps?.getD []
    let t := Scene.update { controller := c, body } delta
    let d := t.controller
    (c.step ≤ d.step ∧ d.step ≤ max c.step steps.length) ∧
    (t.boundaries.Sublist (List.range' c.step (d.step - c.step)) ∧ t.boundaries.length ≤ steps.length - c.step) ∧
    t.visits = List.range' (c.step + 1) (min (d.step + 1) steps.length - (c.step + 1)) ∧
    (∀ k step, .reached k step ∈ t.events → ∃ h : k < steps.length, steps[k] = step) ∧
    (d.mode = .move ∨ d.mode = .path → ¬d.isIdle → ¬d.target ≤ d.elapsed + timeTolerance) ∧
    ∀ k duration, .reached k (.wait duration) ∈ t.events → ¬0 < duration →
      k < d.step ∨ d.elapsed.isNaN ∨ d.elapsed < -timeTolerance := by
  intro steps t d
  obtain ⟨htrail, hle, hend⟩ : t.Trail steps c.step (min (d.step + 1) steps.length) ∧ c.step ≤ d.step ∧
      d.step ≤ max c.step steps.length := trail_update (s := { controller := c, body }) rfl delta
  have hplayhead : d.playhead = c.playhead.update delta := playhead_update _ delta
  have hsteps : d.steps? = c.steps? := by
    have h := Playhead.steps?_update c.playhead delta
    rwa [← hplayhead] at h
  have hidle : d.isIdle ↔ steps.length ≤ d.step := by rw [isIdle_iff, hsteps]
  have hrest (hm : d.mode = .move ∨ d.mode = .path) (hlt : d.step < steps.length) : ¬d.isDue := by
    have hdue := Playhead.not_due_update (p := c.playhead) (steps?_of_lt hlt) delta
    rw [← hplayhead] at hdue
    exact hdue hm hlt
  refine ⟨⟨hle, hend⟩, ⟨htrail.left, ?_⟩, htrail.visited, fun k step hk => ?_, fun hm hi hdue => ?_,
    fun k duration hk hd => ?_⟩
  · have hlength : t.boundaries.length ≤ d.step - c.step :=
      htrail.left.length_le.trans_eq List.length_range'
    omega
  · exact List.getElem?_eq_some_iff.1 (htrail.found k step hk)
  · exact hrest hm (by rwa [hidle, not_le] at hi) (decide_eq_true hdue)
  · have hfound := htrail.found k _ hk
    obtain ⟨hahead, hbound⟩ := htrail.between hk
    rcases Nat.lt_or_ge k d.step with hpassed | hge
    · exact .inl hpassed
    right
    -- playback rests at the wait, which is not over
    obtain rfl : k = d.step := by omega
    have hlt : d.step < steps.length := (List.getElem?_eq_some_iff.1 hfound).1
    have hset : d.playhead.Settled steps := by
      rw [hplayhead]
      refine Playhead.settled_of_step_ne (p := c.playhead) (steps?_of_lt hlt) delta ?_
      rw [← hplayhead]
      exact hahead.ne'
    obtain ⟨hmode, htarget⟩ : d.mode = .move ∧ d.target = Scalar.max duration 0 := by
      unfold Playhead.Settled at hset
      have hstep : d.playhead.step = d.step := rfl
      rw [hstep, hfound] at hset
      exact hset
    exact Playhead.behind_of_not_due (p := d.playhead) htarget hd (hrest (.inl hmode) hlt)

theorem update_bounded_of_spent_waits :
    let steps : Sequence := [.wait 1, .wait (-1), .wait 0, .wait Scalar.nan, .animate 2, .path (-2) 1 .linear,
      .point ⟨1, 2⟩, .wait 2]
    let t : Scene Stock Body := Scene.update { controller := manual.bind ⟨"waits", [steps]⟩ 0, body := {} } 1
    (.reached 3 (.wait Scalar.nan) ∈ t.events ∧ 3 < t.controller.step) ∧
    ¬t.controller.target ≤ t.controller.elapsed + timeTolerance := by
  intro steps t
  obtain ⟨-, -, -, -, hrest, hpassed⟩ :=
    update_bounded (manual.bind ⟨"waits", [steps]⟩ 0 : Controller Stock) ({} : Body) 1
  have hreached : .reached 3 (.wait Scalar.nan) ∈ t.events := by decide +kernel
  have hnan : ¬t.controller.elapsed.isNaN := by decide +kernel
  have hahead : ¬t.controller.elapsed < -timeTolerance := by decide +kernel
  refine ⟨⟨hreached, ?_⟩, hrest (.inl (by decide +kernel)) (by decide +kernel)⟩
  rcases hpassed 3 Scalar.nan hreached (by decide +kernel) with h | h | h
  · exact h
  · exact absurd h hnan
  · exact absurd h hahead

end Controller

end MotionScript
