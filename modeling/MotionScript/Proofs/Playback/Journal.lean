import MotionScript.Proofs.Playback.Target

/-!
# What the journal tells

* `Event.Concerns`, `Event.MotionOf`, `Event.From`: the steps that an entry is about.
* `Scene.Logs`: the journal of one scene goes on from that of another.
* `Scene.logs_advance`, `Scene.logs_reach`, `Scene.logs_play`: what is entered in the journal on the way.
* `Scene.play_of_left`: where an entry that a step is left has been made.
-/

namespace MotionScript

variable {γ β : Type}

deriving instance DecidableEq for Event

/-- The entry does not end a step, and it is about no step but the one with the index. -/
def Event.Concerns (k : ℕ) : Event β → Prop
  | .left _ => False
  | .reached i _ | .drifted i _ | .followed i _ => i = k
  | .switched _ | .called _ _ | .sent _ => True

/-- The entry is about no step before the one with the index. -/
def Event.From (k : ℕ) : Event β → Prop
  | .left i | .reached i _ | .drifted i _ | .followed i _ => k ≤ i
  | .switched _ | .called _ _ | .sent _ => True

/-- The entry is a motion on account of the step with the index. -/
def Event.MotionOf (k : ℕ) : Event β → Prop
  | .drifted i _ | .followed i _ => i = k
  | _ => False

theorem Event.MotionOf.concerns {k : ℕ} {e : Event β} (h : e.MotionOf k) : e.Concerns k := by
  cases e with
  | drifted => exact h
  | followed => exact h
  | _ => exact h.elim

theorem Event.Concerns.from {k : ℕ} {e : Event β} (h : e.Concerns k) : e.From k := by
  cases e with
  | left => exact h.elim
  | reached => exact h.ge
  | drifted => exact h.ge
  | followed => exact h.ge
  | switched => trivial
  | called => trivial
  | sent => trivial

theorem Event.From.mono {k k' : ℕ} {e : Event β} (h : e.From k) (hk : k' ≤ k) : e.From k' := by
  cases e with
  | left => exact hk.trans h
  | reached => exact hk.trans h
  | drifted => exact hk.trans h
  | followed => exact hk.trans h
  | switched => trivial
  | called => trivial
  | sent => trivial

namespace Scene

/-- **The journal goes on** from that of `s` to that of `t`, with entries of a kind. -/
def Logs (P : Event β → Prop) (s t : Scene γ β) : Prop := ∃ l, t.journal = l ++ s.journal ∧ ∀ e ∈ l, P e

variable {P Q : Event β → Prop} {s t u : Scene γ β}

theorem logs_of_eq (h : t.journal = s.journal) : Logs P s t := ⟨[], h, List.forall_mem_nil _⟩

theorem logs_note {e : Event β} (h : P e) : Logs P s (s.note e) := ⟨[e], rfl, List.forall_mem_singleton.2 h⟩

theorem Logs.trans (h : Logs P s t) (h' : Logs P t u) : Logs P s u := by
  obtain ⟨l, hl, hP⟩ := h
  obtain ⟨l', hl', hP'⟩ := h'
  exact ⟨l' ++ l, by rw [hl', hl, List.append_assoc], List.forall_mem_append.2 ⟨hP', hP⟩⟩

theorem Logs.mono (h : Logs P s t) (hPQ : ∀ e, P e → Q e) : Logs Q s t := by
  obtain ⟨l, hl, hP⟩ := h
  exact ⟨l, hl, fun e he => hPQ e (hP e he)⟩

/-- Entries that concern whatever step one names are about none of them. -/
theorem logs_concerns_all (h : ∀ k, Logs (Event.Concerns k) s t) : Logs (fun e => ∀ k, e.Concerns k) s t := by
  obtain ⟨l, hl, -⟩ := h 0
  refine ⟨l, hl, fun e he k => ?_⟩
  obtain ⟨l', hl', hk⟩ := h k
  obtain rfl : l = l' := List.append_cancel_right (hl.symm.trans hl')
  exact hk e he

/-- No step has been left where all entries concern a step. -/
theorem Logs.left_mem {k i : ℕ} (h : Logs (Event.Concerns i) s t) (hk : .left k ∈ t.journal) :
    .left k ∈ s.journal := by
  obtain ⟨l, hl, hP⟩ := h
  rw [hl] at hk
  rcases List.mem_append.1 hk with h | h
  · exact (hP _ h).elim
  · exact h

section Motion

variable [Target β]

theorem journal_face (s : Scene γ β) (direction : Vec2) : (s.face direction).journal = s.journal := by
  unfold face
  split <;> rfl

theorem motions_drift (s : Scene γ β) (dt : Scalar) :
    Logs (Event.MotionOf s.controller.step) s (s.drift dt) := by
  unfold drift
  split
  · exact logs_of_eq rfl
  · refine ⟨[.drifted s.controller.step dt], ?_, List.forall_mem_singleton.2 rfl⟩
    dsimp only
    split
    · rfl
    · rw [journal_face]
      rfl

/-- What following a path enters in the journal. -/
theorem journal_follow (s : Scene γ β) (time : Scalar) :
    (s.follow time).journal = .followed s.controller.step time :: s.journal := by
  unfold follow note
  dsimp only
  split
  · split <;> simp only [journal_face, controller_face]
  · split <;> rfl

/-- The motion of a step enters nothing but itself. -/
theorem motions_advance (s : Scene γ β) (start dt : Scalar) :
    Logs (Event.MotionOf s.controller.step) s (s.advance start dt) := by
  unfold advance
  split
  · exact motions_drift s dt
  · exact ⟨[.followed s.controller.step _], journal_follow s _, List.forall_mem_singleton.2 rfl⟩
  · exact logs_of_eq rfl
  · exact logs_of_eq rfl

theorem logs_drift (s : Scene γ β) (dt : Scalar) : Logs (Event.Concerns s.controller.step) s (s.drift dt) :=
  (motions_drift s dt).mono fun _ => Event.MotionOf.concerns

theorem logs_advance (s : Scene γ β) (start dt : Scalar) :
    Logs (Event.Concerns s.controller.step) s (s.advance start dt) :=
  (motions_advance s start dt).mono fun _ => Event.MotionOf.concerns

end Motion

variable [Target β] [Generator γ β]

omit [Target β] in
theorem logs_callGenerator (s : Scene γ β) (delta : Scalar) (k : ℕ) :
    Logs (Event.Concerns k) s (s.callGenerator delta) := by
  unfold callGenerator
  split
  · exact logs_of_eq rfl
  · next g _ =>
    dsimp only
    refine ⟨_ ++ [_], (List.append_assoc _ [_] _).symm, ?_⟩
    simp only [List.mem_append, List.mem_reverse, List.mem_map, List.mem_singleton]
    rintro e (⟨command, -, rfl⟩ | rfl)
    · trivial
    · trivial

theorem logs_deliver (s : Scene γ β) (step : Step) (k : ℕ) : Logs (Event.Concerns k) s (s.deliver step) := by
  unfold deliver
  split
  · exact ⟨[_], rfl, List.forall_mem_singleton.2 trivial⟩
  · split
    · exact logs_callGenerator _ 0 k
    · exact logs_of_eq rfl
  · exact logs_of_eq rfl

theorem logs_reach (s : Scene γ β) (rest : List Step) (step : Step) :
    Logs (Event.Concerns s.controller.step) s (s.reach rest step) :=
  (logs_note (s := s) (show Event.Concerns _ (.reached s.controller.step step) from rfl)).trans
    (logs_deliver _ step _)

theorem logs_flush (s : Scene γ β) (k : ℕ) : Logs (Event.Concerns k) s s.flush := by
  obtain ⟨t, ht, h⟩ := flush_cases s
  have hswitch : Logs (Event.Concerns k) s t := by
    rcases ht with ⟨-, rfl⟩ | ⟨n, -, rfl⟩
    · exact logs_of_eq rfl
    · exact ⟨[_], rfl, List.forall_mem_singleton.2 trivial⟩
  rcases h with ⟨-, h⟩ | ⟨-, h⟩
  · rw [h]
    exact hswitch
  · rw [h]
    exact hswitch.trans (logs_callGenerator _ 0 k)

omit [Target β] in
theorem logs_tick (s : Scene γ β) (delta : Scalar) (k : ℕ) : Logs (Event.Concerns k) s (s.tick delta) := by
  unfold tick
  split
  · exact logs_callGenerator s delta k
  · exact logs_of_eq rfl

/-! ## From step to step -/

theorem step_reach (s : Scene γ β) (rest : List Step) (step : Step) :
    (s.reach rest step).controller.step = s.controller.step :=
  (congrArg Playhead.step (playhead_reach s rest step)).trans Playhead.step_enter

omit [Generator γ β] in
theorem step_overflow (s : Scene γ β) : s.overflow.controller.step = s.controller.step :=
  congrArg Playhead.step (playhead_overflow s)

/-- The motion of a step that has just been reached. -/
theorem logs_reach_overflow (s : Scene γ β) (rest : List Step) (step : Step) :
    Logs (Event.Concerns s.controller.step) s (s.reach rest step).overflow := by
  have h := logs_advance (s.reach rest step) 0
    (Scalar.max (Scalar.min (s.reach rest step).controller.elapsed (s.reach rest step).controller.target) 0)
  rw [step_reach] at h
  exact (logs_reach s rest step).trans h

theorem play_cons (step : Step) (rest : List Step) (s : Scene γ β) :
    play (step :: rest) s =
      if step.IsInstant then play rest ((s.reach rest step).control (·.next))
      else if (s.reach rest step).controller.isDeletable then s.reach rest step
      else if (s.reach rest step).overflow.controller.isDue then play rest (s.reach rest step).overflow.leave
      else (s.reach rest step).overflow := rfl

/-- **Playback enters nothing about the steps behind it.** -/
theorem logs_play : ∀ (steps : List Step) (s : Scene γ β), Logs (Event.From s.controller.step) s (play steps s)
  | [], s => (logs_advance s _ _).mono fun _ => Event.Concerns.from
  | step :: rest, s => by
    have hreach := (logs_reach s rest step).mono fun _ => Event.Concerns.from
    have hover := (logs_reach_overflow s rest step).mono fun _ => Event.Concerns.from
    rw [play_cons]
    split
    · have hrest := logs_play rest ((s.reach rest step).control (·.next))
      refine hreach.trans (hrest.mono fun _ h => h.mono ?_)
      show s.controller.step ≤ (s.reach rest step).controller.step + 1
      rw [step_reach]
      omega
    · split
      · exact hreach
      · split
        · have hleft : Logs (Event.From s.controller.step) s (s.reach rest step).overflow.leave := by
            refine hover.trans ⟨[_], rfl, List.forall_mem_singleton.2 ?_⟩
            show s.controller.step ≤ (s.reach rest step).overflow.controller.step
            rw [step_overflow, step_reach]
          have hrest := logs_play rest (s.reach rest step).overflow.leave
          refine hleft.trans (hrest.mono fun _ h => h.mono ?_)
          show s.controller.step ≤ (s.reach rest step).overflow.controller.step + 1
          rw [step_overflow, step_reach]
          omega
        · exact hover

/-- **Where a step has been left.** If it was not before, then playback has come to a scene in which the step
is reached and is over at once, and goes on from there. -/
theorem play_of_left {steps : Sequence} {k : ℕ} {s : Scene γ β} {rest : List Step}
    (hrest : steps.drop s.controller.step = rest) (hs : .left k ∉ s.journal)
    (h : .left k ∈ (play rest s).journal) :
    ∃ (q : Scene γ β) (step : Step), q.controller.step = k ∧ s.controller.step ≤ k ∧
      (s.controller.generator = none → q.controller.generator = none) ∧
      steps[k]? = some step ∧ (q.reach (steps.drop (k + 1)) step).overflow.controller.isDue ∧
      play rest s = play (steps.drop (k + 1)) (q.reach (steps.drop (k + 1)) step).overflow.leave := by
  -- on the steps ahead: the entry is made at the first of them or further on
  induction rest generalizing s with
  | nil => exact absurd ((logs_advance s _ _).left_mem h) hs
  | cons step rest ih =>
    obtain ⟨hstep, rfl⟩ := Playhead.drop_eq_cons hrest
    generalize hr : steps.drop (s.controller.step + 1) = rest at *
    have hreach := step_reach s rest step
    have hover := (step_overflow (s.reach rest step)).trans hreach
    have hnot : .left k ∉ (s.reach rest step).journal := fun hm => hs ((logs_reach s rest step).left_mem hm)
    have hnot' : .left k ∉ (s.reach rest step).overflow.journal :=
      fun hm => hs ((logs_reach_overflow s rest step).left_mem hm)
    rw [play_cons] at h ⊢
    split at h
    · next hi =>
      rw [if_pos hi]
      have hdrop : steps.drop ((s.reach rest step).control (·.next)).controller.step = rest := by
        show steps.drop ((s.reach rest step).controller.step + 1) = rest
        rw [hreach, hr]
      obtain ⟨q, step', hq, hle, hg, hfound⟩ := ih hdrop hnot h
      have hle' : (s.reach rest step).controller.step + 1 ≤ k := hle
      exact ⟨q, step', hq, by omega, fun hn => hg (generator_reach hn rest step), hfound⟩
    · next hi =>
      split at h
      · exact absurd h hnot
      · next hv =>
        split at h
        · next hd =>
          rw [if_neg hi, if_neg hv, if_pos hd]
          rcases eq_or_ne s.controller.step k with rfl | hne
          · rw [hr]
            exact ⟨s, step, rfl, le_rfl, id, hstep, hd, rfl⟩
          · have hdrop : steps.drop (s.reach rest step).overflow.leave.controller.step = rest := by
              show steps.drop ((s.reach rest step).overflow.controller.step + 1) = rest
              rw [hover, hr]
            have hleave : .left k ∉ (s.reach rest step).overflow.leave.journal := by
              intro hm
              rcases List.mem_cons.1 hm with heq | hm
              · exact hne (by rw [← hover]; exact (Event.left.inj heq).symm)
              · exact hnot' hm
            obtain ⟨q, step', hq, hle, hg, hfound⟩ := ih hdrop hleave h
            have hle' : (s.reach rest step).overflow.controller.step + 1 ≤ k := hle
            have hgen : s.controller.generator = none → (s.reach rest step).overflow.controller.generator = none :=
              fun hn => (generator_advance _ _ _).trans (generator_reach hn rest step)
            exact ⟨q, step', hq, by omega, fun hn => hg (hgen hn), hfound⟩
        · exact absurd h hnot'

end Scene

end MotionScript
