import MotionScript.Proofs.Playback.Boundaries
import MotionScript.Proofs.Playback.History

/-!
# Runs that break off

A path may ask for more samples than can be counted or kept. The run of a program breaks off when it reaches such a
path, in a binding or in an update. Up to then it goes the way that is told of bindings and updates elsewhere.

* `Controller.update?_eq_some_iff`, `Controller.bind?_eq_some_iff`: just when an update or a binding does not break off.
* `Controller.perform?`, `Controller.eq_of_operate?`: a run that does not break off is the run of the operations.
* `Controller.Within`, `Controller.operate?_of_within`: short sequences and coarse settings never break a run off.
-/

namespace MotionScript

variable {γ β : Type}

/-! ## Settings of curves -/

namespace Playhead

theorem curve_enter (rest : List Step) (p : Playhead) (step : Step) : (p.enter rest step).curve = p.curve := by
  cases step <;> rfl

theorem curve_play (steps : List Step) (p : Playhead) : (play steps p).curve = p.curve := by
  induction steps generalizing p with
  | nil => rfl
  | cons step rest ih =>
    have henter := curve_enter rest p step
    unfold play
    dsimp only
    split
    · exact (ih _).trans henter
    · split
      · exact henter
      · split
        · exact (ih _).trans henter
        · exact henter

theorem curve_scan (steps : List Step) (p : Playhead) : (scan steps p).curve = p.curve := by
  induction steps generalizing p with
  | nil => rfl
  | cons step rest ih =>
    have henter := curve_enter rest p step
    unfold scan
    dsimp only
    split
    · exact (ih _).trans henter
    · exact henter

/-- An update leaves the settings of curves as they are. -/
theorem curve_update (p : Playhead) (delta : Scalar) : (p.update delta).curve = p.curve := by
  unfold update
  split
  · rfl
  · rfl
  all_goals
    cases p.steps? with
    | none => rfl
    | some steps =>
      rw [Option.elim_some]
      unfold playOn
      dsimp only
      split
      · exact curve_play _ _
      · rfl

end Playhead

namespace Controller

variable {c d : Controller γ} {script : ScriptSet} {steps : Sequence} {i : ℕ}

theorem curve_bind (h : script.sequence? i = some steps) : (c.bind script i).curve = c.curve := by
  have hplayhead := congrArg Playhead.curve (playhead_bind c h)
  rwa [Playhead.curve_scan] at hplayhead

theorem script_bind (h : script.sequence? i = some steps) : (c.bind script i).script = some script := by
  have hplayhead := congrArg Playhead.script (playhead_bind c h)
  rwa [(Playhead.sequence_scan _ _).1] at hplayhead

theorem steps?_bind (h : script.sequence? i = some steps) : (c.bind script i).steps? = some steps := by
  have hplayhead := congrArg Playhead.steps? (playhead_bind c h)
  rwa [Playhead.steps?_scan_start c.curve h] at hplayhead

/-! ## Steps that can be reached -/

/-- Whether a step can be reached depends on the sequence and on the settings of curves alone. -/
theorem canReach_congr (hsteps : d.steps? = c.steps?) (hcurve : d.curve = c.curve) (k : ℕ) :
    d.canReach k = c.canReach k := by
  unfold canReach
  rw [hsteps, hcurve]

/-- There is nothing to break off at behind the end. -/
theorem canReach_of_le {k : ℕ} (h : (c.steps?.getD []).length ≤ k) : c.canReach k := by
  unfold canReach
  rw [List.drop_of_length_le h]

theorem canReachFrom_iff (start : ℕ) : c.canReachFrom start ↔
    ∀ k ∈ List.range' start (min (c.step + 1) (c.steps?.getD []).length - start), c.canReach k := by
  rw [canReachFrom, List.all_eq_true]
  simp only [List.mem_range'_1]
  refine ⟨fun h k hk => h k (by omega), fun h k hk => ?_⟩
  rcases Nat.lt_or_ge k (c.steps?.getD []).length with hlt | hge
  · exact h k (by omega)
  · exact canReach_of_le hge

section Update

variable [Target β] [Generator γ β]

/-- What an update comes to where it does not break off. -/
theorem eq_of_update? {s t : Scene γ β} {delta : Scalar} (h : s.update? delta = some t) : t = s.update delta :=
  (Option.some.inj (Option.ite_none_right_eq_some.1 h).2).symm

/-- **An update breaks off just if it reaches a path that cannot be drawn.** -/
theorem update?_eq_some_iff (c : Controller γ) (body : β) (delta : Scalar) {t : Scene γ β} :
    let u := Scene.update { controller := c, body } delta
    Scene.update? { controller := c, body } delta = some t ↔ t = u ∧ ∀ k ∈ u.visits, c.canReach k := by
  intro u
  obtain ⟨htrail, -⟩ := Scene.trail_update (s := { controller := c, body }) rfl delta
  have hplayhead : u.controller.playhead = c.playhead.update delta := Scene.playhead_update _ delta
  have hsteps : u.controller.steps? = c.steps? :=
    (congrArg Playhead.steps? hplayhead).trans (Playhead.steps?_update c.playhead delta)
  have hcurve : u.controller.curve = c.curve :=
    (congrArg Playhead.curve hplayhead).trans (Playhead.curve_update c.playhead delta)
  have hreach : u.controller.canReachFrom (c.step + 1) ↔ ∀ k ∈ u.visits, c.canReach k := by
    rw [canReachFrom_iff, hsteps, htrail.visited]
    simp only [canReach_congr hsteps hcurve]
    rfl
  rw [Scene.update?, Option.ite_none_right_eq_some, hreach, Option.some.injEq, and_comm, eq_comm]

end Update

/-- Nothing breaks off without the sequence. -/
theorem bind?_of_none (h : script.sequence? i = none) : c.bind? script i = some c := by
  unfold bind?
  rw [bind_of_none c h]
  exact if_pos (.inl (List.getElem?_eq_none_iff.1 h))

/-- **A binding breaks off just if it reaches a path that cannot be drawn**, among the steps up to the first that takes
time. -/
theorem bind?_eq_some_iff (h : script.sequence? i = some steps) :
    c.bind? script i = some d ↔ d = c.bind script i ∧ ∀ k < (opening steps).length, (c.bind script i).canReach k := by
  have hi : i < script.sequences.length := (List.getElem?_eq_some_iff.1 h).1
  have hreach : (c.bind script i).canReachFrom 0 ↔ ∀ k < (opening steps).length, (c.bind script i).canReach k := by
    rw [canReachFrom_iff, steps?_bind h, (defers_bind c h).2, List.length_take]
    simp only [List.mem_range'_1, Option.getD_some, Nat.zero_le, true_and, Nat.zero_add, Nat.sub_zero]
  rw [bind?, Option.ite_none_right_eq_some, or_iff_right (Nat.not_le.2 hi), hreach, Option.some.injEq, and_comm, eq_comm]

example : ((manual.setCurve { samplesPerPoint := 6148914691236517206 } : Controller Unit).bind?
    ⟨"spline", [[.path 1 3 .spline, .point 0, .point 0, .point 0]]⟩ 0).isNone := by
  decide +kernel

theorem eq_of_bind? (h : c.bind? script i = some d) : d = c.bind script i :=
  (Option.some.inj (Option.ite_none_right_eq_some.1 h).2).symm

theorem eq_of_selectSequence? (h : c.selectSequence? i = some d) : d = c.selectSequence i := by
  unfold selectSequence? at h
  cases hscript : c.script with
  | none =>
    rw [hscript] at h
    rw [selectSequence_of_none c hscript]
    exact (Option.some.inj h).symm
  | some script =>
    rw [hscript] at h
    rw [selectSequence_eq_bind c hscript]
    exact eq_of_bind? h

/-! ## Runs -/

variable [Target β] [Generator γ β]

/-- The controller after an operation, unless the run breaks off. -/
def perform? (c : Controller γ) : Operation γ β → Option (Controller γ)
  | .bind script sequence => c.bind? script sequence
  | .selectSequence sequence => c.selectSequence? sequence
  | .update delta body => (Scene.update? { controller := c, body } delta).map (·.controller)
  | op => some (c.perform op)

theorem eq_of_perform? {op : Operation γ β} (h : c.perform? op = some d) : d = c.perform op := by
  cases op with
  | bind script i => exact eq_of_bind? h
  | selectSequence i => exact eq_of_selectSequence? h
  | update delta body =>
    obtain ⟨t, ht, rfl⟩ := Option.map_eq_some_iff.1 h
    rw [eq_of_update? ht]
    rfl
  | _ => exact (Option.some.inj h).symm

/-- **A run that does not break off** is the run of its operations. -/
theorem eq_of_operate? {ops : List (Operation γ β)} (h : ops.foldlM perform? c = some d) : d = ops.foldl perform c := by
  induction ops generalizing c with
  | nil => exact (Option.some.inj h).symm
  | cons op ops ih =>
    rw [List.foldlM_cons] at h
    obtain ⟨next, hnext, hrest⟩ := Option.bind_eq_some_iff.1 h
    rw [List.foldl_cons, ← eq_of_perform? hnext]
    exact ih hrest

end Controller

/-! ## Runs that never break off -/

/-- An operation brings no longer sequence than of `n` steps, and draws no more than `m` samples for a control point. -/
def Operation.Within (n m : ℕ) : Operation γ β → Prop
  | .setCurve curve => curve.samplesPerPoint.toNat ≤ m
  | .bind script _ => ∀ steps ∈ script.sequences, steps.length ≤ n
  | _ => True

namespace Controller

variable {c d : Controller γ} {n m : ℕ}

/-- The sequences have no more than `n` steps, and no more than `m` samples are drawn for a control point. -/
structure Within (n m : ℕ) (c : Controller γ) : Prop where
  script : ∀ script ∈ c.script, ∀ steps ∈ script.sequences, steps.length ≤ n
  curve : c.curve.samplesPerPoint.toNat ≤ m

theorem Within.congr (h : c.Within n m) (hscript : d.script = c.script) (hcurve : d.curve = c.curve) :
    d.Within n m := by
  refine ⟨?_, ?_⟩
  · rw [hscript]
    exact h.script
  · rw [hcurve]
    exact h.curve

theorem Within.bind (h : c.Within n m) {script : ScriptSet} (hscript : ∀ steps ∈ script.sequences, steps.length ≤ n)
    (i : ℕ) : (c.bind script i).Within n m := by
  cases hs : script.sequence? i with
  | none => rwa [bind_of_none c hs]
  | some steps =>
    refine ⟨fun script' hscript' => ?_, ?_⟩
    · rw [script_bind hs, Option.mem_some_iff] at hscript'
      exact hscript' ▸ hscript
    · rw [curve_bind hs]
      exact h.curve

/-- A path has no more points than there are steps behind it. -/
theorem length_controlPoints_le (count : ℕ) (rest : List Step) : (Step.controlPoints count rest).length ≤ rest.length := by
  induction rest generalizing count with
  | nil => cases count <;> exact le_rfl
  | cons step rest ih =>
    cases count with
    | zero => exact Nat.zero_le _
    | succ count =>
      cases step with
      | point p => exact Nat.succ_le_succ (ih count)
      | _ => exact Nat.zero_le _

/-- **No step is too much** if there is room for the samples of a path as long as the sequences. -/
theorem Within.canReach (h : c.Within n m) (hroom : Spline.sampleCount n (n * m) < 2 ^ 60) (k : ℕ) : c.canReach k := by
  have hsteps : (c.steps?.getD []).length ≤ n := by
    cases hs : c.steps? with
    | none => exact Nat.zero_le _
    | some steps =>
      obtain ⟨script, hscript, hi⟩ := Option.bind_eq_some_iff.1 hs
      exact h.script script hscript steps (List.mem_of_getElem? hi)
  unfold Controller.canReach
  split
  · next duration count interpolation rest hdrop =>
    have hrest := congrArg List.length hdrop
    rw [List.length_drop, List.length_cons] at hrest
    have hpoints : (Step.controlPoints count rest).length ≤ n := (length_controlPoints_le count rest).trans (by omega)
    cases interpolation with
    | linear => rfl
    | spline =>
      have hasked := Nat.mul_le_mul hpoints h.curve
      refine PathTable.drawable_spline_iff.2 (PathTable.hasRoom_iff.2 (.inr (lt_of_le_of_lt ?_ hroom)))
      exact max_le_max_right 2 (max_le_max hasked hpoints)
  · rfl

theorem Within.canReachFrom (h : c.Within n m) (hroom : Spline.sampleCount n (n * m) < 2 ^ 60) (start : ℕ) :
    c.canReachFrom start :=
  List.all_eq_true.2 fun k _ => h.canReach hroom k

variable [Target β] [Generator γ β]

/-- **Every operation** that keeps within the bounds leaves a controller within them. -/
theorem Within.perform (h : c.Within n m) (op : Operation γ β) (hop : op.Within n m) : (c.perform op).Within n m := by
  cases op with
  | setCurve curve => exact ⟨h.script, hop⟩
  | bind script i => exact h.bind hop i
  | selectSequence i =>
    show (c.selectSequence i).Within n m
    cases hscript : c.script with
    | none => rwa [selectSequence_of_none c hscript]
    | some script =>
      rw [selectSequence_eq_bind c hscript]
      exact h.bind (h.script script hscript) i
  | update delta body =>
    have hplayhead : (c.perform (.update delta body)).playhead = c.playhead.update delta := Scene.playhead_update _ delta
    refine h.congr ?_ ?_
    · exact (congrArg Playhead.script hplayhead).trans (Playhead.sequence_update _ delta).1
    · exact (congrArg Playhead.curve hplayhead).trans (Playhead.curve_update _ delta)
  | _ => exact h.congr rfl rfl

theorem Within.bind?_eq (h : c.Within n m) (hroom : Spline.sampleCount n (n * m) < 2 ^ 60) {script : ScriptSet}
    (hscript : ∀ steps ∈ script.sequences, steps.length ≤ n) (i : ℕ) : c.bind? script i = some (c.bind script i) :=
  if_pos (.inr ((h.bind hscript i).canReachFrom hroom 0))

theorem Within.perform?_eq (h : c.Within n m) (hroom : Spline.sampleCount n (n * m) < 2 ^ 60) {op : Operation γ β}
    (hop : op.Within n m) : c.perform? op = some (c.perform op) := by
  cases op with
  | bind script i => exact h.bind?_eq hroom hop i
  | selectSequence i =>
    show c.selectSequence? i = some (c.selectSequence i)
    unfold selectSequence?
    cases hscript : c.script with
    | none => rw [selectSequence_of_none c hscript]
    | some script =>
      rw [selectSequence_eq_bind c hscript]
      exact h.bind?_eq hroom (h.script script hscript) i
  | update delta body =>
    have hafter : (Scene.update { controller := c, body } delta).controller.Within n m :=
      h.perform (.update delta body) hop
    show (Scene.update? { controller := c, body } delta).map (·.controller) = _
    rw [Scene.update?, if_pos (hafter.canReachFrom hroom _)]
    rfl
  | _ => rfl

/-- **A run within bounds never breaks off**, if there is room for the samples of a path as long as the sequences. -/
theorem operate?_of_within (h : c.Within n m) (hroom : Spline.sampleCount n (n * m) < 2 ^ 60)
    {ops : List (Operation γ β)} (hops : ∀ op ∈ ops, op.Within n m) :
    ops.foldlM perform? c = some (ops.foldl perform c) := by
  induction ops generalizing c with
  | nil => rfl
  | cons op ops ih =>
    obtain ⟨hop, hrest⟩ := List.forall_mem_cons.1 hops
    rw [List.foldlM_cons, h.perform?_eq hroom hop, List.foldl_cons]
    exact ih (h.perform op hop) hrest

end Controller

end MotionScript
