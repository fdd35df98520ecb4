import MotionScript.Generator.Stock
import MotionScript.Proofs.Playback.Frozen
import MotionScript.Proofs.Playback.Passage

/-!
# When the generator runs

A step sets the generator going, and every update calls it from then on, until it is taken away or a sequence is
started anew. Whoever replaces the generator or takes over in between changes nothing about that.

* `Answers`: calls that have the parameters of the last step before them that has set the generator going.
* `Controller.Heeds`, `Scene.Obeys`: a generator that runs is there, and heeds the last of some steps.
* `Scene.obeys_reach`, `Scene.kept_obeys`: reaching a step keeps it so, and so does every stage of an update.
* `Controller.heeds_perform`, `Controller.heeds_history`: so does every operation of an owner.
* `Flags`: the flags of the generator, as steps, updates, bindings and the owner write them.
* `Controller.generator_heeds_steps`: all of it, after any operations of an owner.
-/

namespace MotionScript

variable {γ β : Type}

/-! ## Calls and the steps before them -/

/-- **Every call answers a step**: it has the parameters of the last step before it that sets the generator going,
be it one of `l` or one that an earlier entry reports. -/
def Answers (l : List Step) (events : List (Event β)) : Prop :=
  ∀ before call body later, events = before ++ .called call body :: later →
    lastSpawn (l ++ before.filterMap Event.step?) = some ⟨call.speed, call.direction⟩

section Answers

variable {l : List Step} {events new : List (Event β)}

theorem answers_append (h : Answers l events) (hnew : Answers (l ++ events.filterMap Event.step?) new) :
    Answers l (events ++ new) := by
  intro before call body later hsplit
  rcases List.append_eq_append_iff.1 hsplit with ⟨m, rfl, hm⟩ | ⟨m, hm, hrest⟩
  · -- the call is a new one
    rw [List.filterMap_append, ← List.append_assoc]
    exact hnew m call body later hm
  · cases m with
    | nil =>
      have hfirst := hnew [] call body later hrest.symm
      rw [hm, List.append_nil] at hfirst
      simpa using hfirst
    | cons e m =>
      obtain ⟨rfl, -⟩ := List.cons.inj hrest
      exact h before call body m hm

theorem answers_of_mute (h : ∀ e ∈ events, e.call? = none) : Answers l events := by
  intro before call body later hsplit
  have hcall := h (.called call body) (by simp [hsplit])
  cases hcall

/-- A call with the right parameters. -/
theorem answers_call {call : Call} (body : β) (h : lastSpawn l = some ⟨call.speed, call.direction⟩) :
    Answers l [Event.called call body] := by
  intro before call' body' later hsplit
  have hnil : before = [] := by
    cases before with
    | nil => rfl
    | cons e before => simp at hsplit
  subst hnil
  obtain ⟨hcall, -⟩ := List.cons.inj hsplit
  cases hcall
  simpa using h

end Answers

/-! ## Generators that run -/

/-- **A generator that runs is there**, and its parameters are those of the last of some steps that has set it
going. So one of them has. -/
def Controller.Heeds (c : Controller γ) (l : List Step) : Prop :=
  c.generatorActive → c.generator.isSome ∧ lastSpawn l = some c.spawn

namespace Scene

/-- The generator has heeded the steps of `l` and those that have been reached since, and calls have come of
nothing else. -/
structure Obeys (l : List Step) (s : Scene γ β) : Prop where
  heeds : s.controller.Heeds (l ++ s.reached)
  answers : Answers l s.events

variable {l : List Step} {s t : Scene γ β}

/-- What reaches no step and calls nobody. -/
theorem Obeys.mute (h : s.Obeys l) (hlogs : Logs (fun e => e.step? = none ∧ e.call? = none) s t)
    (hheeds : ∀ l', s.controller.Heeds l' → t.controller.Heeds l') : t.Obeys l := by
  have hreached : t.reached = s.reached := filterMap_of_logs (hlogs.mono fun _ he => he.1)
  obtain ⟨new, hnew, hmute⟩ := hlogs
  have hevents := events_of_append hnew
  refine ⟨?_, ?_⟩
  · rw [hreached]
    exact hheeds _ h.heeds
  · rw [hevents]
    exact answers_append h.answers (answers_of_mute fun e he => (hmute e (List.mem_reverse.1 he)).2)

theorem obeys_drift [Target β] (h : s.Obeys l) (dt : Scalar) : (s.drift dt).Obeys l := by
  obtain ⟨v, hc⟩ := controller_drift s dt
  refine h.mute ((motions_drift s dt).mono fun e he => ⟨he.silent.1, he.silent.2.2⟩) fun l' hl => ?_
  rw [hc]
  exact hl

theorem obeys_follow [Target β] (h : s.Obeys l) (time : Scalar) : (s.follow time).Obeys l := by
  refine h.mute ⟨[_], journal_follow s time, List.forall_mem_singleton.2 ⟨rfl, rfl⟩⟩ fun l' hl => ?_
  rw [controller_follow]
  exact hl

theorem obeys_leave (h : s.Obeys l) : s.leave.Obeys l :=
  h.mute (logs_note ⟨rfl, rfl⟩) fun _ => id

theorem obeys_switch [Target β] (h : s.Obeys l) (n : ℕ) : (s.switch n).Obeys l :=
  h.mute ⟨[.switched n], rfl, List.forall_mem_singleton.2 ⟨rfl, rfl⟩⟩ fun _ => id

/-- **A call**, when the parameters are those of the last step that has set the generator going. -/
theorem obeys_callGenerator [Generator γ β] (h : s.Obeys l)
    (hspawn : lastSpawn (l ++ s.reached) = some s.controller.spawn) (delta : Scalar) :
    (s.callGenerator delta).Obeys l := by
  cases hg : s.controller.generator with
  | none => rwa [callGenerator_of_none hg]
  | some g =>
    -- the commands that are sent come behind the call
    let q : Scene γ β := s.note (.called ⟨delta, s.controller.spawn.speed, s.controller.spawn.direction⟩ s.body)
    have hq : q.Obeys l := by
      have hreached : q.reached = s.reached := (filterMap_note s _ _).trans (List.append_nil _)
      have hevents : q.events = s.events ++ [_] := events_of_append (l := [_]) rfl
      refine ⟨?_, ?_⟩
      · rw [hreached]
        exact h.heeds
      · rw [hevents]
        exact answers_append h.answers (answers_call s.body hspawn)
    refine hq.mute ?_ fun l' hl hactive => ?_
    · unfold callGenerator
      rw [hg]
      refine ⟨_, rfl, fun e he => ?_⟩
      obtain ⟨command, -, rfl⟩ := List.mem_map.1 (List.mem_reverse.1 he)
      exact ⟨rfl, rfl⟩
    · obtain ⟨g', hc, hsome⟩ := controller_callGenerator s delta
      rw [hc] at hactive ⊢
      obtain ⟨hattached, hlast⟩ := hl hactive
      exact ⟨hsome.trans hattached, hlast⟩

/-- Setting the generator going and calling it. -/
theorem obeys_start [Generator γ β] (hanswers : Answers l s.events)
    (hheeds : s.controller.generator.isSome ∧ lastSpawn (l ++ s.reached) = some s.controller.spawn) :
    ((s.control fun c => { c with activation := .active }).callGenerator 0).Obeys l :=
  obeys_callGenerator (s := s.control fun c => { c with activation := .active }) ⟨fun _ => hheeds, hanswers⟩
    hheeds.2 0

/-! ## Stages of an update -/

section Playback

variable [Target β] [Generator γ β]

/-- **Reaching a step.** One that sets the generator going gives it the parameters before it is called. -/
theorem obeys_reach (h : s.Obeys l) (rest : List Step) (step : Step) : (s.reach rest step).Obeys l := by
  let q : Scene γ β := (s.note (.reached s.controller.step step)).control (·.enter rest step)
  have hreached : q.reached = s.reached ++ [step] := filterMap_note s _ _
  have hevents : q.events = s.events ++ [_] := events_of_append (l := [_]) rfl
  have hgenerator : q.controller.generator = s.controller.generator :=
    Controller.generator_enter rest s.controller step
  have hspawn : q.controller.spawn = step.spawn?.getD s.controller.spawn :=
    Controller.spawn_enter rest s.controller step
  have hactivation : q.controller.activation = s.controller.activation :=
    Controller.activation_enter rest s.controller step
  have hq : q.Obeys l := by
    refine ⟨fun hactive => ?_, ?_⟩
    · rw [Controller.generatorActive, hactivation] at hactive
      obtain ⟨hattached, hlast⟩ := h.heeds hactive
      rw [hgenerator, hreached, ← List.append_assoc, lastSpawn_append, lastSpawn_singleton, hlast, hspawn]
      refine ⟨hattached, ?_⟩
      cases step.spawn? <;> rfl
    · rw [hevents]
      exact answers_append h.answers (answers_of_mute (List.forall_mem_singleton.2 rfl))
  have hreach : s.reach rest step = q.deliver step := rfl
  rw [hreach]
  rcases deliver_cases q step with ⟨n, -, -, hd⟩ | ⟨p, -, hp, hg, hd⟩ | ⟨-, -, hd⟩
  · rw [hd]
    exact obeys_switch hq n
  · -- the step is the last one that has been reached
    have hlast : lastSpawn (l ++ q.reached) = some q.controller.spawn := by
      rw [hreached, ← List.append_assoc, lastSpawn_append, lastSpawn_singleton, hspawn, hp]
      rfl
    rw [hd]
    exact obeys_start hq.answers ⟨hg, hlast⟩
  · rw [hd]
    exact hq

/-- Handing over what a binding has put off. A call is among it only if the generator runs. -/
theorem obeys_flush (h : s.Obeys l) : s.flush.Obeys l := by
  obtain ⟨t, ht, hflush⟩ := flush_cases s
  obtain ⟨hobeys, hactivation⟩ : t.Obeys l ∧ t.controller.activation = s.controller.activation := by
    rcases ht with ⟨-, rfl⟩ | ⟨n, -, rfl⟩
    · exact ⟨h, rfl⟩
    · have hs : (s.control fun c => { c with pendingAnimation := none }).Obeys l := ⟨h.heeds, h.answers⟩
      exact ⟨obeys_switch hs n, rfl⟩
  rcases hflush with ⟨-, hflush⟩ | ⟨hpending, hflush⟩
  · rwa [hflush]
  · have hactive : t.controller.generatorActive := by
      rw [Controller.generatorActive, hactivation, hpending]
      rfl
    rw [hflush]
    exact obeys_start hobeys.answers (hobeys.heeds hactive)

omit [Target β] in
theorem obeys_tick (h : s.Obeys l) (delta : Scalar) : (s.tick delta).Obeys l := by
  unfold tick
  split
  · next hd => exact obeys_callGenerator h (h.heeds hd.1).2 delta
  · exact h

/-- **Every stage of an update** keeps it so that the generator obeys. -/
theorem kept_obeys (l : List Step) : Kept fun s : Scene γ β => s.Obeys l where
  flush _ h := obeys_flush h
  tick _ delta h := obeys_tick h delta
  drift _ dt h := obeys_drift h dt
  follow _ time h := obeys_follow h time
  clock _ _ h := ⟨h.heeds, h.answers⟩
  reach _ rest step h := obeys_reach h rest step
  next _ h := ⟨h.heeds, h.answers⟩
  leave _ h := obeys_leave h

end Playback

end Scene

/-! ## Operations -/

namespace Controller

variable {c : Controller γ} {op : Operation γ β} {l : List Step}

/-- The steps of the sequence up to the current one: the binding and the updates since have reached them. -/
def executed (c : Controller γ) : List Step := (c.steps?.getD []).take (c.step + 1)

/-- The operation silences the generator: it starts a sequence anew, or takes the generator away. -/
def Silences (c : Controller γ) (op : Operation γ β) : Prop :=
  (c.binding? op).isSome ∨ op = .setGenerator none

theorem heeds_of_dormant (h : c.activation = .dormant) (l : List Step) : c.Heeds l := by
  intro hactive
  rw [generatorActive, h] at hactive
  cases hactive

theorem Heeds.scene (h : c.Heeds l) (body : β) : Scene.Obeys l { controller := c, body } := by
  refine ⟨?_, answers_of_mute (List.forall_mem_nil _)⟩
  rw [Scene.reached, Scene.events, List.reverse_nil, List.filterMap_nil, List.append_nil]
  exact h

/-- After a binding the generator runs only if one of the steps that it has reached has set it going. -/
theorem heeds_bind (c : Controller γ) {script : ScriptSet} {i : ℕ} {steps : Sequence}
    (h : script.sequence? i = some steps) (l : List Step) : (c.bind script i).Heeds (l ++ opening steps) := by
  obtain ⟨hdefers, -⟩ := defers_bind c h
  intro hactive
  rw [generatorActive, hdefers.activation] at hactive
  split at hactive
  · next hset =>
    obtain ⟨hattached, hspawn⟩ := Bool.and_eq_true_iff.1 hset
    obtain ⟨p, hp⟩ := Option.isSome_iff_exists.1 hspawn
    refine ⟨by rw [hdefers.generator]; exact hattached, ?_⟩
    rw [lastSpawn_append, hdefers.spawn, hp]
    rfl
  · cases hactive

theorem executed_bind (c : Controller γ) {script : ScriptSet} {i : ℕ} {steps : Sequence}
    (h : script.sequence? i = some steps) : (c.bind script i).executed = opening steps := by
  have hsteps : (c.bind script i).playhead.steps? = some steps := by
    rw [playhead_bind c h]
    exact Playhead.steps?_scan_start c.curve h
  have hsteps' : (c.bind script i).steps? = some steps := hsteps
  rw [executed, hsteps', (defers_bind c h).2]
  rfl

variable [Target β] [Generator γ β]

/-- An operation that starts a sequence anew. -/
theorem exists_bind (h : (c.binding? op).isSome) : ∃ script i steps, script.sequence? i = some steps ∧
    c.perform op = c.bind script i ∧ c.reachedBy op = opening steps := by
  rcases perform_cases c op with
    ⟨script, i, steps, -, hs, hperform, hreached⟩ | ⟨delta, body, rfl⟩ | ⟨hnone, -⟩
  · exact ⟨script, i, steps, hs, hperform, hreached⟩
  · cases h
  · rw [hnone] at h
    cases h

/-- An operation that neither starts a sequence anew nor lets time pass leaves the steps where they are. Of the
generator it changes something only if it attaches another or takes it away. -/
theorem perform_aside (hb : c.binding? op = none) (hu : ∀ delta body, op ≠ .update delta body) :
    c.reachedBy op = [] ∧ (c.perform op).spawn = c.spawn ∧ (c.perform op).executed = c.executed ∧
      ((∃ g, op = .setGenerator g) ∨
        (c.perform op).generator = c.generator ∧ (c.perform op).activation = c.activation) := by
  obtain ⟨hreached, hspawn⟩ : c.reachedBy op = [] ∧ (c.perform op).spawn = c.spawn := by
    rcases perform_cases c op with
      ⟨script, i, steps, hsome, -⟩ | ⟨delta, body, rfl⟩ | ⟨-, hreached, hspawn, -⟩
    · rw [hb] at hsome
      cases hsome
    · exact absurd rfl (hu delta body)
    · exact ⟨hreached, hspawn⟩
  refine ⟨hreached, hspawn, ?_⟩
  -- a sequence that is not there starts nothing
  have hnone {script : ScriptSet} {i : ℕ}
      (h : (if i < script.sequences.length then some (script, i) else none) = none) : c.bind script i = c := by
    refine bind_of_none c (List.getElem?_eq_none (Nat.not_lt.1 fun hi => ?_))
    rw [if_pos hi] at h
    cases h
  cases op with
  | bind script i =>
    rw [perform, hnone hb]
    exact ⟨rfl, .inr ⟨rfl, rfl⟩⟩
  | selectSequence i =>
    have hsame : c.selectSequence i = c := by
      cases hscript : c.script with
      | none => exact selectSequence_of_none c hscript i
      | some script =>
        rw [binding?, hscript] at hb
        rw [selectSequence_eq_bind c hscript, hnone hb]
    rw [perform, hsame]
    exact ⟨rfl, .inr ⟨rfl, rfl⟩⟩
  | update delta body => exact absurd rfl (hu delta body)
  | setGenerator g => exact ⟨rfl, .inl ⟨g, rfl⟩⟩
  | setCurve curve => exact ⟨rfl, .inr ⟨rfl, rfl⟩⟩
  | setFaceHeading faceHeading => exact ⟨rfl, .inr ⟨rfl, rfl⟩⟩
  | manualMove direction speed => exact ⟨rfl, .inr ⟨rfl, rfl⟩⟩
  | manualAccelerate direction amount => exact ⟨rfl, .inr ⟨rfl, rfl⟩⟩
  | manualTime duration => exact ⟨rfl, .inr ⟨rfl, rfl⟩⟩

/-- **Operations** keep it so that a generator that runs heeds the last step that has set it going. -/
theorem heeds_perform (h : c.Heeds l) (op : Operation γ β) : (c.perform op).Heeds (l ++ c.reachedBy op) := by
  by_cases hb : (c.binding? op).isSome
  · obtain ⟨script, i, steps, hs, hperform, hreached⟩ := exists_bind hb
    rw [hperform, hreached]
    exact heeds_bind c hs l
  · by_cases hu : ∃ delta body, op = .update delta body
    · obtain ⟨delta, body, rfl⟩ := hu
      exact ((Scene.kept_obeys l).update delta (h.scene body)).heeds
    · push Not at hu
      rw [Option.not_isSome_iff_eq_none] at hb
      obtain ⟨hreached, hspawn, -, ⟨g, rfl⟩ | ⟨hgenerator, hactivation⟩⟩ := perform_aside hb hu
      · rw [hreached, List.append_nil]
        cases g with
        | none => exact heeds_of_dormant rfl l
        | some g => exact fun hactive => ⟨rfl, (h hactive).2⟩
      · rw [hreached, List.append_nil, Heeds, generatorActive, hactivation, hgenerator, hspawn]
        exact h

/-- What silences the generator leaves no step to be heeded but its own. -/
theorem heeds_silenced (h : c.Silences op) : (c.perform op).Heeds (c.reachedBy op) := by
  rcases h with hb | rfl
  · obtain ⟨script, i, steps, hs, hperform, hreached⟩ := exists_bind hb
    rw [hperform, hreached]
    exact heeds_bind c hs []
  · exact heeds_of_dormant rfl _

theorem heeds_history (ops : List (Operation γ β)) (h : c.Heeds l) :
    (ops.foldl perform c).Heeds (l ++ c.history ops) := by
  induction ops generalizing c l with
  | nil => simpa [history] using h
  | cons op ops ih =>
    have hrest := ih (heeds_perform h op)
    rwa [List.append_assoc] at hrest

/-- **The steps that have been executed**: a binding starts with its own, and updates add to them. -/
theorem executed_perform (c : Controller γ) (op : Operation γ β) : (c.perform op).executed =
    if (c.binding? op).isSome then c.reachedBy op else c.executed ++ c.reachedBy op := by
  by_cases hb : (c.binding? op).isSome
  · obtain ⟨script, i, steps, hs, hperform, hreached⟩ := exists_bind hb
    rw [if_pos hb, hperform, hreached]
    exact executed_bind c hs
  · rw [if_neg hb]
    by_cases hu : ∃ delta body, op = .update delta body
    · obtain ⟨delta, body, rfl⟩ := hu
      obtain ⟨hle, hreached⟩ := reachedBy_update c delta body
      have hplayhead := Scene.playhead_update ({ controller := c, body } : Scene γ β) delta
      have hsteps : (c.perform (.update delta body)).steps? = c.steps? :=
        (congrArg Playhead.steps? hplayhead).trans (Playhead.steps?_update c.playhead delta)
      have htake : (c.steps?.getD []).take (c.step + 1) =
          ((c.steps?.getD []).take ((c.perform (.update delta body)).step + 1)).take (c.step + 1) := by
        rw [List.take_take, Nat.min_eq_left (by omega)]
      rw [hreached, executed, executed, hsteps, stretch, htake, List.take_append_drop]
    · push Not at hu
      rw [Option.not_isSome_iff_eq_none] at hb
      obtain ⟨hreached, -, hexecuted, -⟩ := perform_aside hb hu
      rw [hreached, hexecuted, List.append_nil]

/-- A generator that runs heeds the steps of the sequence that is being played. -/
theorem heeds_executed (ops : List (Operation γ β)) (h : c.Heeds c.executed) :
    (ops.foldl perform c).Heeds (ops.foldl perform c).executed := by
  induction ops generalizing c with
  | nil => exact h
  | cons op ops ih =>
    refine ih ?_
    rw [executed_perform]
    split
    · next hb => exact heeds_silenced (.inl hb)
    · exact heeds_perform h op

end Controller

/-! ## The flags -/

/-- The flags of the generator, each of them written on its own. -/
structure Flags where
  /-- The generator runs. -/
  active : Bool := false
  /-- Its first call waits for an entity. -/
  pending : Bool := false

namespace Flags

/-- A step that sets the generator going, if there is one, writes that it runs. Without an entity at hand the call
is put off. -/
def reach (attached atHand : Bool) (f : Flags) (step : Step) : Flags :=
  if attached ∧ step.spawn?.isSome then { active := true, pending := f.pending || !atHand } else f

/-- Steps that are reached one after the other. -/
theorem foldl_reach (attached atHand : Bool) (f : Flags) (steps : List Step) :
    steps.foldl (reach attached atHand) f =
      if attached && (lastSpawn steps).isSome then { active := true, pending := f.pending || !atHand } else f := by
  induction steps generalizing f with
  | nil => simp [lastSpawn]
  | cons step steps ih =>
    have hlast : lastSpawn (step :: steps) = (lastSpawn steps).or step.spawn? := by
      rw [← lastSpawn_singleton, ← lastSpawn_append]
      rfl
    rw [List.foldl_cons, ih, hlast, reach]
    cases attached <;> cases step.spawn? <;> cases lastSpawn steps <;> simp

variable [Target β] [Generator γ β]

/-- What an operation writes. Taking the generator away clears both flags, and so does a binding before its first
step. An update hands over what waits, and reaches its steps with an entity at hand. -/
def write (c : Controller γ) (f : Flags) : Operation γ β → Flags
  | .setGenerator none => {}
  | .update delta body =>
    (c.reachedBy (.update delta body)).foldl (reach c.generator.isSome true) { f with pending := false }
  | op => if (c.binding? op).isSome then (c.reachedBy op).foldl (reach c.generator.isSome false) {} else f

theorem write_of_ne {c : Controller γ} {op : Operation γ β} (f : Flags)
    (hu : ∀ delta body, op ≠ .update delta body) (hg : op ≠ .setGenerator none) : f.write c op =
      if (c.binding? op).isSome then (c.reachedBy op).foldl (reach c.generator.isSome false) {} else f := by
  cases op with
  | update delta body => exact absurd rfl (hu delta body)
  | setGenerator g =>
    cases g with
    | none => exact absurd rfl hg
    | some g => rfl
  | _ => rfl

/-- What operations write, one after the other. -/
def writeAll (c : Controller γ) (f : Flags) : List (Operation γ β) → Flags
  | [] => f
  | op :: ops => writeAll (c.perform op) (f.write c op) ops

end Flags

namespace Controller

/-- The flags that a controller comes down to. -/
def flags (c : Controller γ) : Flags := ⟨c.generatorActive, c.activation == .pending⟩

variable [Target β] [Generator γ β]

theorem flags_bind (c : Controller γ) {script : ScriptSet} {i : ℕ} {steps : Sequence}
    (h : script.sequence? i = some steps) :
    (c.bind script i).flags = (opening steps).foldl (Flags.reach c.generator.isSome false) {} := by
  obtain ⟨hdefers, -⟩ := defers_bind c h
  rw [Flags.foldl_reach, flags, generatorActive, hdefers.activation, reset]
  dsimp only
  split <;> rfl

theorem flags_update (c : Controller γ) (delta : Scalar) (body : β) :
    (c.perform (.update delta body)).flags = c.flags.write c (.update delta body) := by
  have hreaches := (Scene.reaches_update ({ controller := c, body } : Scene γ β) delta).2
  obtain ⟨hattached, -, hrun⟩ := Scene.controller_flush_tick ({ controller := c, body } : Scene γ β) delta
  have hactive : (c.perform (.update delta body)).generatorActive =
      (c.generatorActive || c.generator.isSome && (lastSpawn (c.reachedBy (.update delta body))).isSome) := by
    rw [(reachedBy_update c delta body).2]
    refine hreaches.active.trans ?_
    rw [hattached, hrun]
    rfl
  have hpending : ((c.perform (.update delta body)).activation == .pending) = false :=
    beq_eq_false_iff_ne.2 (Scene.handed_update ({ controller := c, body } : Scene γ β) delta).2
  rw [Flags.write, Flags.foldl_reach, flags, hactive, hpending, flags]
  cases c.generator.isSome <;> cases (lastSpawn (c.reachedBy (.update delta body))).isSome <;> simp

/-- **The state of a controller comes down to the flags that are written.** -/
theorem flags_perform (c : Controller γ) (op : Operation γ β) : (c.perform op).flags = c.flags.write c op := by
  by_cases hu : ∃ delta body, op = .update delta body
  · obtain ⟨delta, body, rfl⟩ := hu
    exact flags_update c delta body
  by_cases hg : op = .setGenerator none
  · subst hg
    rfl
  push Not at hu
  rw [Flags.write_of_ne c.flags hu hg]
  by_cases hb : (c.binding? op).isSome
  · obtain ⟨script, i, steps, hs, hperform, hreached⟩ := exists_bind hb
    rw [if_pos hb, hperform, hreached]
    exact flags_bind c hs
  · rw [if_neg hb]
    rw [Option.not_isSome_iff_eq_none] at hb
    obtain ⟨-, -, -, ⟨g, rfl⟩ | ⟨-, hactivation⟩⟩ := perform_aside hb hu
    · cases g with
      | none => exact absurd rfl hg
      | some g => rfl
    · rw [flags, generatorActive, hactivation]
      rfl

theorem flags_operations (ops : List (Operation γ β)) (c : Controller γ) :
    (ops.foldl perform c).flags = c.flags.writeAll c ops := by
  induction ops generalizing c with
  | nil => rfl
  | cons op ops ih => rw [List.foldl_cons, ih, flags_perform, Flags.writeAll]

/-! ## Any operations -/

/-- The steps that operations have reached: all of them, or those since one that has silenced the generator, its own
among them. -/
def StepsSince (γ : Type) [Generator γ β] (ops : List (Operation γ β)) (l : List Step) : Prop :=
  l = history (manual : Controller γ) ops ∨
    ∃ before op later, ops = before ++ op :: later ∧ (after before : Controller γ).Silences op ∧
      l = (after before : Controller γ).history (op :: later)

theorem heeds_since {ops : List (Operation γ β)} (h : StepsSince γ ops l) : (after ops : Controller γ).Heeds l := by
  rcases h with rfl | ⟨before, op, later, rfl, hsilences, rfl⟩
  · exact heeds_history ops (heeds_of_dormant rfl [])
  · rw [after, List.foldl_append, List.foldl_cons]
    exact heeds_history later (heeds_silenced hsilences)

/-- **When the generator runs.** After any operations of an owner the two flags are those that steps, updates,
bindings and the owner have written, and a generator whose first call waits runs. A generator that runs is there, and
a step of the current sequence has set it going since the sequence was started anew or the generator was taken away;
its parameters are those of the last such step. So no update calls a generator before such a step has been reached,
and every call has the parameters of the last of them. -/
theorem generator_heeds_steps (ops : List (Operation γ β)) :
    let c : Controller γ := after ops
    let f : Flags := Flags.writeAll (manual : Controller γ) {} ops
    f.active = c.generatorActive ∧ f.pending = (c.activation == .pending) ∧ (f.pending → f.active) ∧
    (c.generatorActive → c.generator.isSome ∧
      ∃ steps, c.steps? = some steps ∧ lastSpawn (steps.take (c.step + 1)) = some c.spawn) ∧
    ∀ l, StepsSince γ ops l → (c.generatorActive → lastSpawn l = some c.spawn) ∧
      ∀ delta (body : β), Answers l (Scene.update { controller := c, body } delta).events := by
  intro c f
  have hflags : c.flags = f := flags_operations ops manual
  rw [← hflags]
  refine ⟨rfl, rfl, fun hpending => ?_, fun hactive => ?_, fun l hl => ?_⟩
  · have hpending' : c.activation = .pending := beq_iff_eq.1 hpending
    rw [flags, generatorActive, hpending']
    rfl
  · have hheeds : c.Heeds c.executed := heeds_executed ops (heeds_of_dormant rfl _)
    obtain ⟨hattached, hlast⟩ := hheeds hactive
    refine ⟨hattached, ?_⟩
    rw [executed] at hlast
    cases hsteps : c.steps? with
    | none =>
      rw [hsteps] at hlast
      cases hlast
    | some steps =>
      rw [hsteps] at hlast
      exact ⟨steps, rfl, hlast⟩
  · have hheeds := heeds_since hl
    refine ⟨fun hactive => (hheeds hactive).2, fun delta body => ?_⟩
    exact ((Scene.kept_obeys l).update delta (hheeds.scene body)).answers

/-- The generator is replaced and the owner takes over, and the first call still waits. It answers the step. -/
theorem generator_heeds_steps_replaced :
    let shot : ScriptSet := ⟨"shot", [[.generate 1 2, .wait 1]]⟩
    let ops : List (Operation Stock Body) :=
      [.setGenerator (some (.singleShot none)), .bind shot 0, .setGenerator (some (.singleShot (some 1))),
        .manualMove 0 1]
    let c : Controller Stock := after ops
    let s : Scene Stock Body := Scene.update { controller := c, body := {} } 0.5
    c.mode = .manual ∧ c.activation = .pending ∧ s.calls = [⟨0, 1, 2⟩, ⟨0.5, 1, 2⟩] ∧
      lastSpawn [.generate 1 2, .wait 1] = some c.spawn ∧ Answers [.generate 1 2, .wait 1] s.events := by
  intro shot ops c s
  have hmode : c.mode = .manual ∧ c.activation = .pending := by decide +kernel
  have hcalls : s.calls = [⟨0, 1, 2⟩, ⟨0.5, 1, 2⟩] := by decide +kernel
  have hactive : c.generatorActive := by decide +kernel
  have hsince : StepsSince Stock ops [.generate 1 2, .wait 1] :=
    .inr ⟨[.setGenerator (some (.singleShot none))], .bind shot 0, _, rfl, .inl rfl, by decide +kernel⟩
  obtain ⟨-, -, -, -, hanswers⟩ := generator_heeds_steps ops
  obtain ⟨hlast, hevents⟩ := hanswers _ hsince
  exact ⟨hmode.1, hmode.2, hcalls, hlast hactive, hevents 0.5 {}⟩

end Controller

end MotionScript
