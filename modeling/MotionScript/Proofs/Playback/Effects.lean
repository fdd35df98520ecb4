import MotionScript.Proofs.Playback.Following
import MotionScript.Proofs.Playback.Frozen
import MotionScript.Proofs.Playback.Strides

/-!
# What playback has an effect on

Updates write to a controller and to its entity in many places. What they leave alone, and what accounts for the rest,
is told act by act and carried along by the journal.

* `Onlooker`: generators that write to no entity.
* `AnimatedTarget`, `Display.switchTo`: entities that show the animation to which they are switched.
* `Drive.hear?`: mode and motion, as far as the journal tells, with strides in no mode but theirs.
* `Scene.Effects`: what has been affected between two scenes.
* `Scene.observe_drift`, `Scene.observe_follow`: what can be told of an entity however it is moved.
* `Scene.keptInModes_effects`, `Scene.Undisturbed.effects_updates`: updates have these effects and no others.
-/

namespace MotionScript

variable {γ β : Type}

/-! ## Generators that only look on -/

/-- A generator that leaves every entity as it is, now and after whatever calls. -/
def Onlooker (β : Type) [Generator γ β] (g : γ) : Prop :=
  ∀ (calls : List (Call × β)) (call : Call) (b : β),
    (Generator.call (calls.foldl (fun g c => (Generator.call g c.1 c.2).1) g) call b).2.1 = b

section Onlooker

variable [Generator γ β] {g : γ}

theorem Onlooker.body (h : Onlooker β g) (call : Call) (b : β) : (Generator.call g call b).2.1 = b := h [] call b

theorem Onlooker.next (h : Onlooker β g) (call : Call) (b : β) : Onlooker β (Generator.call g call b).1 :=
  fun calls => h ((call, b) :: calls)

end Onlooker

/-! ## Animations -/

/-- What is shown of an entity. -/
structure Display where
  /-- The entity has animations at all. -/
  animates : Bool
  /-- The one that plays. -/
  current : Option ℕ

namespace Display

/-- Shows another animation, if there are any. -/
def switchTo (d : Display) (n : ℕ) : Display := if d.animates then { d with current := some n } else d

/-- The animation that plays after others have been switched to: the last of them. -/
def after (d : Display) (switches : List ℕ) : Option ℕ :=
  if d.animates then switches.getLast?.or d.current else d.current

theorem current_foldl_switchTo (switches : List ℕ) (d : Display) :
    (switches.foldl switchTo d).current = d.after switches := by
  induction switches generalizing d with
  | nil => simp [after]
  | cons n switches ih =>
    rw [List.foldl_cons, ih]
    unfold after switchTo
    cases h : d.animates with
    | false => simp [h]
    | true => cases switches <;> simp [List.getLast?_cons]

end Display

/-- **An entity that shows the animation to which it is switched**, if it shows any. -/
class AnimatedTarget (β : Type) [Target β] where
  display : β → Display
  display_moveTo (b : β) (p : Vec3) : display (Target.moveTo b p) = display b
  display_turnTo (b : β) (degrees : Scalar) : display (Target.turnTo b degrees) = display b
  display_animate (b : β) (n : ℕ) : display (Target.animate b n) = (display b).switchTo n

instance : AnimatedTarget Body where
  display b := ⟨true, b.animation⟩
  display_moveTo _ _ := rfl
  display_turnTo _ _ := rfl
  display_animate _ _ := rfl

instance : AnimatedTarget Sprite where
  display s := ⟨s.animation.isSome, s.animation.map (·.sequence)⟩
  display_moveTo _ _ := rfl
  display_turnTo _ _ := rfl
  display_animate s n := by
    cases h : s.animation with
    | none => simp [Target.animate, Display.switchTo, h]
    | some a =>
      -- the one that plays already keeps its progress
      have hswitch : (a.switchTo n).sequence = n := by
        unfold Animation.switchTo
        split
        · assumption
        · rfl
      simp [Target.animate, Display.switchTo, h, hswitch]

/-! ## Motion in its modes -/

/-- What drives an entity, and the motion that there is for it. -/
structure Drive where
  mode : Mode
  motion : Motion

/-- What drives the entity of a controller. -/
def Controller.drive (c : Controller γ) : Drive := ⟨c.mode, c.motion⟩

/-- What an entry of the journal tells about what drives an entity. No stride is made on a path, nor after the end of
the script. -/
def Drive.hear? (d : Drive) (e : Event β) : Option Drive :=
  match e with
  | .reached _ step => some ⟨step.modeFrom d.mode, d.motion.hear e⟩
  | .drifted _ _ => if d.mode = .move ∨ d.mode = .manual then some ⟨d.mode, d.motion.hear e⟩ else none
  | _ => some d

theorem Drive.hear?_drifted {d : Drive} (h : d.mode = .move ∨ d.mode = .manual) (k : ℕ) (dt : Scalar) :
    d.hear? (.drifted k dt : Event β) = some ⟨d.mode, d.motion.hear (.drifted k dt : Event β)⟩ := if_pos h

/-- The entry tells neither about the motion nor about an animation. -/
def Event.Quiet (e : Event β) : Prop := e.Still ∧ e.animation? = none

theorem foldlM_hear?_of_quiet {l : List (Event β)} (h : ∀ e ∈ l, e.Quiet) (d : Drive) :
    l.foldlM Drive.hear? d = some d := by
  induction l with
  | nil => rfl
  | cons e l ih =>
    obtain ⟨⟨hstill, -⟩, hl⟩ := List.forall_mem_cons.1 h
    have hhear : d.hear? e = some d := by
      cases e with
      | reached => exact hstill.elim
      | drifted => exact hstill.elim
      | _ => rfl
    rw [List.foldlM_cons, hhear]
    exact ih hl

/-! ## What is affected -/

/-- What no update changes of a controller. -/
structure Setup where
  script : Option ScriptSet
  sequence : ℕ
  curve : CurveSettings
  faceHeading : Bool

/-- The setup of a controller. -/
def Controller.setup (c : Controller γ) : Setup := ⟨c.script, c.sequence, c.curve, c.faceHeading⟩

namespace Scene

/-- Nobody but the script writes to the entity. -/
def Undisturbed [Generator γ β] (s : Scene γ β) : Prop := ∀ g, s.controller.generator = some g → Onlooker β g

variable [Target β] [Generator γ β] [AnimatedTarget β]

/-- **What has been affected** from `s` to `t`, by what has been entered in the journal on the way. -/
structure Effects (l : List (Event β)) (s t : Scene γ β) : Prop where
  undisturbed : t.Undisturbed
  events : t.events = s.events ++ l
  setup : t.controller.setup = s.controller.setup
  depth : s.Level t
  rotation : s.controller.faceHeading = false → Target.rotation t.body = Target.rotation s.body
  display : AnimatedTarget.display t.body =
    (l.filterMap Event.animation?).foldl Display.switchTo (AnimatedTarget.display s.body)
  drive : l.foldlM Drive.hear? s.controller.drive = some t.controller.drive

variable {s t u : Scene γ β} {l l' : List (Event β)}

theorem Effects.trans (h : Effects l s t) (h' : Effects l' t u) : Effects (l ++ l') s u where
  undisturbed := h'.undisturbed
  events := by rw [h'.events, h.events, List.append_assoc]
  setup := h'.setup.trans h.setup
  depth := h.depth.trans h'.depth
  rotation hface := by
    have hface' : t.controller.faceHeading = false := (congrArg Setup.faceHeading h.setup).trans hface
    exact (h'.rotation hface').trans (h.rotation hface)
  display := by rw [h'.display, h.display, List.filterMap_append, List.foldl_append]
  drive := by
    rw [List.foldlM_append, h.drive]
    exact h'.drive

/-- What leaves the entity, the motion and the mode alone affects nothing. -/
theorem effects_of_quiet (ht : t.Undisturbed) (hevents : t.events = s.events ++ l) (hl : ∀ e ∈ l, e.Quiet)
    (hbody : t.body = s.body) (hsetup : t.controller.setup = s.controller.setup)
    (hdrive : t.controller.drive = s.controller.drive) : Effects l s t where
  undisturbed := ht
  events := hevents
  setup := hsetup
  depth := level_of_position (by rw [hbody])
  rotation _ := by rw [hbody]
  display := by
    have hnone : l.filterMap Event.animation? = [] := List.filterMap_eq_nil_iff.2 fun e he => (hl e he).2
    rw [hnone, hbody]
    rfl
  drive := by rw [foldlM_hear?_of_quiet hl, hdrive]

theorem Undisturbed.effects_control (h : s.Undisturbed) {f : Controller γ → Controller γ}
    (hgenerator : (f s.controller).generator = s.controller.generator)
    (hsetup : (f s.controller).setup = s.controller.setup) (hdrive : (f s.controller).drive = s.controller.drive) :
    Effects [] s (s.control f) := by
  refine effects_of_quiet ?_ (List.append_nil _).symm (List.forall_mem_nil _) rfl hsetup hdrive
  intro g hg
  exact h g (hgenerator.symm.trans hg)

theorem Undisturbed.effects_refl (h : s.Undisturbed) : Effects [] s s := h.effects_control (f := id) rfl rfl rfl

theorem Undisturbed.effects_leave (h : s.Undisturbed) : Effects [.left s.controller.step] s s.leave :=
  effects_of_quiet h (events_of_append (l := [_]) rfl) (List.forall_mem_singleton.2 ⟨trivial, rfl⟩) rfl rfl rfl

/-- A generator that only looks on does so in its next call as well. -/
theorem Undisturbed.effects_callGenerator (h : s.Undisturbed) (delta : Scalar) :
    ∃ l, Effects l s (s.callGenerator delta) := by
  cases hg : s.controller.generator with
  | none =>
    rw [callGenerator_of_none hg]
    exact ⟨[], h.effects_refl⟩
  | some g =>
    have hlook := h g hg
    unfold callGenerator
    rw [hg]
    dsimp only
    refine ⟨_, effects_of_quiet ?_ (events_of_append (List.append_assoc _ [_] _).symm) ?_ (hlook.body _ _) rfl rfl⟩
    · intro g' hg'
      obtain rfl := Option.some.inj hg'
      exact hlook.next _ _
    · simp only [List.mem_reverse, List.mem_append, List.mem_map, List.mem_singleton]
      rintro e (⟨command, -, rfl⟩ | rfl)
      · exact ⟨trivial, rfl⟩
      · exact ⟨trivial, rfl⟩

/-! ## Acts that write to the entity -/

section Bodies

variable {α : Type} {f : β → α}

omit [Generator γ β] [AnimatedTarget β] in
/-- What can be told of an entity however it is moved, and however it is turned if it is at all. -/
theorem observe_face (hturn : s.controller.faceHeading → ∀ b degrees, f (Target.turnTo b degrees) = f b)
    (direction : Vec2) : f (s.face direction).body = f s.body := by
  unfold face
  split
  · next hface => exact hturn hface _ _
  · rfl

omit [Generator γ β] [AnimatedTarget β] in
theorem observe_drift (hmove : ∀ b p, f (Target.moveTo b p) = f b)
    (hturn : s.controller.faceHeading → ∀ b degrees, f (Target.turnTo b degrees) = f b) (dt : Scalar) :
    f (s.drift dt).body = f s.body := by
  unfold drift
  split
  · rfl
  · dsimp only
    split
    · exact hmove _ _
    · exact (observe_face (by exact hturn) _).trans (hmove _ _)

omit [Generator γ β] [AnimatedTarget β] in
theorem observe_follow (hmove : ∀ b p, f (Target.moveTo b p) = f b)
    (hturn : s.controller.faceHeading → ∀ b degrees, f (Target.turnTo b degrees) = f b) (time : Scalar) :
    f (s.follow time).body = f s.body := by
  unfold follow
  dsimp only
  rw [body_note]
  -- by whether there is a heading, and then by whether there is a point
  split
  · split
    · exact (observe_face (by exact hturn) _).trans (hmove _ _)
    · exact observe_face hturn _
  · split
    · exact hmove _ _
    · rfl

end Bodies

variable [LawfulTarget β]

theorem Undisturbed.effects_switch (h : s.Undisturbed) (n : ℕ) : Effects [.switched n] s (s.switch n) where
  undisturbed := h
  events := events_of_append (l := [_]) rfl
  setup := rfl
  depth := level_of_position (LawfulTarget.position_animate _ _)
  rotation _ := LawfulTarget.rotation_animate _ _
  display := AnimatedTarget.display_animate _ _
  drive := rfl

variable [LevelTarget β]

/-- Velocity and acceleration move the entity, and turn it if its rotation follows. -/
theorem Undisturbed.effects_drift (h : s.Undisturbed) {dt : Scalar}
    (hmode : s.controller.mode = .move ∨ s.controller.mode = .manual) : ∃ l, Effects l s (s.drift dt) := by
  by_cases hdt : dt ≤ 0
  · rw [drift_of_le s hdt]
    exact ⟨[], h.effects_refl⟩
  obtain ⟨hevents, hmotion⟩ := events_drift hdt s
  obtain ⟨v, hc⟩ := controller_drift s dt
  refine ⟨_, ?_, hevents, ?_, level_drift s dt, fun hface => ?_, ?_, ?_⟩
  · intro g hg
    rw [generator_drift] at hg
    exact h g hg
  · rw [hc]
    rfl
  · refine observe_drift LawfulTarget.rotation_moveTo (fun hturn => ?_) dt
    rw [hface] at hturn
    cases hturn
  · exact observe_drift AnimatedTarget.display_moveTo (fun _ => AnimatedTarget.display_turnTo) dt
  · have hdrive : (s.drift dt).controller.drive =
        ⟨s.controller.mode, s.controller.motion.hear (.drifted s.controller.step dt : Event β)⟩ := by
      rw [Controller.drive, hmotion, hc]
      rfl
    rw [List.foldlM_cons, Drive.hear?_drifted hmode, hdrive]
    rfl

/-- A path puts the entity where it is, and turns it if its rotation follows. -/
theorem Undisturbed.effects_follow (h : s.Undisturbed) (time : Scalar) :
    Effects [.followed s.controller.step time] s (s.follow time) := by
  have hc := controller_follow s time
  refine ⟨?_, events_of_append (l := [_]) (journal_follow s time), ?_, level_follow s time, fun hface => ?_, ?_, ?_⟩
  · intro g hg
    rw [hc] at hg
    exact h g hg
  · rw [hc]
  · refine observe_follow LawfulTarget.rotation_moveTo (fun hturn => ?_) time
    rw [hface] at hturn
    cases hturn
  · exact observe_follow AnimatedTarget.display_moveTo (fun _ => AnimatedTarget.display_turnTo) time
  · rw [hc]
    rfl

/-! ## Steps -/

omit [LawfulTarget β] [LevelTarget β] in
/-- A step that is reached sets mode and motion as it says. -/
theorem Undisturbed.effects_enter (h : s.Undisturbed) (rest : List Step) (step : Step) :
    Effects [.reached s.controller.step step] s
      ((s.note (.reached s.controller.step step)).control (·.enter rest step)) where
  undisturbed g hg := h g ((Controller.generator_enter rest s.controller step).symm.trans hg)
  events := events_of_append (l := [_]) rfl
  setup := by cases step <;> rfl
  depth := level_of_position rfl
  rotation _ := rfl
  display := rfl
  drive := by cases step <;> rfl

omit [LevelTarget β] in
theorem Undisturbed.effects_deliver (h : s.Undisturbed) (step : Step) : ∃ l, Effects l s (s.deliver step) := by
  rcases deliver_cases s step with ⟨n, -, -, hdeliver⟩ | ⟨p, -, -, -, hdeliver⟩ | ⟨-, -, hdeliver⟩
  · rw [hdeliver]
    exact ⟨_, h.effects_switch n⟩
  · have hactive := h.effects_control (f := fun c => { c with activation := .active }) rfl rfl rfl
    obtain ⟨l, hcall⟩ := hactive.undisturbed.effects_callGenerator 0
    rw [hdeliver]
    exact ⟨_, hactive.trans hcall⟩
  · rw [hdeliver]
    exact ⟨[], h.effects_refl⟩

omit [LevelTarget β] in
theorem Undisturbed.effects_flush (h : s.Undisturbed) : ∃ l, Effects l s s.flush := by
  obtain ⟨t, ht, hflush⟩ := flush_cases s
  obtain ⟨l, hswitch⟩ : ∃ l, Effects l s t := by
    rcases ht with ⟨-, rfl⟩ | ⟨n, -, rfl⟩
    · exact ⟨[], h.effects_refl⟩
    · have hnone := h.effects_control (f := fun c => { c with pendingAnimation := none }) rfl rfl rfl
      exact ⟨_, hnone.trans (hnone.undisturbed.effects_switch n)⟩
  rcases hflush with ⟨-, hflush⟩ | ⟨-, hflush⟩
  · rw [hflush]
    exact ⟨l, hswitch⟩
  · have hactive := hswitch.undisturbed.effects_control (f := fun c => { c with activation := .active }) rfl rfl rfl
    obtain ⟨l', hcall⟩ := hactive.undisturbed.effects_callGenerator 0
    rw [hflush]
    exact ⟨_, hswitch.trans (hactive.trans hcall)⟩

/-- **Every stage of an update** has these effects and no others. -/
theorem keptInModes_effects (s : Scene γ β) : KeptInModes fun t => ∃ l, Effects l s t where
  flush t := by
    rintro ⟨l, h⟩
    obtain ⟨l', hflush⟩ := h.undisturbed.effects_flush
    exact ⟨_, h.trans hflush⟩
  tick t delta := by
    rintro ⟨l, h⟩
    unfold tick
    split
    · obtain ⟨l', hcall⟩ := h.undisturbed.effects_callGenerator delta
      exact ⟨_, h.trans hcall⟩
    · exact ⟨l, h⟩
  drift t dt hmode := by
    rintro ⟨l, h⟩
    obtain ⟨l', hdrift⟩ := h.undisturbed.effects_drift hmode
    exact ⟨_, h.trans hdrift⟩
  follow t time := fun ⟨_, h⟩ => ⟨_, h.trans (h.undisturbed.effects_follow time)⟩
  clock t elapsed := fun ⟨_, h⟩ => ⟨_, h.trans (h.undisturbed.effects_control rfl rfl rfl)⟩
  reach t rest step := by
    rintro ⟨l, h⟩
    have henter := h.undisturbed.effects_enter rest step
    obtain ⟨l', hdeliver⟩ := henter.undisturbed.effects_deliver step
    exact ⟨_, h.trans (henter.trans hdeliver)⟩
  next t := fun ⟨_, h⟩ => ⟨_, h.trans (h.undisturbed.effects_control rfl rfl rfl)⟩
  leave t := fun ⟨_, h⟩ => ⟨_, h.trans h.undisturbed.effects_leave⟩

/-- **A run of updates** has these effects and no others. -/
theorem Undisturbed.effects_updates (h : s.Undisturbed) (deltas : List Scalar) :
    ∃ l, Effects l s (deltas.foldl update s) :=
  (keptInModes_effects s).updates deltas ⟨[], h.effects_refl⟩

end Scene

end MotionScript
