import MotionScript.Proofs.World.Marks
import MotionScript.Proofs.World.Requests

/-!
# How long projectiles last

A projectile that comes in a frame ages in that frame already, and from the next one on it is moved before it ages.
Nothing but its age takes it away: it is under manual control, so no script ends it.

* `Entity.Outlasts`: a lifetime is longer than what passes of it.
* `World.spans`: the times of the frames of a run.
* `World.Flies`, `World.Gone`: a projectile on its way, and one that has been taken away.
* `World.projectile_lifetime`: when a projectile is there, and in which frames it moves.
-/

namespace MotionScript

variable {γ : Type}

/-! ## Lifetimes -/

namespace Entity

/-- **A lifetime outlasts times** that pass one after the other: taking off those that are positive never leaves zero
or less. Who has no lifetime outlasts everything. -/
def Outlasts (lifetime : Option Scalar) (deltas : List Scalar) : Prop :=
  ∀ t, lifetime = some t → ∀ spent, spent <+: deltas.filter (0 < ·) → spent ≠ [] → ¬spent.foldl (· - ·) t ≤ 0

variable {lifetime : Option Scalar} {t delta : Scalar} {deltas : List Scalar}

theorem outlasts_nil : Outlasts lifetime [] := by
  rintro t - spent hspent hne
  exact absurd (List.prefix_nil.1 hspent) hne

theorem outlasts_none : Outlasts none deltas := fun _ h => nomatch h

theorem outlasts_cons_of_not_pos (h : ¬0 < delta) : Outlasts lifetime (delta :: deltas) ↔ Outlasts lifetime deltas := by
  unfold Outlasts
  rw [List.filter_cons_of_neg (by simpa using h)]

/-- A positive time is taken off, and the times after it from what is left. -/
theorem outlasts_cons_of_pos (h : 0 < delta) :
    Outlasts (some t) (delta :: deltas) ↔ ¬t - delta ≤ 0 ∧ Outlasts (some (t - delta)) deltas := by
  unfold Outlasts
  rw [List.filter_cons_of_pos (by simpa using h)]
  constructor
  · intro hlasts
    refine ⟨hlasts t rfl [delta] (List.prefix_cons_inj delta |>.2 List.nil_prefix) (List.cons_ne_nil _ _), ?_⟩
    rintro t' ⟨⟩ spent hspent -
    exact hlasts t rfl (delta :: spent) ((List.prefix_cons_inj delta).2 hspent) (List.cons_ne_nil _ _)
  · rintro ⟨hfirst, hrest⟩ t' ⟨⟩ spent hspent hne
    obtain rfl | ⟨after, rfl, hafter⟩ := List.prefix_cons_iff.1 hspent
    · exact absurd rfl hne
    · cases after with
      | nil => exact hfirst
      | cons d after => exact hrest _ rfl _ hafter (List.cons_ne_nil _ _)

/-- **Growing older** by a time leaves what outlasts as much more, or nothing. -/
theorem aging_cases (e : Entity γ) (hnumber : ¬delta.isNaN) :
    (∃ lifetime, e.afterAging delta = some { e with lifetime } ∧
        ∀ deltas, Outlasts e.lifetime (delta :: deltas) ↔ Outlasts lifetime deltas) ∨
      e.afterAging delta = none ∧ ∀ deltas, ¬Outlasts e.lifetime (delta :: deltas) := by
  unfold afterAging
  by_cases hle : delta ≤ 0
  · rw [if_pos hle]
    exact .inl ⟨e.lifetime, rfl, fun _ => outlasts_cons_of_not_pos (Scalar.not_lt_of_le hle)⟩
  have hpos : 0 < delta := Scalar.lt_of_not_le hnumber (Scalar.not_isNaN_of_isFinite rfl) hle
  rw [if_neg hle]
  unfold age
  cases hlifetime : e.lifetime with
  | none =>
    have hsame : e = { e with lifetime := none } := by rw [← hlifetime]
    exact .inl ⟨none, congrArg some hsame, fun _ => iff_of_true outlasts_none outlasts_none⟩
  | some t =>
    by_cases hover : t - delta ≤ 0
    · exact .inr ⟨if_pos hover, fun _ h => ((outlasts_cons_of_pos hpos).1 h).1 hover⟩
    · refine .inl ⟨some (t - delta), if_neg hover, fun _ => ?_⟩
      rw [outlasts_cons_of_pos hpos]
      exact and_iff_right hover

variable [Generator γ Sprite]

/-- An entity under manual control stays so, and it does not vanish. -/
theorem act_manual {e : Entity γ} (h : e.controller.mode = .manual) (delta : Scalar) :
    (e.act delta).vanishedNow = false ∧ (e.act delta).entity.controller.mode = .manual := by
  have hmode : (e.act delta).entity.controller.mode = .manual := by
    have hplayhead := Scene.playhead_update { controller := e.controller, body := e.sprite } delta
    rw [Playhead.update_manual h] at hplayhead
    exact (congrArg Playhead.mode hplayhead).trans h
  refine ⟨?_, hmode⟩
  rw [vanishedNow_act, Controller.isDeletable, hmode]
  rfl

/-- The first pass leaves an entity under manual control what it is, and its lifetime. -/
theorem exists_afterPass {e : Entity γ} (h : e.controller.mode = .manual) (delta : Scalar) (despawn : Bool) :
    ∃ e', e.afterPass delta despawn = some e' ∧ e'.lifetime = e.lifetime ∧ e'.controller.mode = .manual := by
  unfold afterPass
  obtain ⟨hkeep, hmode⟩ := act_manual h delta
  by_cases hle : delta ≤ 0
  · exact ⟨e, if_pos hle, rfl, h⟩
  · refine ⟨(e.act delta).entity, ?_, rfl, hmode⟩
    rw [if_neg hle, hkeep, Bool.and_false, if_neg Bool.false_ne_true]

end Entity

namespace World

open Entity (Outlasts)

/-! ## Runs -/

/-- The arrival is an operation on the controller of an entity. -/
def Arrival.Controls (id : ℕ) : Arrival γ → Prop
  | .input (.control i _) => i = id
  | _ => False

/-- The time of a frame, as the clock scales it. -/
def span (w : World γ) : Arrival γ → List Scalar
  | .input (.frame dt) => [(w.clock.advance dt).delta]
  | _ => []

variable [Generator γ Sprite]

/-- The times of the frames of a run. -/
def spans : World γ → List (Arrival γ) → List Scalar
  | _, [] => []
  | w, arrival :: arrivals => w.span arrival ++ spans (w.receive arrival) arrivals

omit [Generator γ Sprite] in
/-- **An entity flies** with what is left of its lifetime: it is there, under manual control. -/
structure Flies (w : World γ) (id : ℕ) (lifetime : Option Scalar) : Prop where
  numbered : w.Numbered
  entity : ∃ e, w.entity? id = some e ∧ e.lifetime = lifetime ∧ e.controller.mode = .manual

/-- **An entity is gone**, and its number is not given again. -/
structure Gone (w : World γ) (id : ℕ) : Prop where
  numbered : w.Numbered
  given : id < w.nextId
  entity : w.entity? id = none

variable {w : World γ} {id : ℕ} {lifetime : Option Scalar}

theorem nextId_receive (w : World γ) (arrival : Arrival γ) : w.nextId ≤ (w.receive arrival).nextId := by
  cases arrival with
  | input input => exact (step_settings w input).2.2
  | rescale timeScale => exact le_rfl
  | request commands => exact le_rfl

theorem nextId_receiveAll (w : World γ) (arrivals : List (Arrival γ)) : w.nextId ≤ (w.receiveAll arrivals).nextId := by
  induction arrivals generalizing w with
  | nil => exact le_rfl
  | cons arrival arrivals ih => exact (nextId_receive w arrival).trans (ih (w.receive arrival))

/-- **Who is gone stays gone**, whatever comes to the world. -/
theorem Gone.receive (h : w.Gone id) (arrival : Arrival γ) : (w.receive arrival).Gone id where
  numbered := numbered_receive h.numbered arrival
  given := h.given.trans_le (nextId_receive w arrival)
  entity := by
    cases arrival with
    | input input =>
      cases input with
      | frame dt =>
        show (w.frame dt).1.entity? id = none
        rw [entity?_frame h.numbered h.given, h.entity]
        rfl
      | control i op =>
        show (w.step (.control i op)).entity? id = none
        rw [entity?_control, h.entity]
        rfl
    | rescale timeScale => exact h.entity
    | request commands => exact h.entity

theorem Gone.receiveAll (h : w.Gone id) (arrivals : List (Arrival γ)) : (w.receiveAll arrivals).Gone id := by
  induction arrivals generalizing w with
  | nil => exact h
  | cons arrival arrivals ih => exact ih (h.receive arrival)

/-- **What an arrival does to a projectile**: it flies on with what is left of its lifetime, or its lifetime is over
and it is gone. -/
theorem Flies.receive (h : w.Flies id lifetime) {arrival : Arrival γ} (hcontrol : ¬arrival.Controls id)
    (hnumber : ∀ delta ∈ w.span arrival, ¬delta.isNaN) :
    (∃ left, (w.receive arrival).Flies id left ∧
        ∀ deltas, Outlasts lifetime (w.span arrival ++ deltas) ↔ Outlasts left deltas) ∨
      (w.receive arrival).Gone id ∧ ∀ deltas, ¬Outlasts lifetime (w.span arrival ++ deltas) := by
  have hnumbered := numbered_receive h.numbered arrival
  obtain ⟨e, he, rfl, hmode⟩ := h.entity
  have hid := h.numbered.lt_of_entity? he
  cases arrival with
  | input input =>
    cases input with
    | frame dt =>
      have hentity := entity?_frame h.numbered hid dt
      obtain ⟨e', hpass, hlifetime, hmode'⟩ :=
        Entity.exists_afterPass hmode (w.clock.advance dt).delta w.despawnVanished
      rw [he, Option.bind_some, hpass, Option.bind_some] at hentity
      rw [← hlifetime]
      rcases e'.aging_cases (hnumber _ (List.mem_singleton.2 rfl)) with ⟨left, haging, hleft⟩ | ⟨haging, hover⟩
      · exact .inl ⟨left, ⟨hnumbered, _, hentity.trans haging, rfl, hmode'⟩, hleft⟩
      · exact .inr ⟨⟨hnumbered, hid.trans_le (nextId_receive w _), hentity.trans haging⟩, hover⟩
    | control i op =>
      have hne : id ≠ i := fun heq => hcontrol heq.symm
      have hentity := entity?_control w id i op
      rw [he, Option.map_some, if_neg hne] at hentity
      exact .inl ⟨e.lifetime, ⟨hnumbered, e, hentity, rfl, hmode⟩, fun _ => Iff.rfl⟩
  | rescale timeScale => exact .inl ⟨e.lifetime, ⟨hnumbered, e, he, rfl, hmode⟩, fun _ => Iff.rfl⟩
  | request commands => exact .inl ⟨e.lifetime, ⟨hnumbered, e, he, rfl, hmode⟩, fun _ => Iff.rfl⟩

/-- **Over a run** a projectile is there for as long as its lifetime outlasts the frames. -/
theorem Flies.receiveAll (h : w.Flies id lifetime) {arrivals : List (Arrival γ)}
    (hcontrol : ∀ arrival ∈ arrivals, ¬arrival.Controls id) (hnumber : ∀ delta ∈ w.spans arrivals, ¬delta.isNaN) :
    ((w.receiveAll arrivals).entity? id).isSome ↔ Outlasts lifetime (w.spans arrivals) := by
  induction arrivals generalizing w lifetime with
  | nil =>
    obtain ⟨e, he, -, -⟩ := h.entity
    refine iff_of_true ?_ Entity.outlasts_nil
    show (w.entity? id).isSome
    rw [he]
    rfl
  | cons arrival arrivals ih =>
    obtain ⟨hfirst, hrest⟩ := List.forall_mem_cons.1 hcontrol
    have hspan : ∀ delta ∈ w.span arrival, ¬delta.isNaN := fun d hd => hnumber d (List.mem_append_left _ hd)
    have hspans : ∀ delta ∈ (w.receive arrival).spans arrivals, ¬delta.isNaN :=
      fun d hd => hnumber d (List.mem_append_right _ hd)
    rcases h.receive hfirst hspan with ⟨left, hflies, hleft⟩ | ⟨hgone, hover⟩
    · exact (ih hflies hrest hspans).trans (hleft _).symm
    · refine iff_of_false ?_ (hover _)
      show ¬(((w.receive arrival).receiveAll arrivals).entity? id).isSome
      rw [(hgone.receiveAll arrivals).entity]
      exact Bool.false_ne_true

/-! ## Projectiles -/

variable {commands : List Command} {position : Vec3} {direction speed dt : Scalar} {j : ℕ}

/-- **What becomes of a projectile in the frame in which it comes**: it flies with what is left of its lifetime, or
it is gone at once. -/
theorem flies_frame_new (hw : w.Numbered) (hqueue : (w.advanceClock dt).act.1.queue = some commands)
    (hj : commands[j]? = some (.projectile position direction speed lifetime))
    (hnumber : ¬(w.clock.advance dt).delta.isNaN) :
    (∃ left, (w.frame dt).1.Flies (w.nextId + j) left ∧
        ∀ deltas, Outlasts lifetime ((w.clock.advance dt).delta :: deltas) ↔ Outlasts left deltas) ∨
      (w.frame dt).1.Gone (w.nextId + j) ∧ ∀ deltas, ¬Outlasts lifetime ((w.clock.advance dt).delta :: deltas) := by
  obtain ⟨hlt, hcommand⟩ := List.getElem?_eq_some_iff.1 hj
  have hnumbered : (w.frame dt).1.Numbered := numbered_step hw (.frame dt)
  have hentity := entity?_frame_new hw hqueue hlt
  rw [hcommand] at hentity
  rcases Entity.aging_cases (γ := γ) (.ofCommand (w.curve.getD {}) (.projectile position direction speed lifetime))
    hnumber with ⟨left, haging, hleft⟩ | ⟨haging, hover⟩
  · exact .inl ⟨left, ⟨hnumbered, _, hentity.trans haging, rfl, rfl⟩, hleft⟩
  · have hgiven : w.nextId + j < (w.frame dt).1.nextId := by
      rw [nextId_frame hqueue]
      omega
    exact .inr ⟨⟨hnumbered, hgiven, hentity.trans haging⟩, hover⟩

/-- **Projectiles last for their lifetime.** Let a frame make an entity of a request for a projectile, in a world that
takes away what vanishes or not and that anything may have come to. In that frame the new entity is not updated.
After it, let anything come to the world but operations on the controller of that entity, and let all times be
numbers. Then the entity is there just if its lifetime outlasts the times of all frames, the one in which it has come
included; without a lifetime it is always there. Once it is gone it is so for good. A further frame updates it just
if the time of that frame is positive and the entity is there before it, so also in the frame that takes it away. -/
theorem projectile_lifetime (hw : w.Numbered) (before : List (Arrival γ))
    (hqueue : ((w.receiveAll before).advanceClock dt).act.1.queue = some commands)
    (hj : commands[j]? = some (.projectile position direction speed lifetime)) :
    let u := w.receiveAll before
    let id := u.nextId + j
    (u.frame dt).2.outcomes.lookup id = none ∧
      ∀ later : List (Arrival γ), (∀ arrival ∈ later, ¬arrival.Controls id) →
        let deltas := u.spans (.input (.frame dt) :: later)
        let x := (u.frame dt).1.receiveAll later
        (∀ delta ∈ deltas, ¬delta.isNaN) →
          ((x.entity? id).isSome ↔ Outlasts lifetime deltas) ∧
            (x.entity? id = none → ∀ more, (x.receiveAll more).entity? id = none) ∧
              ∀ dt', ¬(x.clock.advance dt').delta.isNaN → (x.frame dt').2.outcomes.lookup id =
                if 0 < (x.clock.advance dt').delta then (x.entity? id).map (·.act (x.clock.advance dt').delta)
                else none := by
  intro u id
  have hu : u.Numbered := numbered_receiveAll hw before
  obtain ⟨hlt, -⟩ := List.getElem?_eq_some_iff.1 hj
  constructor
  · -- its number has not been given yet when entities are updated
    have hfree : u.entity? id = none := by
      cases he : u.entity? id with
      | none => rfl
      | some e => exact absurd (hu.lt_of_entity? he) (Nat.not_lt.2 (Nat.le_add_right _ _))
    rw [lookup_outcomes_frame, hfree, Option.map_none, ite_self]
  intro later hcontrol deltas x hnumber
  have hframed : (u.frame dt).1.Numbered := numbered_step hu (.frame dt)
  have hx : x.Numbered := numbered_receiveAll hframed later
  have hgiven : id < x.nextId := by
    have hframe : (u.frame dt).1.nextId = u.nextId + commands.length := nextId_frame hqueue
    have hlater : (u.frame dt).1.nextId ≤ x.nextId := nextId_receiveAll _ later
    omega
  refine ⟨?_, fun hnone more => (Gone.receiveAll ⟨hx, hgiven, hnone⟩ more).entity, ?_⟩
  · rcases flies_frame_new hu hqueue hj (hnumber _ List.mem_cons_self) with ⟨left, hflies, hleft⟩ | ⟨hgone, hover⟩
    · exact (hflies.receiveAll hcontrol fun d hd => hnumber d (List.mem_cons_of_mem _ hd)).trans (hleft _).symm
    · refine iff_of_false ?_ (hover _)
      rw [(hgone.receiveAll later).entity]
      exact Bool.false_ne_true
  · intro dt' hdelta
    rw [lookup_outcomes_frame]
    by_cases hle : (x.clock.advance dt').delta ≤ 0
    · rw [if_pos hle, if_neg (Scalar.not_lt_of_le hle)]
    · rw [if_neg hle, if_pos (Scalar.lt_of_not_le hdelta (Scalar.not_isNaN_of_isFinite rfl) hle)]

/-- Half a second: a quarter of it passes in the frame in which the projectile comes and nothing in a frozen frame.
The next frame takes it away, and moves it first. -/
theorem projectile_lifetime_of_two_frames :
    let w : World Stock := { queue := some [.projectile ⟨0, 0, 0⟩ 90 4 (some 0.5)], despawnVanished := true }
    let v := (w.frame 0.25).1
    let x := v.receiveAll [.input (.frame 0)]
    w.Numbered ∧ (w.frame 0.25).2.outcomes.lookup 0 = none ∧
      w.spans [.input (.frame 0.25), .input (.frame 0), .input (.frame 0.25)] = [0.25, 0, 0.25] ∧
        (x.entity? 0).isSome ∧ Outlasts (some 0.5) [0.25, 0] ∧
          ((x.frame 0.25).2.outcomes.lookup 0).isSome ∧
            ¬((v.receiveAll [.input (.frame 0), .input (.frame 0.25)]).entity? 0).isSome ∧
              ¬Outlasts (some 0.5) [0.25, 0, 0.25] := by
  intro w v x
  have hw : w.Numbered := ⟨by decide, by decide⟩
  have hqueue : (w.advanceClock 0.25).act.1.queue = some [.projectile ⟨0, 0, 0⟩ 90 4 (some 0.5)] := by
    decide +kernel
  have hlasts (later : List (Arrival Stock)) (hfree : ∀ arrival ∈ later, ¬arrival.Controls 0)
      (hnumbers : ∀ delta ∈ w.spans (.input (.frame 0.25) :: later), ¬delta.isNaN) :
      ((v.receiveAll later).entity? 0).isSome ↔ Outlasts (some 0.5) (w.spans (.input (.frame 0.25) :: later)) :=
    ((projectile_lifetime hw [] hqueue (j := 0) rfl).2 later hfree hnumbers).1
  have hspans : w.spans [.input (.frame 0.25), .input (.frame 0)] = [0.25, 0] := by decide +kernel
  have hspans' : w.spans [.input (.frame 0.25), .input (.frame 0), .input (.frame 0.25)] = [0.25, 0, 0.25] := by
    decide +kernel
  have hfirst := hlasts [.input (.frame 0)] (List.forall_mem_singleton.2 id)
  have hsecond := hlasts [.input (.frame 0), .input (.frame 0.25)]
    (List.forall_mem_cons.2 ⟨id, List.forall_mem_singleton.2 id⟩)
  rw [hspans] at hfirst
  rw [hspans'] at hsecond
  have hthere : (x.entity? 0).isSome := by decide +kernel
  have hgone : ¬((v.receiveAll [.input (.frame 0), .input (.frame 0.25)]).entity? 0).isSome := by decide +kernel
  refine ⟨hw, by decide +kernel, hspans', hthere, ?_, by decide +kernel, hgone, ?_⟩
  · exact (hfirst (by decide +kernel)).1 hthere
  · exact fun h => hgone ((hsecond (by decide +kernel)).2 h)

end World

end MotionScript
