import MotionScript.Proofs.World.Run

/-!
# What comes to a world

Frames and operations on controllers are not all that comes to a world: its clock is set to run faster or slower, and
whoever has a hand on the queue puts commands in it.

* `World.Arrival`, `World.receive`, `World.receiveAll`: what comes to a world, and the world after it.
* `World.sentBeside`: the commands that get into the queue without a frame.
* `World.Freezes`: a frame in which no time passes.
* `World.queue_receive`: what an arrival does to the queue.
* `World.Throughout`: what holds of all arrivals of a run.
-/

namespace MotionScript

namespace World

variable {γ : Type}

/-- What comes to a world, frames and operations among it. -/
inductive Arrival (γ : Type) where
  | input (input : Input γ)
  /-- The clock is set to another speed. -/
  | rescale (timeScale : Scalar)
  /-- Somebody puts commands in the queue. -/
  | request (commands : List Command)

/-- The arrival is a frame. -/
def Arrival.IsFrame : Arrival γ → Prop
  | .input (.frame _) => True
  | _ => False

instance : DecidablePred (Arrival.IsFrame (γ := γ))
  | .input (.frame _) => isTrue trivial
  | .input (.control _ _) => isFalse id
  | .rescale _ => isFalse id
  | .request _ => isFalse id

/-- The world with another speed of its clock. -/
def rescale (w : World γ) (timeScale : Scalar) : World γ := { w with clock := { w.clock with timeScale } }

/-- **The arrival is a frozen frame**: no time passes in it. -/
def Freezes (w : World γ) : Arrival γ → Prop
  | .input (.frame dt) => (w.clock.advance dt).delta ≤ 0
  | _ => False

instance (w : World γ) : DecidablePred w.Freezes
  | .input (.frame _) => inferInstanceAs (Decidable (_ ≤ _))
  | .input (.control _ _) => isFalse id
  | .rescale _ => isFalse id
  | .request _ => isFalse id

variable [Generator γ Sprite]

/-- The world after an arrival. -/
def receive (w : World γ) : Arrival γ → World γ
  | .input input => w.step input
  | .rescale timeScale => w.rescale timeScale
  | .request commands => w.send commands

/-- The world after arrivals, one after the other. -/
def receiveAll (w : World γ) (arrivals : List (Arrival γ)) : World γ := arrivals.foldl receive w

/-- The commands that get into the queue by an arrival other than a frame. -/
def sentBeside (w : World γ) : Arrival γ → List Command
  | .input (.frame _) => []
  | .input (.control id op) => w.sentBy id op
  | .rescale _ => []
  | .request commands => commands

/-- **Something holds of every arrival of a run**, of each with the world that it comes to. -/
def Throughout (P : World γ → Arrival γ → Prop) : World γ → List (Arrival γ) → Prop
  | _, [] => True
  | w, arrival :: arrivals => P w arrival ∧ Throughout P (w.receive arrival) arrivals

variable {w : World γ}

theorem numbered_receive (h : w.Numbered) (arrival : Arrival γ) : (w.receive arrival).Numbered := by
  cases arrival with
  | input input => exact numbered_step h input
  | rescale timeScale => exact ⟨h.nodup, h.lt⟩
  | request commands => exact ⟨h.nodup, h.lt⟩

theorem numbered_receiveAll (h : w.Numbered) (arrivals : List (Arrival γ)) : (w.receiveAll arrivals).Numbered := by
  induction arrivals generalizing w with
  | nil => exact h
  | cons arrival arrivals ih => exact ih (numbered_receive h arrival)

/-- **A frame leaves the queue empty.** -/
theorem queue_frame (w : World γ) (dt : Scalar) : (w.frame dt).1.queue = w.queue.map fun _ => [] := by
  have hact : (w.advanceClock dt).act.1.queue.map (fun _ => ([] : List Command)) = w.queue.map fun _ => [] := by
    unfold act
    split
    · rfl
    · exact Option.map_map _ _ _
  have hexpire (v : World γ) : v.expire.queue = v.queue := by
    unfold expire
    split <;> rfl
  show (w.advanceClock dt).act.1.spawn.expire.queue = _
  rw [hexpire]
  exact hact

/-- **What an arrival does to the queue.** -/
theorem queue_receive (w : World γ) (arrival : Arrival γ) : (w.receive arrival).queue =
    w.queue.map fun pending => if arrival.IsFrame then [] else pending ++ w.sentBeside arrival := by
  cases arrival with
  | input input =>
    cases input with
    | frame dt => exact queue_frame w dt
    | control id op => rfl
  | rescale timeScale =>
    show w.queue = w.queue.map (· ++ [])
    simp
  | request commands => rfl

end World

end MotionScript
