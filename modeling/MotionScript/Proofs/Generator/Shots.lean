import MotionScript.Proofs.Generator.Cadence

/-!
# The shots of a burst

A burst draws its random numbers for the shots that it fires and for nothing else. Which way a shot goes is therefore
told by its number alone, in whatever calls the volleys fall due.

* `Generator.sent`, `Generator.shots`: the commands that calls send, and the directions of the projectiles among them.
* `Burst.shots_eq`: the shots of calls are the volleys of the pattern, one after the other.
* `Burst.shots_reproducible`: two runs of calls shoot the same way for as long as both shoot.
-/

namespace MotionScript

/-- The direction of a projectile. -/
def Command.direction? : Command → Option Scalar
  | projectile _ direction .. => some direction
  | scripted .. => none

namespace Generator

variable {γ β : Type} [Generator γ β]

/-- The commands that a generator sends over calls, each with the body that is at hand then. -/
def sent (g : γ) : List (Call × β) → List Command
  | [] => []
  | c :: calls => (call g c.1 c.2).2.2 ++ sent (call g c.1 c.2).1 calls

/-- The directions of the projectiles that a generator sends over calls. -/
def shots (g : γ) (calls : List (Call × β)) : List Scalar := (sent g calls).filterMap Command.direction?

end Generator

namespace Pattern

variable (p : Pattern)

theorem length_volleys (direction : Scalar) (n : ℕ) (random : Random) :
    (p.volleys direction n random).1.length = n * p.count := by
  rw [volleys, length_strayAll, List.length_flatten, List.map_replicate, List.sum_replicate, length_angles, smul_eq_mul]

/-- Volleys take the random numbers up where the volleys before them have left off. -/
theorem volleys_add (direction : Scalar) (m n : ℕ) (random : Random) :
    p.volleys direction (m + n) random =
      ((p.volleys direction m random).1 ++ (p.volleys direction n (p.volleys direction m random).2).1,
        (p.volleys direction n (p.volleys direction m random).2).2) := by
  rw [volleys, List.replicate_add, List.flatten_append, strayAll_append]
  rfl

/-- Fewer volleys are the first of more volleys. -/
theorem volleys_mono (direction : Scalar) {m n : ℕ} (h : m ≤ n) (random : Random) :
    (p.volleys direction m random).1 <+: (p.volleys direction n random).1 := by
  obtain ⟨rest, rfl⟩ := Nat.exists_eq_add_of_le h
  rw [volleys_add]
  exact List.prefix_append _ _

end Pattern

namespace Burst

variable {β β' : Type} [Target β] [Target β']

/-- What a call sends are projectiles in the directions of the volleys that it fires, and as many random numbers are
drawn as these volleys need. -/
theorem fire_directions (b : Burst) (call : Call) (position : Vec3) :
    (b.fire call position).2.map Command.direction? =
        (b.pattern.volleys call.direction (b.volleysAt call) b.random).1.map some ∧
      (b.fire call position).1.random = (b.pattern.volleys call.direction (b.volleysAt call) b.random).2 := by
  unfold fire volleysAt
  cases b.due call.delta with
  | none => exact ⟨rfl, rfl⟩
  | some due => exact ⟨List.map_map, rfl⟩

/-- **The shots of calls in one direction are the volleys of the pattern**, as if all of them fell due at once. Beside
projectiles nothing is sent. -/
theorem shots_eq {direction : Scalar} {calls : List (Call × β)} (h : ∀ c ∈ calls, c.1.direction = direction)
    (b : Burst) :
    (Generator.sent (Stock.burst b) calls).map Command.direction? =
      (b.pattern.volleys direction (b.volleysOver calls) b.random).1.map some := by
  induction calls generalizing b with
  | nil => rfl
  | cons c calls ih =>
    obtain ⟨hc, hrest⟩ := List.forall_mem_cons.1 h
    obtain ⟨hdirections, hrandom⟩ := b.fire_directions c.1 (Target.position c.2)
    have hpattern := b.pattern_fire c.1 (Target.position c.2)
    have hcalls := ih hrest (b.fire c.1 (Target.position c.2)).1
    rw [hpattern, hrandom] at hcalls
    have hsent : Generator.sent (Stock.burst b) (c :: calls) = (b.fire c.1 (Target.position c.2)).2 ++
        Generator.sent (Stock.burst (b.fire c.1 (Target.position c.2)).1) calls := rfl
    rw [hsent, List.map_append, hdirections, hcalls, volleysOver, Pattern.volleys_add, List.map_append, hc]

/-- The shots of calls in one direction are all that is sent, and they make up whole volleys. -/
theorem exists_volleys (p : Pattern) {direction : Scalar} {calls : List (Call × β)}
    (h : ∀ c ∈ calls, c.1.direction = direction) :
    let g := Stock.burst (.ofPattern p)
    (∃ n, Generator.shots g calls = (p.volleys direction n ⟨p.seed⟩).1) ∧
      (Generator.shots g calls).length = (Generator.sent g calls).length ∧
        p.count ∣ (Generator.shots g calls).length := by
  intro g
  have hsent := shots_eq h (.ofPattern p)
  have hshots : Generator.shots g calls = (p.volleys direction ((ofPattern p).volleysOver calls) ⟨p.seed⟩).1 :=
    calc Generator.shots g calls
        = ((Generator.sent g calls).map Command.direction?).filterMap id := by rw [List.filterMap_map]; rfl
      _ = (p.volleys direction ((ofPattern p).volleysOver calls) ⟨p.seed⟩).1 := by
        rw [hsent, List.filterMap_map]
        exact List.filterMap_some
  have hlength := congrArg List.length hsent
  rw [List.length_map, List.length_map] at hlength
  refine ⟨⟨_, hshots⟩, ?_, ?_⟩
  · rw [hshots]
    exact hlength.symm
  · rw [hshots, Pattern.length_volleys]
    exact Nat.dvd_mul_left _ _

/-- **Seeded bursts are reproducible.** Let two runs of calls, on any bodies and with whatever speeds and times, tell
a burst of one pattern, its seed included, the same direction. For as long as both runs shoot, they shoot the same
way, however the volleys fall to the calls. A call whose volleys have no end fires none; in either run all that is
sent are projectiles, and they make up whole volleys. -/
theorem shots_reproducible (p : Pattern) (direction : Scalar) (calls : List (Call × β)) (calls' : List (Call × β'))
    (h : ∀ c ∈ calls, c.1.direction = direction) (h' : ∀ c ∈ calls', c.1.direction = direction) :
    let g := Stock.burst (.ofPattern p)
    let shots := Generator.shots g calls
    let shots' := Generator.shots g calls'
    let n := min shots.length shots'.length
    shots.take n = shots'.take n ∧
      (shots.length = (Generator.sent g calls).length ∧ p.count ∣ shots.length) ∧
        shots'.length = (Generator.sent g calls').length ∧ p.count ∣ shots'.length := by
  intro g shots shots' n
  obtain ⟨⟨m, hshots⟩, hwhole⟩ := exists_volleys p h
  obtain ⟨⟨m', hshots'⟩, hwhole'⟩ := exists_volleys p h'
  refine ⟨?_, hwhole, hwhole'⟩
  -- the run with fewer volleys has shot the first of those that the other run has shot
  rcases Nat.le_total m m' with hle | hle
  · have hfirst : shots <+: shots' := by
      have hmono := p.volleys_mono direction hle ⟨p.seed⟩
      rwa [← hshots, ← hshots'] at hmono
    have hn : n = shots.length := min_eq_left hfirst.length_le
    rw [hn, List.take_length]
    exact List.prefix_iff_eq_take.1 hfirst
  · have hfirst : shots' <+: shots := by
      have hmono := p.volleys_mono direction hle ⟨p.seed⟩
      rwa [← hshots, ← hshots'] at hmono
    have hn : n = shots'.length := min_eq_right hfirst.length_le
    rw [hn, List.take_length]
    exact (List.prefix_iff_eq_take.1 hfirst).symm

/-- Two activations against a long frame and one activation: four shots against six. -/
theorem shots_reproducible_in_slices :
    let p : Pattern := { interval := 0.5, count := 2, spread := 30, jitter := 5, seed := 7 }
    let g := Stock.burst (.ofPattern p)
    let call (delta speed : Scalar) : Call × Body := (⟨delta, speed, 90⟩, {})
    let shots := Generator.shots g [call 0 4, call 0.25 4, call 0 2]
    let shots' := Generator.shots g [call 1.25 1, call 0 3]
    shots.length = 4 ∧ shots'.length = 6 ∧ shots.take 4 = shots'.take 4 := by
  intro p g call shots shots'
  have hlength : shots.length = 4 := by decide +kernel
  have hlength' : shots'.length = 6 := by decide +kernel
  have h : ∀ c ∈ [call 0 4, call 0.25 4, call 0 2], c.1.direction = 90 := by
    simp only [List.forall_mem_cons]
    exact ⟨rfl, rfl, rfl, List.forall_mem_nil _⟩
  have h' : ∀ c ∈ [call 1.25 1, call 0 3], c.1.direction = 90 := by
    simp only [List.forall_mem_cons]
    exact ⟨rfl, rfl, List.forall_mem_nil _⟩
  have hmin : min shots.length shots'.length = 4 := by rw [hlength, hlength']; rfl
  have hsame := (shots_reproducible p 90 _ _ h h').1
  rw [hmin] at hsame
  exact ⟨hlength, hlength', hsame⟩

end Burst

end MotionScript
