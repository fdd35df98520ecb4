import MotionScript.Generator.Stock
import MotionScript.Proofs.Scalar.Words

/-!
# The cadence of bursts

A burst counts the time since its last volley and takes its interval off for as long as that fits. On a grid of
times nothing of it is rounded, so the volleys fall due as the time divides, in whatever slices it is passed.

* `Pattern.IsVolleys`: the commands that make up a number of volleys.
* `Burst.countVolleys_eq`: catching up is division with remainder.
* `Burst.volleys_keep_cadence`: how many volleys there are since a step has set the burst going.
-/

namespace MotionScript

/-! ## Volleys -/

namespace Pattern

variable (p : Pattern)

/-- **The commands make up `n` volleys**: each of them has all shots of the pattern, from the position, at the speed
that the call tells and with the lifetime of the pattern. -/
def IsVolleys (call : Call) (position : Vec3) (n : ℕ) (commands : List Command) : Prop :=
  ∃ volleys : List (List Command), volleys.length = n ∧ volleys.flatten = commands ∧
    ∀ volley ∈ volleys, volley.length = p.count ∧
      ∀ command ∈ volley, ∃ direction, command = .projectile position direction call.speed p.lifetime

theorem length_strayAll (angles : List Scalar) (random : Random) :
    (p.strayAll angles random).1.length = angles.length := by
  induction angles generalizing random with
  | nil => rfl
  | cons a as ih => simp [strayAll, ih]

/-- Shots stray one after the other. -/
theorem strayAll_append (as bs : List Scalar) (random : Random) :
    p.strayAll (as ++ bs) random =
      ((p.strayAll as random).1 ++ (p.strayAll bs (p.strayAll as random).2).1,
        (p.strayAll bs (p.strayAll as random).2).2) := by
  induction as generalizing random with
  | nil => rfl
  | cons a as ih => simp [strayAll, ih]

theorem length_angles (direction : Scalar) : (p.angles direction).length = p.count := by
  rw [angles, List.length_map, List.length_range]

/-- The directions of volleys fall into as many lists, in each of which the angles of the pattern have strayed. -/
theorem exists_directions (direction : Scalar) (n : ℕ) (random : Random) :
    ∃ volleys : List (List Scalar), volleys.length = n ∧ volleys.flatten = (p.volleys direction n random).1 ∧
      ∀ volley ∈ volleys, ∃ random, volley = (p.strayAll (p.angles direction) random).1 := by
  unfold volleys
  induction n generalizing random with
  | zero => exact ⟨[], rfl, rfl, List.forall_mem_nil _⟩
  | succ n ih =>
    obtain ⟨rest, hlength, hflatten, hstray⟩ := ih (p.strayAll (p.angles direction) random).2
    refine ⟨(p.strayAll (p.angles direction) random).1 :: rest, by rw [List.length_cons, hlength], ?_, ?_⟩
    · rw [List.replicate_succ, List.flatten_cons, List.flatten_cons, strayAll_append, hflatten]
    · exact List.forall_mem_cons.2 ⟨⟨random, rfl⟩, hstray⟩

end Pattern

namespace Burst

/-! ## Catching up -/

/-- **Catching up is division with remainder**: it counts how often the interval fits in the time, and what is left
is less than the interval. -/
theorem countVolleys_eq {interval since : Scalar} {k s : ℕ} (hk : interval.Clock k) (hpos : 0 < k)
    (hs : since.Clock s) (hlt : s < 2 ^ 24) (n : ℕ) :
    ∃ left, countVolleys interval n since = some (n + s / k, left) ∧ left.Clock (s % k) := by
  -- on the time that is left
  induction s using Nat.strong_induction_on generalizing since n with
  | _ s ih =>
    rw [countVolleys]
    by_cases hfits : k ≤ s
    · have hleft : (since - interval).Clock (s - k) := hs.sub hk hfits hlt
      have hdiv : s / k = (s - k) / k + 1 := Nat.div_eq_sub_div hpos hfits
      have hmod : s % k = (s - k) % k := Nat.mod_eq_sub_mod hfits
      rw [if_pos ((hk.toTicks.le_iff hs.toTicks).2 hfits)]
      dsimp only
      by_cases hagain : k ≤ s - k
      · have hless : (since - interval).toBits < since.toBits := hleft.toBits_lt hs (by omega)
        obtain ⟨left, hcount, hrest⟩ := ih (s - k) (by omega) hleft (by omega) (n + 1)
        rw [if_pos ((hk.toTicks.le_iff hleft.toTicks).2 hagain), if_pos hless, hcount, hdiv, hmod]
        exact ⟨left, by rw [Nat.add_right_comm, Nat.add_assoc], hrest⟩
      · have hless : s - k < k := Nat.lt_of_not_le hagain
        rw [if_neg (fun h => hagain ((hk.toTicks.le_iff hleft.toTicks).1 h)), hdiv, hmod, Nat.div_eq_of_lt hless,
          Nat.mod_eq_of_lt hless]
        exact ⟨_, rfl, hleft⟩
    · have hless : s < k := Nat.lt_of_not_le hfits
      rw [if_neg (fun h => hfits ((hk.toTicks.le_iff hs.toTicks).1 h)), Nat.div_eq_of_lt hless,
        Nat.mod_eq_of_lt hless]
      exact ⟨since, rfl, hs⟩

/-! ## Calls -/

/-- How many volleys a call fires. -/
def volleysAt (b : Burst) (call : Call) : ℕ := ((b.due call.delta).map (·.1)).getD 0

/-- What a call fires falls into volleys, in each of which the angles of the pattern have strayed. -/
theorem exists_fired (b : Burst) (call : Call) (position : Vec3) :
    ∃ volleys : List (List Scalar), volleys.length = b.volleysAt call ∧
      (volleys.map (·.map fun d => .projectile position d call.speed b.pattern.lifetime)).flatten =
          (b.fire call position).2 ∧
        ∀ volley ∈ volleys, ∃ random, volley = (b.pattern.strayAll (b.pattern.angles call.direction) random).1 := by
  unfold fire volleysAt
  cases b.due call.delta with
  | none => exact ⟨[], rfl, rfl, List.forall_mem_nil _⟩
  | some due =>
    obtain ⟨n, since⟩ := due
    obtain ⟨volleys, hlength, hflatten, hstray⟩ := b.pattern.exists_directions call.direction n b.random
    exact ⟨volleys, hlength, by rw [← List.map_flatten, hflatten], hstray⟩

/-- A call leaves the pattern as it is. -/
theorem pattern_fire (b : Burst) (call : Call) (position : Vec3) : (b.fire call position).1.pattern = b.pattern := by
  unfold fire
  cases b.due call.delta with
  | none => rfl
  | some due => rfl

/-- **What a call fires are volleys**, whatever time passes, and the pattern stays. -/
theorem isVolleys_fire (b : Burst) (call : Call) (position : Vec3) :
    b.pattern.IsVolleys call position (b.volleysAt call) (b.fire call position).2 ∧
      (b.fire call position).1.pattern = b.pattern := by
  obtain ⟨volleys, hlength, hflatten, hstray⟩ := b.exists_fired call position
  refine ⟨⟨_, (List.length_map _).trans hlength, hflatten, ?_⟩, b.pattern_fire call position⟩
  intro volley hvolley
  obtain ⟨directions, hdirections, rfl⟩ := List.mem_map.1 hvolley
  obtain ⟨random, rfl⟩ := hstray directions hdirections
  refine ⟨by rw [List.length_map, Pattern.length_strayAll, Pattern.length_angles], ?_⟩
  intro command hcommand
  obtain ⟨direction, -, rfl⟩ := List.mem_map.1 hcommand
  exact ⟨direction, rfl⟩

variable {β : Type} [Target β]

/-- The burst after calls, each with the body that is at hand then. -/
def after (b : Burst) (calls : List (Call × β)) : Burst :=
  calls.foldl (fun b c => (b.fire c.1 (Target.position c.2)).1) b

/-- How many volleys calls fire. -/
def volleysOver (b : Burst) : List (Call × β) → ℕ
  | [] => 0
  | c :: calls => b.volleysAt c.1 + volleysOver (b.fire c.1 (Target.position c.2)).1 calls

theorem pattern_after (b : Burst) (calls : List (Call × β)) : (b.after calls).pattern = b.pattern := by
  induction calls generalizing b with
  | nil => rfl
  | cons c calls ih => exact (ih _).trans (isVolleys_fire b c.1 (Target.position c.2)).2

/-- A generator that shoots bursts goes on doing so. -/
theorem call_after (b : Burst) (calls : List (Call × β)) :
    calls.foldl (fun (g : Stock) c => (Generator.call g c.1 c.2).1) (.burst b) = .burst (b.after calls) := by
  induction calls generalizing b with
  | nil => rfl
  | cons c calls ih => exact ih _

/-! ## Cadence -/

variable {b : Burst} {call : Call} {k s : ℕ}

/-- A call that a step asks for fires once and starts the time anew, whatever time there has been. -/
theorem fire_activation (h : call.delta == 0) (position : Vec3) :
    b.volleysAt call = 1 ∧ (b.fire call position).1.since.Clock 0 := by
  have hdue : b.due call.delta = some (1, 0) := if_pos h
  unfold volleysAt fire
  rw [hdue]
  exact ⟨rfl, Scalar.clock_zero⟩

/-- A call for a time fires as often as the interval fits in it and in what has been left. -/
theorem fire_passing (hk : b.pattern.interval.Clock k) (hpos : 0 < k) (hs : b.since.Clock s) {d : ℕ}
    (hd : call.delta.Ticks d) (hdpos : 0 < d) (hlt : s + d < 2 ^ 24) (position : Vec3) :
    b.volleysAt call = (s + d) / k ∧ (b.fire call position).1.since.Clock ((s + d) % k) := by
  have hpassing : (call.delta == 0) = false := by
    rw [Scalar.beq_eq_false_iff hd.finite Scalar.clock_zero.finite, hd.value, Scalar.toRat_zero]
    positivity
  have hinterval : 0 < b.pattern.interval := (Scalar.clock_zero.toTicks.lt_iff hk.toTicks).2 hpos
  obtain ⟨left, hcount, hleft⟩ := countVolleys_eq hk hpos (hs.add hd hlt) hlt 0
  have hdue : b.due call.delta = some ((s + d) / k, left) := by
    unfold due catchUp
    rw [hpassing, if_neg Bool.false_ne_true, if_pos hinterval, hcount, Nat.zero_add]
  unfold volleysAt fire
  rw [hdue]
  exact ⟨rfl, hleft⟩

/-- **Over calls** the volleys are as many as the interval fits in the time, in whatever slices it is passed. -/
theorem volleysOver_eq (hk : b.pattern.interval.Clock k) (hpos : 0 < k) (hs : b.since.Clock s) (hless : s < k)
    {calls : List (Call × β)} (hcalls : ∀ c ∈ calls, c.1.delta.OnGrid ∧ 0 < c.1.delta)
    (hlt : s + (calls.map (·.1.delta.ticks)).sum < 2 ^ 24) :
    b.volleysOver calls = (s + (calls.map (·.1.delta.ticks)).sum) / k := by
  induction calls generalizing b s with
  | nil => rw [volleysOver, List.map_nil, List.sum_nil, Nat.add_zero, Nat.div_eq_of_lt hless]
  | cons c calls ih =>
    obtain ⟨⟨hgrid, hdelta⟩, hrest⟩ := List.forall_mem_cons.1 hcalls
    rw [List.map_cons, List.sum_cons] at hlt ⊢
    have hd : 0 < c.1.delta.ticks := (Scalar.clock_zero.toTicks.lt_iff hgrid.ticks).1 hdelta
    obtain ⟨hvolleys, hsince⟩ :=
      fire_passing hk hpos hs hgrid.ticks hd (by omega) (Target.position c.2)
    have hpattern := (isVolleys_fire b c.1 (Target.position c.2)).2
    rw [← hpattern] at hk
    have hmod := Nat.mod_le (s + c.1.delta.ticks) k
    rw [volleysOver, hvolleys, ih hk hsince (Nat.mod_lt _ hpos) hrest (by omega)]
    -- the quotients add up, because the remainder is what the rest starts from
    generalize (calls.map (·.1.delta.ticks)).sum = rest at *
    calc (s + c.1.delta.ticks) / k + ((s + c.1.delta.ticks) % k + rest) / k
        = (k * ((s + c.1.delta.ticks) / k) + ((s + c.1.delta.ticks) % k + rest)) / k :=
          (Nat.mul_add_div hpos _ _).symm
      _ = (s + (c.1.delta.ticks + rest)) / k := by rw [← Nat.add_assoc, Nat.div_add_mod, Nat.add_assoc]

/-- **Bursts keep their cadence.** Let the interval and the times of the calls after an activation be positive and
whole numbers of ticks, and less than 2 ^ 16 seconds pass in all. Then the generator has fired, since and including
the activation, once and as often again as the interval fits in the time since then. The calls may be any, so this
holds after each of them, and what there has been before the activation does not matter. All that a call sends, then
or at any other time, are volleys of the pattern from where the body is. -/
theorem volleys_keep_cadence (b : Burst) (hinterval : b.pattern.interval.OnGrid)
    (hpositive : 0 < b.pattern.interval) (before : List (Call × β)) (activation : Call × β)
    (hactivation : activation.1.delta == 0) (calls : List (Call × β))
    (hcalls : ∀ c ∈ calls, c.1.delta.OnGrid ∧ 0 < c.1.delta)
    (hsum : (calls.map (·.1.delta.toRat)).sum < 2 ^ 16) :
    (b.after before).volleysOver (activation :: calls) =
        1 + ⌊(calls.map (·.1.delta.toRat)).sum / b.pattern.interval.toRat⌋₊ ∧
      ∀ (done : List (Call × β)) (c : Call × β), ∃ commands,
        Generator.call (done.foldl (fun (g : Stock) c => (Generator.call g c.1 c.2).1) (.burst b)) c.1 c.2 =
            (.burst (b.after (done ++ [c])), c.2, commands) ∧
          b.pattern.IsVolleys c.1 (Target.position c.2) ((b.after done).volleysAt c.1) commands := by
  refine ⟨?_, fun done c => ?_⟩
  · have hpos : 0 < b.pattern.interval.ticks := (Scalar.clock_zero.toTicks.lt_iff hinterval.ticks).1 hpositive
    have hseconds := Scalar.sum_ticks (l := calls) fun c hc => (hcalls c hc).1.ticks.value
    have hlt : (calls.map (·.1.delta.ticks)).sum < 2 ^ 23 := by
      rw [hseconds, div_lt_iff₀ (by norm_num)] at hsum
      have hbound : (2 : ℚ) ^ 16 * 128 = (2 ^ 23 : ℕ) := by norm_num
      rw [hbound] at hsum
      exact Nat.cast_lt.1 hsum
    have hpattern :=
      (isVolleys_fire (b.after before) activation.1 (Target.position activation.2)).2.trans (pattern_after b before)
    obtain ⟨hone, hzero⟩ := fire_activation (b := b.after before) hactivation (Target.position activation.2)
    have hrest : ((b.after before).fire activation.1 (Target.position activation.2)).1.volleysOver calls =
        (calls.map (·.1.delta.ticks)).sum / b.pattern.interval.ticks := by
      have hk : ((b.after before).fire activation.1 (Target.position activation.2)).1.pattern.interval.Clock
          b.pattern.interval.ticks := by
        rw [hpattern]
        exact ⟨hinterval.ticks, fun h => absurd h hpos.ne'⟩
      rw [volleysOver_eq hk hpos hzero hpos hcalls (by omega), Nat.zero_add]
    rw [volleysOver, hone, hrest, hseconds, hinterval.ticks.value, div_div_div_cancel_right₀ (by norm_num),
      Nat.floor_div_natCast, Nat.floor_natCast]
  · rw [call_after]
    obtain ⟨hvolleys, -⟩ := isVolleys_fire (b.after done) c.1 (Target.position c.2)
    rw [pattern_after] at hvolleys
    refine ⟨_, ?_, hvolleys⟩
    rw [after, after, List.foldl_append]
    rfl

/-- A second in three calls, with a volley due every quarter of a second; an eighth has passed since the last volley
when the activation comes. -/
theorem volleys_keep_cadence_of_quarters :
    let b : Burst := .ofPattern { interval := 0.25, count := 3, spread := 90 }
    let call (delta : Scalar) : Call × Body := (⟨delta, 4, 0⟩, {})
    (b.after [call 0.125]).volleysOver (call 0 :: [call 0.125, call 0.125, call 0.75]) = 5 := by
  intro b call
  have height : (0.125 : Scalar).toRat = 8388608 * 2 ^ (-26 : ℤ) := rfl
  have hquarter : (0.25 : Scalar).toRat = 8388608 * 2 ^ (-25 : ℤ) := rfl
  have hlong : (0.75 : Scalar).toRat = 12582912 * 2 ^ (-24 : ℤ) := rfl
  have geighth : (0.125 : Scalar).OnGrid := ⟨rfl, 16, by rw [height]; norm_num⟩
  have gquarter : (0.25 : Scalar).OnGrid := ⟨rfl, 32, by rw [hquarter]; norm_num⟩
  have glong : (0.75 : Scalar).OnGrid := ⟨rfl, 96, by rw [hlong]; norm_num⟩
  have hcalls : ∀ c ∈ [call 0.125, call 0.125, call 0.75], c.1.delta.OnGrid ∧ 0 < c.1.delta := by
    have heighth : (0 : Scalar) < 0.125 := by decide +kernel
    have hlong : (0 : Scalar) < 0.75 := by decide +kernel
    simp only [List.forall_mem_cons]
    exact ⟨⟨geighth, heighth⟩, ⟨geighth, heighth⟩, ⟨glong, hlong⟩, List.forall_mem_nil _⟩
  have hsum : ([call 0.125, call 0.125, call 0.75].map (·.1.delta.toRat)).sum = 1 := by
    simp only [call, List.map_cons, List.map_nil, List.sum_cons, List.sum_nil, height, hlong]
    norm_num
  have hlt : ([call 0.125, call 0.125, call 0.75].map (·.1.delta.toRat)).sum < 2 ^ 16 := by
    rw [hsum]
    norm_num
  have hpositive : 0 < b.pattern.interval := by decide +kernel
  have hactivation : (call 0).1.delta == 0 := by decide +kernel
  have hcadence := (volleys_keep_cadence b gquarter hpositive [call 0.125] (call 0) hactivation _ hcalls hlt).1
  have hinterval : b.pattern.interval.toRat = 1 / 4 := by
    change (0.25 : Scalar).toRat = 1 / 4
    rw [hquarter]
    norm_num
  rw [hcadence, hsum, hinterval]
  norm_num

end Burst

end MotionScript
