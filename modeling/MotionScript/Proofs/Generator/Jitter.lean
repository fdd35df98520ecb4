import MotionScript.Proofs.Generator.Cadence
import MotionScript.Proofs.Scalar.Monotone

/-!
# How far shots stray

A shot strays from its angle by the jitter times a random number from minus one to below one. Every step of that is
rounded, and rounding keeps order, so no shot strays beyond the jitter to either side, as the bounds are rounded
themselves.

* `Random.unit_bounds`: random numbers are from zero to below one.
* `Pattern.stray_bounds`: an angle that is a number strays by no more than the jitter.
* `Pattern.not_isNaN_angle`: when the angles of a volley are numbers.
* `Burst.jitter_bounded`: in all that a burst ever fires each shot is near its angle.
-/

namespace MotionScript

open Scalar (toRat Within)

/-! ## Random numbers -/

namespace Random

/-- A word without its last bit is less than two to the 63rd, to which it is scaled. -/
theorem scaled_bounds (w : UInt64) :
    Within 0 ((w >>> 1).toFloat32 * .ofBits 0x20000000) ∧ 0 ≤ toRat ((w >>> 1).toFloat32 * .ofBits 0x20000000) := by
  have hscale : toRat (.ofBits 0x20000000) = 2 ^ (-63 : ℤ) := by decide +kernel
  have hword : (w >>> 1).toNat ≤ 2 ^ 63 := by
    have hlt := w.toNat_lt
    have hshift : (w >>> 1).toNat = w.toNat >>> 1 := UInt64.toNat_shiftRight w 1
    rw [hshift, Nat.shiftRight_eq_div_pow]
    omega
  have hexact : |((w >>> 1).toNat : ℚ)| ≤ 2 ^ 63 := by
    rw [abs_of_nonneg (Nat.cast_nonneg _)]
    exact_mod_cast hword
  obtain ⟨u, hu, hholds⟩ := Scalar.toFloat32_holds (w >>> 1)
  obtain ⟨hwithin, hval⟩ := hholds.within hexact (by norm_num)
  have h0 : 0 ≤ toRat (.ofParts u) := by
    rw [hval]
    exact Scalar.nearest_nonneg (Nat.cast_nonneg _)
  have hproduct : |toRat (.ofParts u) * toRat (.ofBits 0x20000000)| ≤ 2 ^ 0 := by
    have hpower : (0 : ℚ) < 2 ^ (-63 : ℤ) := zpow_pos two_pos _
    rw [hscale, abs_mul, abs_of_pos hpower]
    calc |toRat (.ofParts u)| * 2 ^ (-63 : ℤ) ≤ 2 ^ 63 * 2 ^ (-63 : ℤ) :=
          mul_le_mul_of_nonneg_right hwithin.abs_le hpower.le
      _ = 2 ^ 0 := by norm_num
  rw [hu]
  obtain ⟨hscaled, hvalue⟩ := Scalar.mul_within hwithin.finite rfl hproduct (by norm_num)
  refine ⟨hscaled, ?_⟩
  rw [hvalue, hscale]
  exact Scalar.nearest_nonneg (mul_nonneg h0 (zpow_nonneg zero_le_two _))

/-- **Random numbers are from zero to below one**, however many words it takes to find one. -/
theorem unitWithin_bounds (draws : ℕ) (r : Random) :
    (unitWithin draws r).1.isFinite ∧ 0 ≤ (unitWithin draws r).1.toRat ∧ (unitWithin draws r).1.toRat < 1 := by
  induction draws generalizing r with
  | zero =>
    have hzero : (unitWithin 0 r).1 = 0 := rfl
    rw [hzero, Scalar.toRat_zero]
    exact ⟨rfl, le_rfl, one_pos⟩
  | succ draws ih =>
    obtain ⟨hwithin, h0⟩ := scaled_bounds r.word.1
    unfold unitWithin
    dsimp only
    split
    · exact ih r.word.2
    · next hless =>
      refine ⟨hwithin.finite, h0, not_le.1 fun hge => hless ?_⟩
      rwa [Scalar.le_iff Scalar.within_one.finite hwithin.finite, Scalar.toRat_one]

theorem unit_bounds (r : Random) : r.unit.1.isFinite ∧ 0 ≤ r.unit.1.toRat ∧ r.unit.1.toRat < 1 := by
  rw [unit]
  exact unitWithin_bounds UInt64.size r

end Random

/-! ## Shots that stray -/

namespace Pattern

variable {p : Pattern}

/-- Twice a number between zero and one, less one, is from minus one to one. -/
theorem within_centred {x : Scalar} (hx : x.isFinite) (h0 : 0 ≤ x.toRat) (h1 : x.toRat < 1) :
    Within 0 (x * 2 - 1) := by
  have htwo : toRat 2 = 2 := by decide +kernel
  have hexact : |x.toRat * toRat 2| ≤ 2 ^ 1 := by
    rw [htwo, abs_of_nonneg (by linarith)]
    linarith
  obtain ⟨hwithin, hval⟩ := Scalar.mul_within hx rfl hexact (by norm_num)
  have hdouble : 0 ≤ (x * 2).toRat := by
    rw [hval, htwo]
    exact Scalar.nearest_nonneg (by linarith)
  have hle := (abs_le.1 hwithin.abs_le).2
  rw [Scalar.sub_eq_add_neg]
  refine (Scalar.add_within hwithin.finite (Scalar.isFinite_neg Scalar.within_one.finite) ?_ (by norm_num)).1
  rw [Scalar.toRat_neg, Scalar.toRat_one, abs_le]
  constructor <;> linarith

theorem stray_of_pos (hpos : 0 < p.jitter) (a : Scalar) (random : Random) :
    (p.stray a random).1 = a + (random.unit.1 * 2 - 1) * p.jitter := by
  unfold stray
  -- whatever number is drawn
  generalize random.unit = drawn
  obtain ⟨x, rest⟩ := drawn
  rw [if_pos hpos]

/-- **An angle strays by no more than the jitter**, the bounds rounded. -/
theorem stray_bounds (hpos : 0 < p.jitter) (hfinite : p.jitter.isFinite) {a : Scalar} (ha : ¬a.isNaN)
    (random : Random) : a - p.jitter ≤ (p.stray a random).1 ∧ (p.stray a random).1 ≤ a + p.jitter := by
  have hj : 0 ≤ p.jitter.toRat := ((Scalar.lt_iff rfl hfinite).1 hpos).le
  obtain ⟨hunit, h0, h1⟩ := random.unit_bounds
  obtain ⟨hoffset, habs⟩ := Scalar.abs_mul_le_of_within_one (within_centred hunit h0 h1) hfinite
  rw [abs_of_nonneg hj] at habs
  obtain ⟨hlow, hhigh⟩ := abs_le.1 habs
  rw [stray_of_pos hpos, Scalar.sub_eq_add_neg]
  constructor
  · apply Scalar.add_le_add_of_toRat_le ha (Scalar.isFinite_neg hfinite) hoffset
    rwa [Scalar.toRat_neg]
  · exact Scalar.add_le_add_of_toRat_le ha hoffset hfinite hhigh

/-- What holds of each angle after it has strayed holds of a list of angles, one by one. -/
theorem forall₂_strayAll {P : Scalar → Scalar → Prop} (h : ∀ a random, P a (p.stray a random).1)
    (angles : List Scalar) (random : Random) : List.Forall₂ P angles (p.strayAll angles random).1 := by
  induction angles generalizing random with
  | nil => exact .nil
  | cons a as ih =>
    simp only [strayAll]
    exact .cons (h a random) (ih (p.stray a random).2)

/-! ## Angles -/

/-- **An angle is a number**, unless the spread is negative and so large that the first angle is infinite. -/
theorem not_isNaN_angle {direction : Scalar} (hspread : p.spread.isFinite) (hdirection : direction.isFinite)
    (hcount : p.count ≤ 2 ^ 64) (h : 0 ≤ p.spread ∨ (direction - p.spread / 2).isFinite) {index : ℕ}
    (hindex : index < p.count) : ¬(p.angle direction index).isNaN := by
  have hturn : toRat 360 = 360 := by decide +kernel
  obtain ⟨hi, -⟩ := Scalar.ofNat_bounds (hindex.le.trans hcount)
  unfold angle
  split_ifs with hcircle hone
  · have hwithin : Within 9 (360 : Scalar) := ⟨rfl, by rw [hturn]; norm_num⟩
    obtain ⟨hn, hn1⟩ := Scalar.ofNat_bounds hcount
    have hpart := (hi.mul hwithin (by norm_num)).div hn.finite (hn1 (by omega)) (by norm_num)
    exact (Scalar.not_isNaN_add (Scalar.not_isNaN_of_isFinite hdirection) hpart.finite).1
  · exact Scalar.not_isNaN_of_isFinite hdirection
  · have hbase : ¬(direction - p.spread / 2).isNaN := Scalar.not_isNaN_sub hdirection (Scalar.isFinite_half hspread)
    obtain ⟨hn, hn1⟩ := Scalar.ofNat_bounds (n := p.count - 1) (by omega)
    have hlast := hn1 (by omega)
    rcases h with hnonneg | hbase
    · -- a fan that is no circle has finite parts
      have hless : p.spread.toRat < 360 := by
        rw [Scalar.le_iff rfl hspread, hturn] at hcircle
        exact not_le.1 hcircle
      have h0 : 0 ≤ p.spread.toRat := (Scalar.le_iff rfl hspread).1 hnonneg
      have hwithin : Within 9 p.spread := ⟨hspread, by rw [abs_of_nonneg h0]; linarith⟩
      have hpart := (hi.mul hwithin (by norm_num)).div hn.finite hlast (by norm_num)
      exact (Scalar.not_isNaN_add hbase hpart.finite).1
    · have hproduct := (Scalar.mul_holds hi.finite hspread).not_isNaN
      have hpart := Scalar.not_isNaN_div hproduct hn.finite (by linarith)
      exact (Scalar.not_isNaN_add hpart hbase).2

end Pattern

/-! ## Bursts -/

namespace Burst

variable {β : Type} [Target β]

/-- **No shot strays beyond the jitter.** Let the jitter of a pattern be positive and finite, and let a burst of it
have had any calls. What the next call sends are volleys, and in each of them the shots come from the angles of the
pattern in turn: one whose angle is a number flies in a direction between the angle less the jitter and the angle
plus the jitter, as these are rounded. The angles are numbers if the spread and the direction are finite, unless the
spread is negative and half of it is too far from the direction to be told. -/
theorem jitter_bounded (p : Pattern) (hpos : 0 < p.jitter) (hfinite : p.jitter.isFinite) (done : List (Call × β))
    (call : Call) (body : β) :
    let g := done.foldl (fun (g : Stock) c => (Generator.call g c.1 c.2).1) (.burst (.ofPattern p))
    (∃ volleys : List (List Command), volleys.flatten = (Generator.call g call body).2.2 ∧
      ∀ volley ∈ volleys, List.Forall₂
        (fun angle command => ∃ direction,
          command = .projectile (Target.position body) direction call.speed p.lifetime ∧
            (¬angle.isNaN → angle - p.jitter ≤ direction ∧ direction ≤ angle + p.jitter))
        (p.angles call.direction) volley) ∧
      (p.spread.isFinite → call.direction.isFinite → p.count ≤ 2 ^ 64 →
        0 ≤ p.spread ∨ (call.direction - p.spread / 2).isFinite → ∀ angle ∈ p.angles call.direction, ¬angle.isNaN) := by
  intro g
  constructor
  · have hcall : (Generator.call g call body).2.2 =
        (((ofPattern p).after done).fire call (Target.position body)).2 := by
      rw [show g = _ from call_after _ _]
      rfl
    obtain ⟨volleys, -, hflatten, hstray⟩ :=
      ((ofPattern p).after done).exists_fired call (Target.position body)
    rw [pattern_after] at hflatten hstray
    refine ⟨_, hflatten.trans hcall.symm, ?_⟩
    intro volley hvolley
    obtain ⟨directions, hdirections, rfl⟩ := List.mem_map.1 hvolley
    obtain ⟨random, rfl⟩ := hstray directions hdirections
    rw [List.forall₂_map_right_iff]
    exact Pattern.forall₂_strayAll
      (fun a random => ⟨_, rfl, fun ha => Pattern.stray_bounds hpos hfinite ha random⟩) _ random
  · intro hspread hdirection hcount h angle hangle
    obtain ⟨index, hindex, rfl⟩ := List.mem_map.1 hangle
    exact Pattern.not_isNaN_angle hspread hdirection hcount h (List.mem_range.1 hindex)

/-- Two volleys out of one long frame: three shots each, around ninety degrees. -/
theorem jitter_bounded_of_fan :
    let p : Pattern := { interval := 0.5, count := 3, spread := 30, jitter := 5, seed := 7 }
    let commands := (Generator.call (Stock.burst (.ofPattern p)) ⟨1.25, 4, 90⟩ ({} : Body)).2.2
    commands.length = 6 ∧ (∀ angle ∈ p.angles 90, ¬angle.isNaN) ∧
      ∃ volleys : List (List Command), volleys.flatten = commands ∧
        ∀ volley ∈ volleys, List.Forall₂
          (fun angle command => ∃ direction, command = .projectile ⟨0, 0, 0⟩ direction 4 none ∧
            (¬angle.isNaN → angle - 5 ≤ direction ∧ direction ≤ angle + 5))
          (p.angles 90) volley := by
  intro p commands
  have hpos : 0 < p.jitter := by decide +kernel
  have hjitter : p.jitter.isFinite := by decide +kernel
  have hspread : p.spread.isFinite ∧ 0 ≤ p.spread := by decide +kernel
  have hdirection : Float32.isFinite 90 := by decide +kernel
  obtain ⟨hvolleys, hangles⟩ := jitter_bounded p hpos hjitter [] ⟨1.25, 4, 90⟩ ({} : Body)
  exact ⟨by decide +kernel, hangles hspread.1 hdirection (by decide) (.inl hspread.2), hvolleys⟩

/-- A fan that is too wide to be told: its first angles are infinite, and the others are infinity less infinity, which
is not a number and near nothing. -/
theorem not_near_of_infinite_fan :
    let p : Pattern := { count := 4, spread := -3e38, jitter := 1, seed := 7 }
    let call : Call := ⟨0, 1, 3e38⟩
    p.spread.isFinite ∧ p.jitter.isFinite ∧ 0 < p.jitter ∧ call.direction.isFinite ∧
      ∃ angle direction, (p.angles call.direction)[2]? = some angle ∧
        (Generator.call (Stock.burst (.ofPattern p)) call ({} : Body)).2.2[2]? =
            some (.projectile ⟨0, 0, 0⟩ direction 1 none) ∧
          ¬(angle - p.jitter ≤ direction ∧ direction ≤ angle + p.jitter) := by
  intro p call
  refine ⟨by decide +kernel, by decide +kernel, by decide +kernel, by decide +kernel, Scalar.nan, Scalar.nan, ?_⟩
  decide +kernel

end Burst

end MotionScript
