import MotionScript.Proofs.Scalar.Narrow
import MotionScript.Settings.Config
import Mathlib.Data.List.Basic

/-!
# The range of settings

A configuration is loaded again and again, from texts and from files, and each load sets what its text sets. So every
setting is the one that was last taken, but a value is only checked as it is written, before it is cut to its field.

* `field_after`: every setting is that of the last text that has it.
* `samples_written`, `timeScale_nonneg`, `threshold_le_one`: the ranges that no load leaves.
* `in_range_iff`: when the settings are in their ranges, and are those that are written.
-/

namespace MotionScript.Config

open Scalar

/-! ## Loads -/

/-- What a configuration is loaded from: a text, or what its file holds, if that can be read. -/
inductive Source where
  | text (contents : String)
  | file (contents : Except FileError String)

/-- Loading: the configuration afterwards, and what came of it. -/
def attempt (c : Config) : Source → Config × Except ConfigError Unit
  | .text contents => c.loadText contents
  | .file contents => c.loadFile contents

/-- The configuration after loading. -/
def load (c : Config) (source : Source) : Config := (c.attempt source).1

/-- The default configuration with its file at a path, after it is loaded from these sources. -/
def after (path : String) (sources : List Source) : Config := sources.foldl load { configPath := path }

/-- The settings of a source that is not malformed. -/
def Source.ini? : Source → Option Ini
  | text contents => (Ini.parse contents).toOption
  | file (.ok contents) => (Ini.parse contents).toOption
  | file (.error _) => none

/-- Loading takes over what has been read from the source. -/
theorem exists_attempt_eq_take (c : Config) (source : Source) :
    ∃ read, c.attempt source = c.take read ∧ read.toOption = source.ini? := by
  cases source with
  | text contents =>
    refine ⟨_, rfl, ?_⟩
    rw [Source.ini?]
    cases Ini.parse contents <;> rfl
  | file contents =>
    refine ⟨_, rfl, ?_⟩
    cases contents with
    | error e => rfl
    | ok contents =>
      rw [Source.ini?]
      show ((Ini.parse contents).mapError _).toOption = _
      cases Ini.parse contents <;> rfl

theorem load_eq (c : Config) (source : Source) : c.load source = (source.ini?.map c.apply).getD c := by
  obtain ⟨read, hattempt, hread⟩ := exists_attempt_eq_take c source
  rw [load, hattempt, ← hread]
  cases read <;> rfl

/-- The last value of a setting in the sources. -/
def lastTaken {α : Type} (setting : Ini → Option α) (sources : List Source) : Option α :=
  ((sources.filterMap Source.ini?).filterMap setting).getLast?

theorem lastTaken_concat {α : Type} (setting : Ini → Option α) (sources : List Source) (source : Source) :
    lastTaken setting (sources ++ [source]) = (source.ini?.bind setting).or (lastTaken setting sources) := by
  unfold lastTaken
  rw [List.filterMap_append, List.filterMap_append, List.getLast?_append]
  congr 1
  cases hsource : source.ini? with
  | none =>
    rw [List.filterMap_cons_none hsource]
    rfl
  | some ini =>
    rw [List.filterMap_cons_some hsource, Option.bind_some]
    cases hsetting : setting ini with
    | none =>
      rw [List.filterMap_cons_none hsetting]
      rfl
    | some a =>
      rw [List.filterMap_cons_some hsetting]
      rfl

/-- **Every setting is that of the last text that has it**, and the default one if none has. -/
theorem field_after {α β : Type} {field : Config → β} {setting : Ini → Option α} {cut : α → β}
    (h : ∀ c ini, field (c.apply ini) = ((setting ini).map cut).getD (field c)) (path : String) (sources : List Source) :
    field (after path sources) = ((lastTaken setting sources).map cut).getD (field { configPath := path }) := by
  -- by the loads from the last one back: a load is only seen if its text has the setting
  induction sources using List.reverseRecOn with
  | nil => rfl
  | append_singleton sources source ih =>
    have hafter : after path (sources ++ [source]) = (after path sources).load source := List.foldl_concat ..
    rw [hafter, load_eq, lastTaken_concat]
    cases source.ini? with
    | none => exact ih
    | some ini =>
      show field ((after path sources).apply ini) = _
      rw [h, ih, Option.bind_some]
      cases setting ini with
      | none => rfl
      | some a => rfl

/-- What is taken is a setting of some text. -/
theorem exists_of_lastTaken {α : Type} {setting : Ini → Option α} {sources : List Source} {a : α}
    (h : a ∈ lastTaken setting sources) : ∃ ini, setting ini = some a := by
  obtain ⟨ini, -, hini⟩ := List.mem_filterMap.1 (List.mem_of_getLast? h)
  exact ⟨ini, hini⟩

/-! ## Settings -/

/-- A setting that is a number in a range, as it is written. -/
def float? (ini : Ini) (heading key : String) (inRange : Float → Bool) : Option Float := do
  let x := (← Numeral.read? (← ini.get? heading key).toList).toFloat
  if inRange x then some x else none

theorem number?_eq (ini : Ini) (heading key : String) (inRange : Float → Bool) :
    number? ini heading key inRange = (float? ini heading key inRange).map narrow := by
  unfold number? float?
  cases ini.get? heading key with
  | none => rfl
  | some value =>
    cases h : Numeral.read? value.toList with
    | none => simp [h]
    | some n =>
      simp only [h, Option.bind_eq_bind, Option.bind_some]
      cases inRange n.toFloat with
      | false => rfl
      | true => rfl

theorem inRange_of_float? {ini : Ini} {heading key : String} {inRange : Float → Bool} {x : Float}
    (h : float? ini heading key inRange = some x) : inRange x := by
  unfold float? at h
  cases hvalue : ini.get? heading key with
  | none => simp [hvalue] at h
  | some value =>
    cases hread : Numeral.read? value.toList with
    | none => simp [hvalue, hread] at h
    | some n =>
      simp only [hvalue, hread, Option.bind_eq_bind, Option.bind_some] at h
      split at h
      · next hin =>
        cases h
        exact hin
      · cases h

theorem natural?_lt {bound n : ℕ} {cs : List Char} (h : natural? bound cs = some n) : n < bound := by
  simp only [natural?, Option.ite_none_left_eq_some, Option.ite_none_right_eq_some, Option.some.injEq] at h
  obtain ⟨-, hlt, rfl⟩ := h
  exact hlt

theorem positive?_bounds {ini : Ini} {heading key : String} {n : ℕ} (h : positive? ini heading key = some n) :
    0 < n ∧ n < 2 ^ 64 := by
  unfold positive? at h
  cases hvalue : ini.get? heading key with
  | none => simp [hvalue] at h
  | some value =>
    cases hread : natural? UInt64.size value.toList with
    | none => simp [hvalue, hread] at h
    | some m =>
      simp only [hvalue, hread, Option.bind_eq_bind, Option.bind_some] at h
      split at h
      · next hpos =>
        cases h
        exact ⟨hpos, natural?_lt hread⟩
      · cases h

/-! ## Ranges -/

/-- **The ranges of settings.** -/
structure InRange (c : Config) : Prop where
  fps : 1 ≤ c.fps
  samplesPerPoint : 1 ≤ c.curve.samplesPerPoint
  timeScale : 0 ≤ c.timeScale
  threshold_pos : 0 < c.curve.threshold
  threshold_le : c.curve.threshold ≤ 1

theorem toNat_toUInt64 {n : ℕ} (h : n < 2 ^ 64) : n.toUInt64.toNat = n := Nat.mod_eq_of_lt h

theorem toNat_toUInt32_eq_iff (n : ℕ) : n.toUInt32.toNat = n ↔ n < 2 ^ 32 := Nat.mod_eq_iff_lt (by norm_num)

/-- The frame rate, cut to its word. -/
theorem fps_after (path : String) (sources : List Source) : (after path sources).fps =
    ((lastTaken (positive? · "simulation" "fps") sources).map Nat.toUInt32).getD 60 :=
  @field_after _ _ Config.fps _ _ (fun _ _ => rfl) path sources

/-- The samples, whose word has room for any that are taken. -/
theorem samplesPerPoint_after (path : String) (sources : List Source) : (after path sources).curve.samplesPerPoint =
    ((lastTaken (positive? · "path" "samples_per_point") sources).map Nat.toUInt64).getD 16 :=
  @field_after _ _ (fun c => c.curve.samplesPerPoint) _ _ (fun _ _ => rfl) path sources

/-- The speed, narrowed. -/
theorem timeScale_after (path : String) (sources : List Source) : (after path sources).timeScale =
    ((lastTaken (float? · "simulation" "time_scale" fun x => 0 ≤ x) sources).map narrow).getD 1 :=
  @field_after _ _ Config.timeScale _ _ (fun c ini => by rw [← number?_eq]; rfl) path sources

/-- The threshold, narrowed. -/
theorem threshold_after (path : String) (sources : List Source) : (after path sources).curve.threshold =
    ((lastTaken (float? · "path" "collinear_threshold" fun x => 0 < x ∧ x ≤ 1) sources).map narrow).getD 0.999 :=
  @field_after _ _ (fun c => c.curve.threshold) _ _ (fun c ini => by rw [← number?_eq]; rfl) path sources

theorem samples_written (path : String) (sources : List Source) : 1 ≤ (after path sources).curve.samplesPerPoint ∧
    ∀ n ∈ lastTaken (positive? · "path" "samples_per_point") sources,
      (after path sources).curve.samplesPerPoint.toNat = n := by
  rw [samplesPerPoint_after]
  cases htaken : lastTaken (positive? · "path" "samples_per_point") sources with
  | none => exact ⟨by decide, fun n hn => by cases hn⟩
  | some n =>
    obtain ⟨hpos, hlt⟩ := positive?_bounds (exists_of_lastTaken htaken).choose_spec
    have hword := toNat_toUInt64 hlt
    refine ⟨?_, fun m hm => ?_⟩
    · rw [UInt64.le_iff_toNat_le]
      exact hpos.trans_eq hword.symm
    · cases hm
      exact hword

theorem timeScale_nonneg (path : String) (sources : List Source) : 0 ≤ (after path sources).timeScale := by
  rw [timeScale_after]
  cases htaken : lastTaken (float? · "simulation" "time_scale" fun x => 0 ≤ x) sources with
  | none => decide +kernel
  | some x => exact zero_le_narrow (of_decide_eq_true (inRange_of_float? (exists_of_lastTaken htaken).choose_spec))

/-- Thresholds that are taken are in the unit interval, as they are written. -/
theorem unit_of_lastTaken {sources : List Source} {x : Float}
    (h : x ∈ lastTaken (float? · "path" "collinear_threshold" fun x => 0 < x ∧ x ≤ 1) sources) : 0 < x ∧ x ≤ 1 :=
  of_decide_eq_true (inRange_of_float? (exists_of_lastTaken h).choose_spec)

theorem threshold_le_one (path : String) (sources : List Source) : (after path sources).curve.threshold ≤ 1 := by
  rw [threshold_after]
  cases htaken : lastTaken (float? · "path" "collinear_threshold" fun x => 0 < x ∧ x ≤ 1) sources with
  | none => decide +kernel
  | some x => exact narrow_le_one (unit_of_lastTaken htaken).1 (unit_of_lastTaken htaken).2

/-- **When settings are in their ranges**, after any loads. The samples, the speed and the upper bound of the threshold
always are, and the samples are those that are written. The frame rate is the one that is written, and the threshold
greater than zero, just if the frame rate that was last taken fits in its word, and the threshold that was last taken
is greater than half of the least scalar. -/
theorem in_range_iff (path : String) (sources : List Source) :
    let c := after path sources
    let fps := lastTaken (positive? · "simulation" "fps") sources
    let samples := lastTaken (positive? · "path" "samples_per_point") sources
    let threshold := lastTaken (float? · "path" "collinear_threshold" fun x => 0 < x ∧ x ≤ 1) sources
    (1 ≤ c.curve.samplesPerPoint ∧ (∀ n ∈ samples, c.curve.samplesPerPoint.toNat = n) ∧ 0 ≤ c.timeScale ∧
      c.curve.threshold ≤ 1) ∧
    (c.InRange ∧ (∀ n ∈ fps, c.fps.toNat = n) ↔
      (∀ n ∈ fps, n < 2 ^ 32) ∧ ∀ x ∈ threshold, .ofBits 0x3690000000000000 < x) := by
  intro c fps samples threshold
  have hfps : c.fps = (fps.map Nat.toUInt32).getD 60 := fps_after path sources
  have hthreshold : c.curve.threshold = (threshold.map narrow).getD 0.999 := threshold_after path sources
  obtain ⟨hsamples, hsampled⟩ := samples_written path sources
  have hspeed : 0 ≤ c.timeScale := timeScale_nonneg path sources
  have hupper : c.curve.threshold ≤ 1 := threshold_le_one path sources
  refine ⟨⟨hsamples, hsampled, hspeed, hupper⟩, ?_, ?_⟩
  · rintro ⟨hrange, hwritten⟩
    refine ⟨fun n hn => ?_, fun x hx => ?_⟩
    · have heq := hwritten n hn
      rw [hfps, hn] at heq
      exact (toNat_toUInt32_eq_iff n).1 heq
    · have hpos := hrange.threshold_pos
      rw [hthreshold, hx] at hpos
      exact (zero_lt_narrow_iff (unit_of_lastTaken hx).1).1 hpos
  · rintro ⟨hfits, hgreat⟩
    have hwritten : ∀ n ∈ fps, c.fps.toNat = n := by
      intro n hn
      rw [hfps, hn]
      exact (toNat_toUInt32_eq_iff n).2 (hfits n hn)
    refine ⟨⟨?_, hsamples, hspeed, ?_, hupper⟩, hwritten⟩
    · cases htaken : fps with
      | none =>
        rw [hfps, htaken]
        decide
      | some n =>
        rw [UInt32.le_iff_toNat_le, hwritten n htaken]
        exact (positive?_bounds (exists_of_lastTaken htaken).choose_spec).1
    · rw [hthreshold]
      cases htaken : threshold with
      | none => decide +kernel
      | some x => exact (zero_lt_narrow_iff (unit_of_lastTaken htaken).1).2 (hgreat x htaken)

/-- **Settings that are not in their ranges.** A frame rate of two to the thirty-second is cut to zero, and a tiny
threshold is rounded to zero. -/
theorem cut_out_of_range :
    ¬(after "./config.ini" [.text "[simulation]\nfps = 4294967296\n"]).InRange ∧
    ¬(after "./config.ini" [.text "[path]\ncollinear_threshold = 1e-50\n"]).InRange := by
  refine ⟨fun h => ?_, fun h => ?_⟩
  · exact absurd h.fps (by decide +kernel)
  · exact absurd h.threshold_pos (by decide +kernel)

end MotionScript.Config
