import MotionScript.Proofs.Curve.PathTable
import MotionScript.Proofs.Settings.RoundTrip

/-!
# How many samples a spline gets

A path asks for so many samples of a spline for each control point. Their number is counted in a word of 64 bits, and
the list of them takes room. Settings are accepted up to the greatest word, so the product may fit neither, and then the
run breaks off.

* `Config.accepted_iff`: the settings that are accepted from a file.
* `length_samples`: the samples that are drawn.
* `sampleCount?_eq_some_iff`: when the samples that are asked for can be counted.
* `rebuild?_spline`: a table of a spline is made of the samples that are asked for, or there is none.
* `drawn?_mono`: finer settings draw no fewer samples.
* `sampled_as_asked_iff`: when a spline is sampled as it is asked for.
-/

namespace MotionScript

namespace Config

/-! ## Settings that are accepted -/

/-- Some file makes every configuration take this number of samples for each control point. -/
def Accepted (samples : UInt64) : Prop :=
  ∃ text, ∀ c : Config, (c.load (.file (.ok text))).curve.samplesPerPoint = samples

/-- The text with one setting, which is the number of samples. -/
def samplesText (samples : UInt64) : String :=
  Ini.render [("path", [("samples_per_point", toString samples.toNat)])]

theorem load_samplesText (c : Config) {samples : UInt64} (h : 0 < samples) :
    (c.load (.file (.ok (samplesText samples)))).curve.samplesPerPoint = samples := by
  have hnames : Ini.Plain "path" ∧ "samples_per_point".toList ≠ [] ∧ Ini.Plain "samples_per_point" := by decide
  have hreadable : ∀ s ∈ [("path", [("samples_per_point", toString samples.toNat)])], Ini.ReadableSection s := by
    rw [List.forall_mem_singleton]
    refine ⟨hnames.1, ?_, ?_⟩ <;> rw [List.forall_mem_singleton]
    · exact hnames.2
    · exact readable_of_inNumber (inNumber_natural samples.toNat)
  have hparse := Ini.parse_render hreadable
  rw [List.flatMap_singleton, Ini.sectionSettings, List.map_singleton] at hparse
  have hget : (Ini.mk [⟨"path", "samples_per_point", some (toString samples.toNat)⟩]).get? "path" "samples_per_point" =
      some (toString samples.toNat) := by
    apply Ini.get?_eq_some
    · rw [List.map_singleton]
      exact List.nodup_singleton _
    · exact List.mem_singleton_self _
  have hpositive := positive?_of_get? hget (UInt64.lt_iff_toNat_lt.1 h) samples.toNat_lt
  have hini : (Source.file (.ok (samplesText samples))).ini? =
      some (Ini.mk [⟨"path", "samples_per_point", some (toString samples.toNat)⟩]) := by
    rw [Source.ini?, samplesText, hparse]
    rfl
  rw [load_eq, hini, Option.map_some, Option.getD_some, apply, hpositive]
  exact UInt64.ofNat_toNat

/-- **Every number of samples but zero is accepted**, up to the greatest word. -/
theorem accepted_iff (samples : UInt64) : Accepted samples ↔ 0 < samples := by
  refine ⟨fun ⟨text, h⟩ => ?_, fun h => ⟨samplesText samples, fun c => load_samplesText c h⟩⟩
  have hrange := (samples_written "./config.ini" [.file (.ok text)]).1
  rw [show (after "./config.ini" [.file (.ok text)]).curve.samplesPerPoint = samples from h _] at hrange
  rw [UInt64.le_iff_toNat_le] at hrange
  exact UInt64.lt_iff_toNat_lt.2 hrange

end Config

namespace PathTable

/-! ## Samples that are drawn -/

/-- The settings with another number of samples for each control point. -/
def sampling (settings : CurveSettings) (samples : UInt64) : CurveSettings :=
  { settings with samplesPerPoint := samples }

theorem length_samples {points : List Vec2} (h : points ≠ []) (segments : ℕ) :
    (Spline.samples points segments).length = max (max segments points.length) 2 := by
  obtain ⟨last, hlast⟩ := Option.ne_none_iff_exists'.1 (mt List.getLast?_eq_none_iff.1 h)
  simp only [Spline.samples, hlast, Spline.sampleCount, List.size_toArray, List.length_append, List.length_map,
    List.length_range, List.length_singleton]
  omega

/-- The number of samples that are drawn of a spline, if they can be drawn. -/
def drawn? (settings : CurveSettings) (points : List Vec2) : Option ℕ := do
  let count ← sampleCount? settings points.length
  let samples ← Spline.samples? points count
  return samples.length

variable {settings : CurveSettings} {points : List Vec2}

/-- **The samples that are asked for can be counted** just if their number fits in a word. -/
theorem sampleCount?_eq_some_iff {n : ℕ} :
    sampleCount? settings n = some (n * settings.samplesPerPoint.toNat) ↔ n * settings.samplesPerPoint.toNat < 2 ^ 64 := by
  rw [sampleCount?_eq]
  exact ⟨fun h => (Option.ite_none_right_eq_some.1 h).1, fun h => if_pos h⟩

theorem hasRoom_length_iff (hne : points ≠ []) (segments : ℕ) :
    Spline.hasRoom points.length segments ↔ max (max segments points.length) 2 < 2 ^ 60 := by
  have hpos : points.length ≠ 0 := mt List.length_eq_zero_iff.1 hne
  rw [hasRoom_iff, or_iff_right hpos, Spline.sampleCount]

/-- **What is drawn**: as many samples as are asked for, though one for each point and two in all at least, if there is
room for them. -/
theorem drawn?_eq_some_iff (hne : points ≠ []) {drawn : ℕ} : drawn? settings points = some drawn ↔
    drawn < 2 ^ 60 ∧ drawn = max (max (points.length * settings.samplesPerPoint.toNat) points.length) 2 := by
  rw [drawn?, sampleCount?_eq]
  split
  · simp only [Option.bind_eq_bind, Option.bind_some, Spline.samples?, hasRoom_length_iff hne]
    split
    · next hroom =>
      simp only [Option.bind_some, Option.pure_def, length_samples hne, Option.some.injEq]
      exact ⟨fun h => h ▸ ⟨hroom, rfl⟩, fun h => h.2.symm⟩
    · next hfull => exact iff_of_false (Option.some_ne_none drawn).symm fun h => hfull (h.2 ▸ h.1)
  · next hwide => exact iff_of_false (Option.some_ne_none drawn).symm fun h => by omega

/-- **Finer settings draw no fewer samples.** -/
theorem drawn?_mono (hne : points ≠ []) (settings : CurveSettings) {coarse fine : UInt64} (hle : coarse ≤ fine)
    {many : ℕ} (hmany : drawn? (sampling settings fine) points = some many) :
    ∃ few, drawn? (sampling settings coarse) points = some few ∧ few ≤ many := by
  obtain ⟨hroom, rfl⟩ := (drawn?_eq_some_iff hne).1 hmany
  have hasked := Nat.mul_le_mul_left points.length (UInt64.le_iff_toNat_le.1 hle)
  have hfewer := max_le_max_right 2 (max_le_max_right points.length hasked)
  exact ⟨_, (drawn?_eq_some_iff hne).2 ⟨hfewer.trans_lt hroom, rfl⟩, hfewer⟩

/-- **A table of a spline** is made of the samples that are asked for, or there is none. -/
theorem rebuild?_spline (table : PathTable) (anchor : Vec2) (rest : List Vec2) (duration : Scalar)
    (settings : CurveSettings) :
    let points := anchor :: rest
    let asked := points.length * settings.samplesPerPoint.toNat
    table.rebuild? points duration .spline settings =
      if max (max asked points.length) 2 < 2 ^ 60 then
        some (empty.fill (Polyline.reduce (Spline.samples points asked) settings.threshold) anchor duration)
      else none := by
  intro points asked
  have hne : points ≠ [] := List.cons_ne_nil _ _
  have hdrawable : drawable points.length .spline settings ↔ max (max asked points.length) 2 < 2 ^ 60 :=
    drawable_spline_iff.trans (hasRoom_length_iff hne asked)
  rw [rebuild?, outline?_spline]
  by_cases hroom : max (max asked points.length) 2 < 2 ^ 60
  · rw [if_pos (hdrawable.2 hroom), if_pos hroom]
    rfl
  · rw [if_neg (mt hdrawable.1 hroom), if_neg hroom]
    rfl

/-- **When a spline is sampled as it is asked for.** Every number of samples for each control point but zero is accepted
from a file. The samples that are asked for are counted as the product with the number of points just if that fits in
a word; else they are not counted at all. The table is made of so many samples, though of one for each point and two in
all at least, if there is room for them; else there is no table. So finer settings never draw fewer samples. -/
theorem sampled_as_asked_iff (settings : CurveSettings) (anchor : Vec2) (rest : List Vec2) :
    let points := anchor :: rest
    let asked := points.length * settings.samplesPerPoint.toNat
    (Config.Accepted settings.samplesPerPoint ↔ 0 < settings.samplesPerPoint) ∧
    (sampleCount? settings points.length = some asked ↔ asked < 2 ^ 64) ∧
    (sampleCount? settings points.length = none ↔ ¬asked < 2 ^ 64) ∧
    (∀ (table : PathTable) (duration : Scalar), table.rebuild? points duration .spline settings =
      if max (max asked points.length) 2 < 2 ^ 60 then
        some (empty.fill (Polyline.reduce (Spline.samples points asked) settings.threshold) anchor duration)
      else none) ∧
    (Spline.samples points asked).length = max (max asked points.length) 2 ∧
    ∀ coarse fine many, coarse ≤ fine → drawn? (sampling settings fine) points = some many →
      ∃ few, drawn? (sampling settings coarse) points = some few ∧ few ≤ many := by
  intro points asked
  have hne : points ≠ [] := List.cons_ne_nil _ _
  refine ⟨Config.accepted_iff _, sampleCount?_eq_some_iff, ?_,
    fun table duration => rebuild?_spline table anchor rest duration settings, length_samples hne asked,
    fun coarse fine many hle hmany => drawn?_mono hne settings hle hmany⟩
  rw [sampleCount?_eq]
  exact ite_eq_right_iff.trans (forall_congr' fun _ => iff_false_intro (Option.some_ne_none _))

/-- Three points with the greatest number of samples that can be counted, and with fewer than by default. -/
theorem sampled_as_asked_of_three :
    let settings : CurveSettings := { samplesPerPoint := 6148914691236517205 }
    let points : List Vec2 := [⟨0, 0⟩, ⟨10, 0⟩, ⟨10, 10⟩]
    sampleCount? settings points.length = some (points.length * 6148914691236517205) ∧
      drawn? (sampling settings 16) points = some 48 ∧
      ∃ few, drawn? (sampling settings 8) points = some few ∧ few ≤ 48 := by
  intro settings points
  have hfits : points.length * settings.samplesPerPoint.toNat < 2 ^ 64 := by
    rw [show points.length = 3 from rfl]
    decide
  have hdrawn : drawn? (sampling settings 16) points = some 48 := by decide +kernel
  obtain ⟨-, hcount, -, -, -, hfiner⟩ := sampled_as_asked_iff settings ⟨0, 0⟩ [⟨10, 0⟩, ⟨10, 10⟩]
  exact ⟨hcount.2 hfits, hdrawn, hfiner 8 16 48 (by decide) hdrawn⟩

/-- **One more is too many.** It is accepted from a file, but three times as many samples cannot be counted, and there is
no table, while forty-eight samples are drawn by default. The points of this path are all at one place, where any number
of samples is. -/
theorem too_many_samples :
    let text := "[path]\nsamples_per_point = 6148914691236517206\n"
    let settings (text : String) : CurveSettings := (Config.after "./config.ini" [.file (.ok text)]).curve
    let points : List Vec2 := [⟨0, 0⟩, ⟨0, 0⟩, ⟨0, 0⟩]
    (settings text).samplesPerPoint = 6148914691236517206 ∧ (settings "").samplesPerPoint = 16 ∧
    sampleCount? (settings text) points.length ≠ some (points.length * (settings text).samplesPerPoint.toNat) ∧
    drawn? (settings text) points = none ∧ drawn? (settings "") points = some 48 ∧
    build? points 2 .spline (settings text) = none ∧ (build? points 2 .spline (settings "")).isSome := by
  decide +kernel

end PathTable

end MotionScript
