import MotionScript.Proofs.Settings.Ini
import MotionScript.Proofs.Settings.Range

/-!
# Saving and loading

What a configuration is saved as restores it, whatever the settings of the configuration that loads it were. The
sections and keys of the saved text stand in any order.

* `Saved`: the texts that a configuration may be saved as.
* `natural?_toString`, `ReadsBack`: what the texts of numbers read back as.
* `loadFile_saved`: saving, then loading.
-/

namespace MotionScript.Config

open Scalar

/-! ## Texts of numbers -/

/-- The characters in texts of numbers. -/
def InNumber (c : Char) : Prop := c.isDigit ∨ c ∈ ['-', '.', 'i', 'n', 'f', 'N', 'a']

theorem isDigit_bounds {c : Char} (h : c.isDigit) : 48 ≤ c.toNat ∧ c.toNat ≤ 57 := by
  simp only [Char.isDigit, Bool.and_eq_true, decide_eq_true_eq, ge_iff_le, UInt32.le_iff_toNat_le] at h
  exact h

theorem inNumber_char {c : Char} (h : InNumber c) : Text.isBlank c = false ∧ Ini.isComment c = false ∧ c ≠ '\n' := by
  rcases h with h | h
  · obtain ⟨hlow, hhigh⟩ := isDigit_bounds h
    have hne : ∀ d : Char, d.toNat < 48 ∨ 57 < d.toNat → c ≠ d := by
      rintro d hd rfl
      omega
    refine ⟨Text.isBlank_of_visible (by omega) (by omega), ?_, hne _ (by decide)⟩
    simp [Ini.isComment, hne]
  · simp only [List.mem_cons, List.not_mem_nil, or_false] at h
    rcases h with rfl | rfl | rfl | rfl | rfl | rfl | rfl <;> decide

/-- The text of a number has nothing in it that a reader takes off. -/
theorem readable_of_inNumber {value : String} (h : ∀ c ∈ value.toList, InNumber c) : Ini.Readable value where
  comment c hc := (inNumber_char (h c hc)).2.1
  line hc := (inNumber_char (h '\n' hc)).2.2 rfl
  first c hc := (inNumber_char (h c (List.mem_of_head? hc))).1
  last c hc := (inNumber_char (h c (List.mem_of_getLast? hc))).1

theorem inNumber_toDigits {n : ℕ} {c : Char} (h : c ∈ Nat.toDigits 10 n) : InNumber c :=
  .inl (Nat.isDigit_of_mem_toDigits (by norm_num) le_rfl h)

theorem inNumber_natural (n : ℕ) : ∀ c ∈ (toString n).toList, InNumber c := by
  intro c hc
  rw [Nat.toString_eq_ofList_toDigits, String.toList_ofList] at hc
  exact inNumber_toDigits hc

theorem inNumber_pointed (places n : ℕ) : ∀ c ∈ pointed places n, InNumber c := by
  have hpadded : ∀ c ∈ List.replicate (places + 1 - (Nat.toDigits 10 n).length) '0' ++ Nat.toDigits 10 n, InNumber c := by
    intro c hc
    rcases List.mem_append.1 hc with hc | hc
    · exact .inl (by rw [List.eq_of_mem_replicate hc]; decide)
    · exact inNumber_toDigits hc
  intro c hc
  unfold pointed at hc
  dsimp only at hc
  rw [List.mem_append, List.mem_cons] at hc
  rcases hc with hc | rfl | hc
  · exact hpadded c (List.mem_of_mem_take hc)
  · exact .inr (by decide)
  · exact hpadded c (List.mem_of_mem_drop hc)

theorem inNumber_plain (d : Decimal) : ∀ c ∈ number.plain d, InNumber c := by
  intro c hc
  unfold Layout.plain at hc
  split at hc
  · rw [List.mem_append, List.mem_append] at hc
    rcases hc with (hc | hc) | hc
    · exact inNumber_toDigits hc
    · exact .inl (by rw [List.eq_of_mem_replicate hc]; decide)
    · cases hc
  · exact inNumber_pointed _ _ c hc

theorem inNumber_signText (s : Float.Model.UnpackedFloat.Sign) : ∀ c ∈ signText s, InNumber c := by
  cases s with
  | positive => exact fun c hc => absurd hc List.not_mem_nil
  | negative => exact fun c hc => .inr (by rw [List.mem_singleton.1 hc]; exact List.mem_cons_self)

theorem inNumber_scalar (x : Scalar) : ∀ c ∈ (number.render x).toList, InNumber c := by
  have hword : ∀ c ∈ number.notANumber.toList ++ number.infinity.toList, InNumber c := by
    intro c hc
    simp only [number, String.reduceToList, List.cons_append, List.nil_append] at hc
    exact .inr ((by decide : ['N', 'a', 'N', 'i', 'n', 'f'] ⊆ ['-', '.', 'i', 'n', 'f', 'N', 'a']) hc)
  intro c hc
  unfold Layout.render at hc
  rw [String.toList_ofList] at hc
  split at hc
  · exact hword c (List.mem_append_left _ hc)
  · exact (List.mem_append.1 hc).elim (inNumber_signText _ c) fun h => hword c (List.mem_append_right _ h)
  · exact (List.mem_append.1 hc).elim (inNumber_signText _ c) fun h => .inl (by rw [List.mem_singleton.1 h]; decide)
  · exact (List.mem_append.1 hc).elim (inNumber_signText _ c) (inNumber_plain _ c)

/-- The text of a natural number reads back as it. -/
theorem natural?_toString {n bound : ℕ} (h : n < bound) : natural? bound (toString n).toList = some n := by
  have hdigits : ∀ c ∈ Nat.toDigits 10 n, c.isDigit := fun c hc => Nat.isDigit_of_mem_toDigits (by norm_num) le_rfl hc
  have hvalue := @Nat.ofDigitChars_ten_toDigits n
  have hempty : (Nat.toDigits 10 n).isEmpty = false := List.isEmpty_eq_false_iff.2 Nat.toDigits_ne_nil
  have hall : (Nat.toDigits 10 n).all Char.isDigit = true := List.all_eq_true.2 hdigits
  rw [Nat.toString_eq_ofList_toDigits, String.toList_ofList]
  generalize Nat.toDigits 10 n = digits at *
  unfold natural?
  split
  next ds => exact absurd (hdigits '+' List.mem_cons_self) (by decide)
  next =>
    dsimp only
    rw [hempty, hall, hvalue]
    exact if_pos h

/-- A scalar whose text reads back as a number that is narrowed to it. -/
def ReadsBack (x : Scalar) : Prop :=
  ∃ n, Numeral.read? (number.render x).toList = some n ∧ narrow n.toFloat = x

/-! ## Settings -/

section Settings

variable {ini : Ini} {heading key : String}

theorem positive?_of_get? {n : ℕ} (hget : ini.get? heading key = some (toString n)) (hpos : 0 < n) (hlt : n < 2 ^ 64) :
    positive? ini heading key = some n := by
  have hread : natural? UInt64.size (toString n).toList = some n := natural?_toString hlt
  simp only [positive?, hget, Option.bind_eq_bind, Option.bind_some, hread]
  exact if_pos hpos

theorem number?_of_get? {x : Scalar} {inRange : Float → Bool} (hget : ini.get? heading key = some (number.render x))
    (hread : ReadsBack x)
    (hrange : ∀ n, Numeral.read? (number.render x).toList = some n → narrow n.toFloat = x → inRange n.toFloat) :
    number? ini heading key inRange = some x := by
  obtain ⟨n, hn, hx⟩ := hread
  simp only [number?, hget, Option.bind_eq_bind, Option.bind_some, hn]
  rw [if_pos (hrange n hn hx), hx]

end Settings

/-- What the text of a speed reads back as is not negative. -/
theorem zero_le_of_readsBack {x : Scalar} (h : 0 ≤ x) {n : Numeral}
    (hn : Numeral.read? (number.render x).toList = some n) (hx : narrow n.toFloat = x) : 0 ≤ n.toFloat := by
  by_cases hzero : x = -0
  · -- other numbers below zero are narrowed to this zero, but its text is that of a zero
    subst hzero
    have hread : Numeral.read? (number.render (-0)).toList = some (.decimal true 0 0) := by decide +kernel
    rw [hread, Option.some.injEq] at hn
    rw [← hn]
    decide +kernel
  · exact zero_le_of_narrow (by rw [hx]; exact h) (by rw [hx]; exact hzero)

/-- What the text of a threshold reads back as is in the range of thresholds. -/
theorem unit_of_readsBack {x : Scalar} (h0 : 0 < x) (h1 : x ≤ 1) {n : Numeral}
    (hn : Numeral.read? (number.render x).toList = some n) (hx : narrow n.toFloat = x) :
    0 < n.toFloat ∧ n.toFloat ≤ 1 := by
  have hpos : 0 < n.toFloat := pos_of_narrow (by rw [hx]; exact h0)
  refine ⟨hpos, ?_⟩
  rcases lt_or_eq_one h0 h1 with hlt | rfl
  · exact le_one_of_narrow hpos (by rw [hx]; exact hlt)
  · -- greater numbers are narrowed to one, too, but its text is that of one
    have hread : Numeral.read? (number.render 1).toList = some (.decimal false 1 0) := by decide +kernel
    rw [hread, Option.some.injEq] at hn
    rw [← hn]
    decide +kernel

/-! ## Saving -/

/-- **The texts that a configuration may be saved as.** -/
def Saved (c : Config) (text : String) : Prop := ∃ sections, Ini.Reordered c.sections sections ∧ text = Ini.render sections

theorem saved_render (c : Config) : c.Saved c.render := ⟨c.sections, .refl _, rfl⟩

theorem readable_sections {c : Config} (hpath : Ini.Readable c.scriptsPath) : ∀ s ∈ c.sections, Ini.ReadableSection s := by
  have hfps := readable_of_inNumber (inNumber_natural c.fps.toNat)
  have hscale := readable_of_inNumber (inNumber_scalar c.timeScale)
  have hsamples := readable_of_inNumber (inNumber_natural c.curve.samplesPerPoint.toNat)
  have hthreshold := readable_of_inNumber (inNumber_scalar c.curve.threshold)
  simp only [sections, List.forall_mem_cons, List.not_mem_nil, false_imp_iff, implies_true, and_true]
  have hheadings : Ini.Plain "scripts" ∧ Ini.Plain "simulation" ∧ Ini.Plain "path" := by decide
  refine ⟨⟨hheadings.1, ?_, ?_⟩, ⟨hheadings.2.1, ?_, ?_⟩, ⟨hheadings.2.2, ?_, ?_⟩⟩ <;>
    simp only [List.forall_mem_cons, List.not_mem_nil, false_imp_iff, implies_true, and_true]
  · decide
  · exact hpath
  · decide
  · exact ⟨hfps, hscale⟩
  · decide
  · exact ⟨hsamples, hthreshold⟩

/-- **Saving, then loading**, gives any configuration the settings that were saved. They are in their ranges, the path
is read as it is written, and the texts of the two scalars read back. -/
theorem loadFile_saved {c : Config} (hrange : c.InRange) (hpath : Ini.Readable c.scriptsPath)
    (hscale : ReadsBack c.timeScale) (hthreshold : ReadsBack c.curve.threshold) {text : String} (hsaved : c.Saved text)
    (other : Config) : other.loadFile (.ok text) = ({ c with configPath := other.configPath }, .ok ()) := by
  obtain ⟨sections, hreordered, rfl⟩ := hsaved
  have hperm := hreordered.settings_perm
  -- no key is set twice, so it does not matter in which order they stand
  have hnodup : ((sections.flatMap Ini.sectionSettings).map fun s => (s.heading, s.key)).Nodup := by
    rw [← (hperm.map _).nodup_iff]
    show [("scripts", "path"), ("simulation", "fps"), ("simulation", "time_scale"), ("path", "samples_per_point"),
      ("path", "collinear_threshold")].Nodup
    decide
  have hget : ∀ s ∈ c.sections, ∀ setting ∈ s.2,
      (Ini.mk (sections.flatMap Ini.sectionSettings)).get? s.1 setting.1 = some setting.2 := by
    intro s hs setting hsetting
    apply Ini.get?_eq_some hnodup
    exact hperm.mem_iff.1 (List.mem_flatMap.2 ⟨s, hs, List.mem_map.2 ⟨setting, hsetting, rfl⟩⟩)
  have hparse := Ini.parse_render (hreordered.readable (readable_sections hpath))
  generalize Ini.mk (sections.flatMap Ini.sectionSettings) = ini at hget hparse
  simp only [Config.sections, List.forall_mem_cons, List.not_mem_nil, false_imp_iff, implies_true, and_true] at hget
  obtain ⟨hscripts, ⟨hfps, htime⟩, hsamples, hcollinear⟩ := hget
  have hfps := positive?_of_get? hfps (UInt32.le_iff_toNat_le.1 hrange.fps) (c.fps.toNat_lt.trans (by norm_num))
  have hsamples := positive?_of_get? hsamples (UInt64.le_iff_toNat_le.1 hrange.samplesPerPoint)
    c.curve.samplesPerPoint.toNat_lt
  have htime : number? ini "simulation" "time_scale" (fun x => 0 ≤ x) = some c.timeScale :=
    number?_of_get? htime hscale fun n hn hx => decide_eq_true (zero_le_of_readsBack hrange.timeScale hn hx)
  have hcollinear : number? ini "path" "collinear_threshold" (fun x => 0 < x ∧ x ≤ 1) = some c.curve.threshold :=
    number?_of_get? hcollinear hthreshold fun n hn hx =>
      decide_eq_true (unit_of_readsBack hrange.threshold_pos hrange.threshold_le hn hx)
  have hwords : c.fps.toNat.toUInt32 = c.fps ∧ c.curve.samplesPerPoint.toNat.toUInt64 = c.curve.samplesPerPoint :=
    ⟨UInt32.ofNat_toNat, UInt64.ofNat_toNat⟩
  -- every setting is there, so no default of the other configuration is asked for
  have happly : other.apply ini = { c with configPath := other.configPath } := by
    simp only [apply, hscripts, hfps, htime, hsamples, hcollinear, Option.map_some, Option.getD_some, hwords]
  show other.take ((Ini.parse _).mapError _) = _
  rw [hparse, ← happly]
  rfl

/-- A path with brackets and delimiters in it, and the speed of a zero with a sign. -/
theorem loadFile_saved_brackets :
    let c : Config :=
      { scriptsPath := "[path]=a:b", fps := 30, timeScale := -0, curve := ⟨8, 0.75⟩, configPath := "./config.ini" }
    c.Saved c.render ∧ (Config.mk "d.json" 24 2 {} "./config.ini").loadFile (.ok c.render) = (c, .ok ()) := by
  intro c
  have hsaved := saved_render c
  have hrange : c.InRange := by constructor <;> decide +kernel
  have hpath : Ini.Readable c.scriptsPath := by
    constructor <;> simp only [c, String.reduceToList]
    · simp [Ini.isComment]
    · decide
    · rintro c ⟨⟩
      exact Text.isBlank_of_visible (by decide) (by decide)
    · rintro c ⟨⟩
      exact Text.isBlank_of_visible (by decide) (by decide)
  have hscale : ReadsBack c.timeScale := ⟨.decimal true 0 0, by decide +kernel, by decide +kernel⟩
  have hthreshold : ReadsBack c.curve.threshold := ⟨.decimal false 75 (-2), by decide +kernel, by decide +kernel⟩
  exact ⟨hsaved, loadFile_saved hrange hpath hscale hthreshold hsaved ⟨"d.json", 24, 2, {}, "./config.ini"⟩⟩

end MotionScript.Config
