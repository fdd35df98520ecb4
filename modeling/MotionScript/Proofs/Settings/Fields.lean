import MotionScript.Proofs.Settings.Range

/-!
# Loading field by field

A text is read as a whole or not at all. If it is, then each field of a configuration is set by the last value of its
own key, and by nothing else that the text says.

* `Ini.finalValue`: what the lines of a text say about a key at last.
* `Ini.exists_parse_iff`, `Ini.get?_eq_finalValue`: when a text is read, and that it is read so.
* `Field`: the fields that a text can set, each with its key and what it takes.
* `Config.load_of_error`: on an error nothing changes.
* `Config.field_load`: a field after loading.
* `Config.loads_field_by_field`: loading is all or nothing, does not depend on what else is in a text, and changes
  nothing when it is done again.
-/

namespace MotionScript

namespace Ini

/-! ## What a text says about a key -/

/-- The line spoils a text. -/
def Line.Malformed (line : Line) : Prop := line = .unclosed ∨ line = .keyless

/-- The section in which the lines stand, and the value of a key, behind one more line. -/
def hear (heading key : String) (said : String × Option String) : Line → String × Option String
  | .heading name => (name, said.2)
  | .setting k value => if said.1 = heading ∧ k = key then (said.1, value) else said
  | .blank | .unclosed | .keyless => said

/-- **The final value of a key**: that of the last line that sets it in its section, if it has one. -/
def finalValue (text heading key : String) : Option String :=
  (((Text.lines text.toList).map Line.ofText).foldl (hear heading key) ("default", none)).2

/-- Lines are read just if none of them is malformed. -/
theorem exists_ofLines_iff (number : ℕ) (current : String) (lines : List (List Char)) :
    (∃ settings, ofLines number current lines = .ok settings) ↔ ∀ line ∈ lines, ¬(Line.ofText line).Malformed := by
  induction lines generalizing number current with
  | nil => exact iff_of_true ⟨[], rfl⟩ (List.forall_mem_nil _)
  | cons line rest ih =>
    rw [List.forall_mem_cons, ofLines]
    cases hline : Line.ofText line with
    | blank => exact (ih _ _).trans (and_iff_right (by simp [Line.Malformed])).symm
    | heading name => exact (ih _ _).trans (and_iff_right (by simp [Line.Malformed])).symm
    | unclosed => exact iff_of_false (fun ⟨_, h⟩ => nomatch h) fun h => h.1 (.inl rfl)
    | keyless => exact iff_of_false (fun ⟨_, h⟩ => nomatch h) fun h => h.1 (.inr rfl)
    | setting key value =>
      refine Iff.trans ?_ ((ih (number + 1) current).trans (and_iff_right (by simp [Line.Malformed])).symm)
      dsimp only
      cases ofLines (number + 1) current rest with
      | ok settings => exact iff_of_true ⟨_, rfl⟩ ⟨settings, rfl⟩
      | error e => exact iff_of_false (fun ⟨_, h⟩ => nomatch h) fun ⟨_, h⟩ => nomatch h

/-- **A text is read** just if none of its lines is malformed. -/
theorem exists_parse_iff (text : String) :
    (∃ ini, parse text = .ok ini) ↔ ∀ line ∈ Text.lines text.toList, ¬(Line.ofText line).Malformed := by
  rw [← exists_ofLines_iff 1 "default", parse]
  cases ofLines 1 "default" (Text.lines text.toList) with
  | ok settings => exact iff_of_true ⟨_, rfl⟩ ⟨settings, rfl⟩
  | error e => exact iff_of_false (fun ⟨_, h⟩ => nomatch h) fun ⟨_, h⟩ => nomatch h

/-- The value that is heard at last is that of the last setting of the key, or the one from before. -/
theorem foldl_hear {heading key current : String} {number : ℕ} {lines : List (List Char)} {settings : List Setting}
    (h : ofLines number current lines = .ok settings) (value : Option String) :
    ((lines.map Line.ofText).foldl (hear heading key) (current, value)).2 =
      ((settings.reverse.find? fun s => s.heading == heading && s.key == key).map (·.value)).getD value := by
  induction lines generalizing number current settings value with
  | nil =>
    cases h
    rfl
  | cons line rest ih =>
    rw [ofLines] at h
    rw [List.map_cons, List.foldl_cons]
    cases hline : Line.ofText line with
    | blank =>
      rw [hline] at h
      exact ih h value
    | heading name =>
      rw [hline] at h
      exact ih h value
    | unclosed =>
      rw [hline] at h
      cases h
    | keyless =>
      rw [hline] at h
      cases h
    | setting k v =>
      rw [hline] at h
      dsimp only at h
      cases hrest : ofLines (number + 1) current rest with
      | error e =>
        rw [hrest] at h
        cases h
      | ok later =>
        rw [hrest] at h
        cases h
        -- later settings of the key come first in the search
        rw [List.reverse_cons, List.find?_append, List.find?_singleton, hear]
        by_cases hkey : current = heading ∧ k = key
        · rw [if_pos hkey, ih hrest, if_pos (by simp [hkey])]
          cases later.reverse.find? fun s => s.heading == heading && s.key == key <;> rfl
        · rw [if_neg hkey, ih hrest, if_neg (by simpa using hkey), Option.or_none]

/-- **What is read for a key is its final value.** -/
theorem get?_eq_finalValue {text : String} {ini : Ini} (h : parse text = .ok ini) (heading key : String) :
    ini.get? heading key = finalValue text heading key := by
  rw [parse] at h
  cases hlines : ofLines 1 "default" (Text.lines text.toList) with
  | error e =>
    rw [hlines] at h
    cases h
  | ok settings =>
    rw [hlines] at h
    cases h
    rw [finalValue, foldl_hear hlines, get?]
    cases settings.reverse.find? fun s => s.heading == heading && s.key == key <;> rfl

end Ini

/-! ## Fields -/

/-- The fields of a configuration that a text can set. -/
inductive Field where
  | scriptsPath
  | fps
  | timeScale
  | samplesPerPoint
  | threshold
deriving DecidableEq, Repr

namespace Field

/-- The section and the key of a field. -/
def place : Field → String × String
  | scriptsPath => ("scripts", "path")
  | fps => ("simulation", "fps")
  | timeScale => ("simulation", "time_scale")
  | samplesPerPoint => ("path", "samples_per_point")
  | threshold => ("path", "collinear_threshold")

/-- What a field holds. -/
def Value : Field → Type
  | scriptsPath => String
  | fps => UInt32
  | timeScale | threshold => Scalar
  | samplesPerPoint => UInt64

/-- A field of a configuration. -/
def get : (f : Field) → Config → f.Value
  | scriptsPath, c => c.scriptsPath
  | fps, c => c.fps
  | timeScale, c => c.timeScale
  | samplesPerPoint, c => c.curve.samplesPerPoint
  | threshold, c => c.curve.threshold

/-- The whole number other than zero that a value spells. -/
def positive? (value : String) : Option ℕ := (natural? UInt64.size value.toList).bind fun n => if 0 < n then some n else none

/-- The scalar that a value spells, if the number is in a range. -/
def number? (inRange : Float → Bool) (value : String) : Option Scalar :=
  (Numeral.read? value.toList).bind fun n => if inRange n.toFloat then some (Scalar.narrow n.toFloat) else none

/-- What a field takes from a value. A value that is malformed or out of range is none that it takes. -/
def read? : (f : Field) → String → Option f.Value
  | scriptsPath, value => some value
  | fps, value => (positive? value).map Nat.toUInt32
  | timeScale, value => number? (fun x => 0 ≤ x) value
  | samplesPerPoint, value => (positive? value).map Nat.toUInt64
  | threshold, value => number? (fun x => 0 < x ∧ x ≤ 1) value

/-- **A field with the settings of a text** is set by the value of its key, if it takes that, and is as it was else. -/
theorem get_apply (f : Field) (c : Config) (ini : Ini) :
    f.get (c.apply ini) = ((ini.get? f.place.1 f.place.2).bind f.read?).getD (f.get c) := by
  cases f with
  | scriptsPath =>
    show (ini.get? "scripts" "path").getD c.scriptsPath = ((ini.get? "scripts" "path").bind some).getD c.scriptsPath
    rw [Option.bind_fun_some]
  | fps =>
    show ((Config.positive? ini "simulation" "fps").map Nat.toUInt32).getD c.fps = _
    rw [show Config.positive? ini "simulation" "fps" = (ini.get? "simulation" "fps").bind positive? from rfl, Option.map_bind]
    rfl
  | timeScale => rfl
  | samplesPerPoint =>
    show ((Config.positive? ini "path" "samples_per_point").map Nat.toUInt64).getD c.curve.samplesPerPoint = _
    rw [show Config.positive? ini "path" "samples_per_point" = (ini.get? "path" "samples_per_point").bind positive? from rfl,
      Option.map_bind]
    rfl
  | threshold => rfl

end Field

namespace Config

/-- A configuration is made of its fields and the path of its file. -/
theorem ext_fields {c d : Config} (h : ∀ f : Field, f.get c = f.get d) (hpath : c.configPath = d.configPath) : c = d := by
  have hscripts : c.scriptsPath = d.scriptsPath := h .scriptsPath
  have hfps : c.fps = d.fps := h .fps
  have htime : c.timeScale = d.timeScale := h .timeScale
  have hsamples : c.curve.samplesPerPoint = d.curve.samplesPerPoint := h .samplesPerPoint
  have hthreshold : c.curve.threshold = d.curve.threshold := h .threshold
  obtain ⟨_, _, _, ⟨_, _⟩, _⟩ := c
  obtain ⟨_, _, _, ⟨_, _⟩, _⟩ := d
  simp only at hscripts hfps htime hsamples hthreshold hpath
  subst hscripts hfps htime hsamples hthreshold hpath
  rfl

/-! ## Loading -/

namespace Source

/-- The text of a source, if it can be read. -/
def contents? : Source → Option String
  | text contents => some contents
  | file contents => contents.toOption

/-- The source can be read, and none of its lines is malformed. -/
def WellFormed (source : Source) : Prop :=
  ∃ contents, source.contents? = some contents ∧ ∀ line ∈ Text.lines contents.toList, ¬(Ini.Line.ofText line).Malformed

/-- The final value of the key of a field. -/
def final (source : Source) (f : Field) : Option String :=
  source.contents?.bind fun contents => Ini.finalValue contents f.place.1 f.place.2

theorem ini?_eq (source : Source) : source.ini? = source.contents?.bind fun contents => (Ini.parse contents).toOption := by
  cases source with
  | text contents => rfl
  | file contents => cases contents <;> rfl

/-- A source has settings just if it is well-formed, and then they are the final values of the keys. -/
theorem exists_ini_iff (source : Source) : (∃ ini, source.ini? = some ini) ↔ source.WellFormed := by
  rw [ini?_eq]
  unfold WellFormed
  cases source.contents? with
  | none => exact iff_of_false (fun ⟨_, h⟩ => nomatch h) fun ⟨_, h, _⟩ => nomatch h
  | some contents =>
    simp only [Option.bind_some, Option.some.injEq, exists_eq_left', ← Ini.exists_parse_iff]
    cases Ini.parse contents with
    | ok ini => exact iff_of_true ⟨ini, rfl⟩ ⟨ini, rfl⟩
    | error e => exact iff_of_false (fun ⟨_, h⟩ => nomatch h) fun ⟨_, h⟩ => nomatch h

theorem get?_of_ini {source : Source} {ini : Ini} (h : source.ini? = some ini) (f : Field) :
    ini.get? f.place.1 f.place.2 = source.final f := by
  rw [ini?_eq, Option.bind_eq_some_iff] at h
  obtain ⟨contents, hcontents, hini⟩ := h
  rw [final, hcontents, Option.bind_some]
  cases hparse : Ini.parse contents with
  | ok ini' =>
    rw [hparse] at hini
    cases hini
    exact Ini.get?_eq_finalValue hparse _ _
  | error e =>
    rw [hparse] at hini
    cases hini

end Source

/-- What came of loading says what has become of the configuration: the settings of the source are applied, or nothing
is. -/
theorem attempt_cases (c : Config) (source : Source) :
    (∃ ini, source.ini? = some ini ∧ c.attempt source = (c.apply ini, .ok ())) ∨
      ∃ e, source.ini? = none ∧ c.attempt source = (c, .error e) := by
  obtain ⟨read, hattempt, hread⟩ := exists_attempt_eq_take c source
  rw [hattempt, ← hread]
  cases read with
  | ok ini => exact .inl ⟨ini, rfl, rfl⟩
  | error e => exact .inr ⟨e, rfl, rfl⟩

/-- **On an error nothing changes.** -/
theorem load_of_error {c : Config} {source : Source} {e : ConfigError} (h : (c.attempt source).2 = .error e) :
    c.load source = c := by
  rw [load]
  obtain ⟨ini, -, hok⟩ | ⟨e', -, herror⟩ := attempt_cases c source
  · rw [hok] at h
    cases h
  · rw [herror]

/-- Loading succeeds just if the source has settings. -/
theorem attempt_ok_iff {c : Config} {source : Source} :
    (c.attempt source).2 = .ok () ↔ ∃ ini, source.ini? = some ini := by
  obtain ⟨ini, hini, hok⟩ | ⟨e, hini, herror⟩ := attempt_cases c source
  · rw [hok, hini]
    exact iff_of_true rfl ⟨ini, rfl⟩
  · rw [herror, hini]
    exact iff_of_false (fun h => nomatch h) fun ⟨_, h⟩ => nomatch h

/-- Where loading succeeds, the settings of the source are applied. -/
theorem exists_load_eq {c : Config} {source : Source} (h : (c.attempt source).2 = .ok ()) :
    ∃ ini, source.ini? = some ini ∧ c.load source = c.apply ini := by
  obtain ⟨ini, hini⟩ := attempt_ok_iff.1 h
  exact ⟨ini, hini, by rw [load_eq, hini, Option.map_some, Option.getD_some]⟩

/-- **A field after loading** is set by the final value of its key, if it takes that, and is as it was else. -/
theorem field_load {c : Config} {source : Source} (h : (c.attempt source).2 = .ok ()) (f : Field) :
    f.get (c.load source) = ((source.final f).bind f.read?).getD (f.get c) := by
  obtain ⟨ini, hini, hload⟩ := exists_load_eq h
  rw [hload, Field.get_apply, Source.get?_of_ini hini]

/-- Loading again from the same source changes nothing. -/
theorem attempt_again {c : Config} {source : Source} (h : (c.attempt source).2 = .ok ()) :
    (c.load source).attempt source = (c.load source, .ok ()) := by
  have hagain : ((c.load source).attempt source).2 = .ok () := attempt_ok_iff.2 (attempt_ok_iff.1 h)
  obtain ⟨ini, hini, hload⟩ := exists_load_eq hagain
  refine Prod.ext (hload.trans (ext_fields (fun f => ?_) rfl)) hagain
  -- what the text sets is set already
  rw [Field.get_apply, Source.get?_of_ini hini, field_load h]
  cases (source.final f).bind f.read? <;> rfl

/-- **Loading is all or nothing, field by field, and done once and for all.** It succeeds just if the source can be read
and none of its lines is malformed. If it fails, nothing changes. If it succeeds, the path of the file stays, loading
again from the same source changes nothing, and a field comes to the same as in any other configuration with the same
value in it, loaded from any other source whose final value for the key of the field is the same. -/
theorem loads_field_by_field (c : Config) (source : Source) :
    let d := c.load source
    let result := (c.attempt source).2
    (result = .ok () ↔ source.WellFormed) ∧
    (∀ e, result = .error e → d = c) ∧
    (result = .ok () →
      d.configPath = c.configPath ∧ d.attempt source = (d, .ok ()) ∧
      ∀ (c' : Config) (source' : Source) (f : Field), (c'.attempt source').2 = .ok () →
        source.final f = source'.final f → f.get c = f.get c' → f.get d = f.get (c'.load source')) := by
  refine ⟨?_, fun e => load_of_error, fun hok => ⟨?_, attempt_again hok, fun c' source' f hok' hfinal hget => ?_⟩⟩
  · rw [attempt_ok_iff]
    exact Source.exists_ini_iff source
  · obtain ⟨ini, -, hload⟩ := exists_load_eq hok
    rw [hload]
    rfl
  · rw [field_load hok, field_load hok', hfinal, hget]

/-- Two texts that say the same about the frame rate at last, with other values that are malformed, out of range or
missing. -/
theorem loads_field_by_field_of_two :
    let c : Config := { fps := 24, timeScale := 2, configPath := "a.ini" }
    let c' : Config := { fps := 24, scriptsPath := "b.json" }
    let source : Source := .text "[simulation]\ntime_scale = fast\nfps = 30\nfps = 0\n"
    let source' : Source := .file (.ok "[path]\nsamples_per_point = -1\n[Simulation]\nFPS: 0 ; none\n[scripts]\npath = c.json")
    (c.attempt source).2 = .ok () ∧ (c'.attempt source').2 = .ok () ∧ source.final .fps = source'.final .fps ∧
      Field.fps.get (c.load source) = Field.fps.get (c'.load source') ∧
      (c.load source).attempt source = (c.load source, .ok ()) := by
  intro c c' source source'
  have hok : (c.attempt source).2 = .ok () := by decide +kernel
  have hok' : (c'.attempt source').2 = .ok () := by decide +kernel
  have hfinal : source.final .fps = source'.final .fps := by decide +kernel
  obtain ⟨-, -, h⟩ := loads_field_by_field c source
  obtain ⟨-, hagain, hfields⟩ := h hok
  exact ⟨hok, hok', hfinal, hfields c' source' .fps hok' hfinal rfl, hagain⟩

end Config

end MotionScript
