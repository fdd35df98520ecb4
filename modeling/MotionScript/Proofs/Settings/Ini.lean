import MotionScript.Settings.Ini
import Mathlib.Data.List.Nodup
import Mathlib.Data.List.TakeWhile

/-!
# Reading a text that was rendered

A text with sections reads back as their settings, if names are plain and values have nothing in them that a reader
takes off: no comment, no line feed and no blank at an end. What else is in a value does no harm.

* `Text.trim_eq_self`, `Text.lines_append`: texts that are not trimmed, and the lines of a text.
* `ofText_headingLine`, `ofText_settingLine`: what the lines of a section say.
* `parse_render`: the settings of a rendered text.
* `Reordered`: sections and their settings in another order.
* `get?_eq_some`: the value of a key that is set once.
-/

namespace MotionScript

namespace Text

/-- The visible characters of ASCII are not blank. -/
theorem isBlank_of_visible {c : Char} (hlow : 0x21 ≤ c.toNat) (hhigh : c.toNat < 0x80) : isBlank c = false := by
  rw [Bool.eq_false_iff]
  intro hblank
  simp only [isBlank, Bool.or_eq_true, Bool.and_eq_true, decide_eq_true_eq, beq_iff_eq] at hblank
  omega

/-- A text without blanks at its ends is not trimmed. -/
theorem trim_eq_self {cs : List Char} (hfirst : ∀ c ∈ cs.head?, isBlank c = false)
    (hlast : ∀ c ∈ cs.getLast?, isBlank c = false) : trim cs = cs := by
  have hkept : ∀ ds : List Char, (∀ c ∈ ds.head?, isBlank c = false) → ds.dropWhile isBlank = ds := by
    intro ds h
    cases ds with
    | nil => rfl
    | cons d ds => exact List.dropWhile_cons_of_neg (by rw [h d rfl]; exact Bool.false_ne_true)
  unfold trim
  rw [hkept cs hfirst, hkept cs.reverse (by rwa [List.head?_reverse]), List.reverse_reverse]

/-- A line ends at its line feed. -/
theorem lines_append {line : List Char} (h : '\n' ∉ line) (rest : List Char) :
    lines (line ++ '\n' :: rest) = line :: lines rest := by
  induction line with
  | nil => rfl
  | cons c cs ih =>
    rw [List.mem_cons, not_or] at h
    rw [List.cons_append, lines, ih h.2]
    exact fun hc => h.1 (Eq.symm hc)

end Text

namespace Ini

/-! ## Lines -/

/-- A name that is read as it is written: small letters and underscores. -/
def Plain (s : String) : Prop := ∀ c ∈ s.toList, c.isLower ∨ c = '_'

instance (s : String) : Decidable (Plain s) := List.decidableBAll _ s.toList

theorem isLower_bounds {c : Char} (h : c.isLower) : 97 ≤ c.toNat ∧ c.toNat ≤ 122 := by
  change (decide (97 ≤ c.val) && decide (c.val ≤ 122)) = true at h
  simp only [Bool.and_eq_true, decide_eq_true_eq, UInt32.le_iff_toNat_le] at h
  exact h

/-- What a plain character is not. -/
theorem plain_char {c : Char} (h : c.isLower ∨ c = '_') : Text.isBlank c = false ∧ isComment c = false ∧
    isDelimiter c = false ∧ c.toLower = c ∧ c ≠ '[' ∧ c ≠ '\n' := by
  rcases h with h | rfl
  · obtain ⟨hlow, hhigh⟩ := isLower_bounds h
    have hne : ∀ d : Char, d.toNat < 97 → c ≠ d := by
      rintro d hd rfl
      omega
    refine ⟨Text.isBlank_of_visible (by omega) (by omega), ?_, ?_, ?_, hne _ (by decide), hne _ (by decide)⟩
    · simp [isComment, hne]
    · simp [isDelimiter, hne]
    · apply dif_neg
      rintro ⟨-, hupper⟩
      rw [UInt32.le_iff_toNat_le] at hupper
      exact absurd (hlow.trans hupper) (by decide)
  · decide

/-- **A value that is read as it is written.** -/
structure Readable (value : String) : Prop where
  comment : ∀ c ∈ value.toList, isComment c = false
  line : '\n' ∉ value.toList
  first : ∀ c ∈ value.toList.head?, Text.isBlank c = false
  last : ∀ c ∈ value.toList.getLast?, Text.isBlank c = false

/-- The line of a heading. -/
def headingLine (heading : String) : List Char := '[' :: heading.toList ++ [']']

/-- The line of a setting. -/
def settingLine (setting : String × String) : List Char := setting.1.toList ++ '=' :: setting.2.toList

theorem name_eq {s : String} (h : Plain s) : name s.toList = s := by
  have htrim : Text.trim s.toList = s.toList :=
    Text.trim_eq_self (fun c hc => (plain_char (h c (List.mem_of_head? hc))).1)
      (fun c hc => (plain_char (h c (List.mem_of_getLast? hc))).1)
  have hmap : s.toList.map Char.toLower = s.toList :=
    (List.map_congr_left fun c hc => (plain_char (h c hc)).2.2.2.1).trans (List.map_id _)
  rw [name, htrim, hmap, String.ofList_toList]

/-- Nothing is taken off a line that has no comment and no blanks at its ends. -/
theorem strip_eq {line : List Char} (hcomment : ∀ c ∈ line, isComment c = false)
    (hfirst : ∀ c ∈ line.head?, Text.isBlank c = false) (hlast : ∀ c ∈ line.getLast?, Text.isBlank c = false) :
    Text.trim ((Text.trim line).takeWhile fun c => !isComment c) = line := by
  have htrim := Text.trim_eq_self hfirst hlast
  have hwhole : line.takeWhile (fun c => !isComment c) = line := by
    rw [List.takeWhile_eq_self_iff]
    intro c hc
    rw [hcomment c hc]
    rfl
  rw [htrim, hwhole, htrim]

/-- The line of a plain heading is read as that heading. -/
theorem ofText_headingLine {heading : String} (h : Plain heading) :
    Line.ofText (headingLine heading) = .heading heading := by
  have hstrip := @strip_eq (headingLine heading)
    (by
      intro c hc
      simp only [headingLine, List.cons_append, List.mem_cons, List.mem_append, List.not_mem_nil, or_false] at hc
      rcases hc with rfl | hc | rfl
      · decide
      · exact (plain_char (h c hc)).2.1
      · decide)
    (by
      rintro c ⟨⟩
      decide)
    (by
      intro c hc
      rw [headingLine, List.getLast?_concat, Option.mem_some_iff] at hc
      rw [← hc]
      decide)
  have hbody : upToBracket? (heading.toList ++ [']']) = some heading.toList := by
    unfold upToBracket?
    rw [List.reverse_append, List.reverse_singleton, List.singleton_append, List.dropWhile_cons_of_neg (by decide)]
    dsimp only
    rw [List.reverse_reverse]
  unfold Line.ofText
  rw [hstrip, headingLine, List.cons_append]
  simp only [hbody, name_eq h]

theorem settingOf_settingLine {setting : String × String} (hne : setting.1.toList ≠ []) (hkey : Plain setting.1)
    (hvalue : Readable setting.2) : settingOf (settingLine setting) = .setting setting.1 (some setting.2) := by
  have hplain : ∀ c ∈ setting.1.toList, (!isDelimiter c) = true := by
    intro c hc
    rw [(plain_char (hkey c hc)).2.2.1]
    rfl
  have htake : (settingLine setting).takeWhile (fun c => !isDelimiter c) = setting.1.toList := by
    rw [settingLine, List.takeWhile_append_of_pos hplain, List.takeWhile_cons_of_neg (by decide), List.append_nil]
  have hdrop : (settingLine setting).dropWhile (fun c => !isDelimiter c) = '=' :: setting.2.toList := by
    rw [settingLine, List.dropWhile_append_of_pos hplain, List.dropWhile_cons_of_neg (by decide)]
  have hempty : setting.1.toList.isEmpty = false := by
    rw [List.isEmpty_eq_false_iff]
    exact hne
  simp only [settingOf, htake, hdrop, hempty, Bool.false_eq_true, if_false, name_eq hkey,
    Text.trim_eq_self hvalue.first hvalue.last, String.ofList_toList]

/-- The line of a plain key and a readable value is read as their setting. -/
theorem ofText_settingLine {setting : String × String} (hne : setting.1.toList ≠ []) (hkey : Plain setting.1)
    (hvalue : Readable setting.2) : Line.ofText (settingLine setting) = .setting setting.1 (some setting.2) := by
  have hhead : ∀ c ∈ (settingLine setting).head?, c.isLower ∨ c = '_' := by
    intro c hc
    obtain ⟨d, hd⟩ : ∃ d, setting.1.toList.head? = some d := Option.ne_none_iff_exists'.1 (mt List.head?_eq_none_iff.1 hne)
    rw [settingLine, List.head?_append, hd, Option.some_or, Option.mem_some_iff] at hc
    rw [← hc]
    exact hkey d (List.mem_of_head? hd)
  have hstrip := @strip_eq (settingLine setting)
    (by
      intro c hc
      simp only [settingLine, List.mem_append, List.mem_cons] at hc
      rcases hc with hc | rfl | hc
      · exact (plain_char (hkey c hc)).2.1
      · decide
      · exact hvalue.comment c hc)
    (fun c hc => (plain_char (hhead c hc)).1)
    (by
      intro c hc
      rw [settingLine, List.getLast?_append, List.getLast?_cons, Option.some_or] at hc
      cases hlast : setting.2.toList.getLast? with
      | none =>
        -- without a value the line ends at the sign
        rw [hlast] at hc
        cases hc
        decide
      | some d =>
        rw [hlast] at hc
        cases hc
        exact hvalue.last _ hlast)
  unfold Line.ofText
  rw [hstrip]
  split
  · next hnil => exact absurd (List.append_eq_nil_iff.1 hnil).1 hne
  · next cs hbracket =>
    rw [hbracket] at hhead
    exact absurd rfl (plain_char (hhead '[' rfl)).2.2.2.2.1
  · exact settingOf_settingLine hne hkey hvalue

/-! ## Texts -/

/-- The lines of a section. -/
def sectionLines (s : String × List (String × String)) : List (List Char) := headingLine s.1 :: s.2.map settingLine

/-- The settings of a section. -/
def sectionSettings (s : String × List (String × String)) : List Setting :=
  s.2.map fun setting => ⟨s.1, setting.1, some setting.2⟩

/-- **A section that is read as it is written.** -/
structure ReadableSection (s : String × List (String × String)) : Prop where
  heading : Plain s.1
  keys : ∀ setting ∈ s.2, setting.1.toList ≠ [] ∧ Plain setting.1
  values : ∀ setting ∈ s.2, Readable setting.2

/-- A rendered text is made of the lines of its sections. -/
theorem toList_render (sections : List (String × List (String × String))) :
    (render sections).toList = (sections.flatMap sectionLines).flatMap (· ++ ['\n']) := by
  rw [render, String.toList_join, List.flatMap_map, List.flatMap_assoc]
  congr 1
  funext s
  rw [sectionLines, List.flatMap_cons, List.flatMap_map]
  simp [renderSection, String.toList_append, String.toList_join, List.flatMap_map, headingLine, settingLine]

theorem lines_flatMap {ls : List (List Char)} (h : ∀ line ∈ ls, '\n' ∉ line) :
    Text.lines (ls.flatMap (· ++ ['\n'])) = ls ++ [[]] := by
  induction ls with
  | nil => rfl
  | cons line ls ih =>
    rw [List.flatMap_cons, List.append_assoc, List.singleton_append, Text.lines_append (h line List.mem_cons_self),
      ih fun l hl => h l (List.mem_cons_of_mem line hl), List.cons_append]

theorem ofLines_settings {settings : List (String × String)} (hkeys : ∀ s ∈ settings, s.1.toList ≠ [] ∧ Plain s.1)
    (hvalues : ∀ s ∈ settings, Readable s.2) (number : ℕ) (current : String) (rest : List (List Char)) :
    ofLines number current (settings.map settingLine ++ rest) =
      (ofLines (number + settings.length) current rest).map
        (settings.map (fun s => (⟨current, s.1, some s.2⟩ : Setting)) ++ ·) := by
  induction settings generalizing number with
  | nil =>
    show ofLines number current rest = (ofLines number current rest).map id
    cases ofLines number current rest <;> rfl
  | cons s settings ih =>
    have hline := ofText_settingLine (hkeys s List.mem_cons_self).1 (hkeys s List.mem_cons_self).2
      (hvalues s List.mem_cons_self)
    rw [List.map_cons, List.cons_append, ofLines, hline]
    dsimp only
    rw [ih (fun t ht => hkeys t (List.mem_cons_of_mem s ht)) (fun t ht => hvalues t (List.mem_cons_of_mem s ht)),
      List.length_cons, Nat.add_assoc, Nat.add_comm 1]
    cases ofLines (number + (settings.length + 1)) current rest <;> rfl

theorem ofLines_sections {sections : List (String × List (String × String))} (h : ∀ s ∈ sections, ReadableSection s)
    (number : ℕ) (current : String) :
    ofLines number current (sections.flatMap sectionLines ++ [[]]) = .ok (sections.flatMap sectionSettings) := by
  induction sections generalizing number current with
  | nil => rfl
  | cons s sections ih =>
    have hs := h s List.mem_cons_self
    rw [List.flatMap_cons, sectionLines, List.cons_append, List.cons_append, ofLines, ofText_headingLine hs.heading]
    dsimp only
    rw [List.append_assoc, ofLines_settings hs.keys hs.values, ih fun t ht => h t (List.mem_cons_of_mem s ht)]
    rfl

/-- **A rendered text reads back as its settings.** -/
theorem parse_render {sections : List (String × List (String × String))} (h : ∀ s ∈ sections, ReadableSection s) :
    parse (render sections) = .ok ⟨sections.flatMap sectionSettings⟩ := by
  have hlines : ∀ line ∈ sections.flatMap sectionLines, '\n' ∉ line := by
    intro line hline
    obtain ⟨s, hs, hline⟩ := List.mem_flatMap.1 hline
    have hsection := h s hs
    rw [sectionLines, List.mem_cons, List.mem_map] at hline
    rcases hline with rfl | ⟨setting, hsetting, rfl⟩
    · simp only [headingLine, List.cons_append, List.mem_cons, List.mem_append, List.not_mem_nil, or_false, not_or]
      exact ⟨by decide, fun hc => (plain_char (hsection.heading _ hc)).2.2.2.2.2 rfl, by decide⟩
    · simp only [settingLine, List.mem_append, List.mem_cons, not_or]
      exact ⟨fun hc => (plain_char ((hsection.keys setting hsetting).2 _ hc)).2.2.2.2.2 rfl, by decide,
        (hsection.values setting hsetting).line⟩
  rw [parse, toList_render, lines_flatMap hlines, ofLines_sections h]
  rfl

/-- The same sections in some order, each with its settings in some order. -/
def Reordered (a b : List (String × List (String × String))) : Prop :=
  ∃ m, a.Perm m ∧ List.Forall₂ (fun s t => s.1 = t.1 ∧ s.2.Perm t.2) m b

theorem Reordered.refl (a : List (String × List (String × String))) : Reordered a a :=
  ⟨a, .refl a, List.forall₂_same.2 fun s _ => ⟨rfl, .refl s.2⟩⟩

theorem Reordered.readable {a b : List (String × List (String × String))} (h : Reordered a b)
    (ha : ∀ s ∈ a, ReadableSection s) : ∀ t ∈ b, ReadableSection t := by
  obtain ⟨m, hperm, hforall⟩ := h
  have hm : ∀ s ∈ m, ReadableSection s := fun s hs => ha s (hperm.mem_iff.2 hs)
  clear hperm
  induction hforall with
  | nil => exact fun t ht => absurd ht List.not_mem_nil
  | @cons s t m b hst _ ih =>
    have hs := hm s List.mem_cons_self
    intro u hu
    rcases List.mem_cons.1 hu with rfl | hu
    · exact ⟨hst.1 ▸ hs.heading, fun v hv => hs.keys v (hst.2.mem_iff.2 hv), fun v hv => hs.values v (hst.2.mem_iff.2 hv)⟩
    · exact ih (fun v hv => hm v (List.mem_cons_of_mem s hv)) u hu

theorem Reordered.settings_perm {a b : List (String × List (String × String))} (h : Reordered a b) :
    (a.flatMap sectionSettings).Perm (b.flatMap sectionSettings) := by
  obtain ⟨m, hperm, hforall⟩ := h
  refine (hperm.flatMap_right _).trans ?_
  clear hperm
  induction hforall with
  | nil => exact .refl _
  | @cons s t m b hst _ ih =>
    rw [List.flatMap_cons, List.flatMap_cons, sectionSettings, sectionSettings, hst.1]
    exact (hst.2.map _).append ih

/-! ## Values -/

/-- **The value of a key** that is set once. -/
theorem get?_eq_some {settings : List Setting} (hnodup : (settings.map fun s => (s.heading, s.key)).Nodup)
    {heading key value : String} (hmem : ⟨heading, key, some value⟩ ∈ settings) :
    (Ini.mk settings).get? heading key = some value := by
  unfold get?
  cases hfind : settings.reverse.find? fun s => s.heading == heading && s.key == key with
  | none =>
    have hnone := List.find?_eq_none.1 hfind _ (List.mem_reverse.2 hmem)
    simp at hnone
  | some s =>
    have hs := List.find?_some hfind
    rw [Bool.and_eq_true, beq_iff_eq, beq_iff_eq] at hs
    -- a setting of the same key is the same setting
    have hin := List.mem_reverse.1 (List.mem_of_find?_eq_some hfind)
    have heq := List.inj_on_of_nodup_map hnodup hin hmem (Prod.ext hs.1 hs.2)
    rw [heq]
    rfl

end Ini

end MotionScript
